import TermGraph.Proofs.Value.Chains
import TermGraph.Value.Bytes

/-!
# Texts of values are unambiguous

A value can be read back from its text in diagnostics, if nothing in it is
shown in part only: numbers of double precision look like integers when they
are whole, and of a null reference no path is shown (`Value.Legible`).

The first character of a text tells the kind of the value
(`ValueKind.ofInitial?`), and a text ends where something comes that cannot
belong to it: a comma or a closing bracket, or nothing at all
(`Value.Delimits`).  With both, a text behind which something of that sort
stands has one reading (`Value.eq_of_spelled_append`).  The statement is about
a text with something behind it because that is how elements stand in the text
of an aggregate: the text of an element is followed by a comma or by the closing
bracket, and neither is part of it.
-/

namespace TermGraph

/-! ## Numbers -/

section Numbers

variable {x y : List Char}

/-- The text goes on with something else than a digit, or ends. -/
def NoDigitAhead (x : List Char) : Prop := ∀ c, x.head? = some c → c.isDigit = false

/-- No digits are taken from a text that begins with none. -/
theorem takeWhile_isDigit (hx : NoDigitAhead x) : x.takeWhile Char.isDigit = [] := by
  cases x with
  | nil => rfl
  | cons c x => simp [hx c rfl]

/-- The decimal digits of a number are digits. -/
theorem isDigit_of_mem_decimalChars {n : Nat} {c : Char} (h : c ∈ decimalChars n) :
    c.isDigit = true :=
  Nat.isDigit_of_mem_toDigits (by decide) (by decide) h

/-- A number is over where its digits are. -/
theorem takeWhile_decimalChars_append (n : Nat) (hx : NoDigitAhead x) :
    (decimalChars n ++ x).takeWhile Char.isDigit = decimalChars n := by
  rw [List.takeWhile_append_of_pos fun c hc => isDigit_of_mem_decimalChars hc,
    takeWhile_isDigit hx, List.append_nil]

/-- Numbers with the same digits are the same. -/
theorem decimalChars_inj {m n : Nat} (h : decimalChars m = decimalChars n) : m = n := by
  calc
    m = Nat.ofDigitChars 10 (decimalChars m) 0 := Nat.ofDigitChars_ten_toDigits.symm
    _ = Nat.ofDigitChars 10 (decimalChars n) 0 := by rw [h]
    _ = n := Nat.ofDigitChars_ten_toDigits

/-- Natural numbers have one reading. -/
theorem eq_of_decimalChars_append {m n : Nat} (hx : NoDigitAhead x) (hy : NoDigitAhead y)
    (h : decimalChars m ++ x = decimalChars n ++ y) : m = n ∧ x = y := by
  have hdigits : decimalChars m = decimalChars n := by
    rw [← takeWhile_decimalChars_append m hx, h, takeWhile_decimalChars_append n hy]
  rw [hdigits] at h
  exact ⟨decimalChars_inj hdigits, List.append_cancel_left h⟩

/-- Every number has a first digit. -/
theorem exists_decimalChars_eq_cons (n : Nat) :
    ∃ c cs, decimalChars n = c :: cs ∧ c.isDigit = true := by
  obtain ⟨c, cs, h⟩ := List.exists_cons_of_ne_nil (Nat.toDigits_ne_nil (n := n) (b := 10))
  exact ⟨c, cs, h, isDigit_of_mem_decimalChars (h ▸ List.mem_cons_self)⟩

/-- A number begins with a digit. -/
theorem decimalChars_append_ne (n : Nat) {c : Char} (hc : c.isDigit = false) :
    decimalChars n ++ x ≠ c :: y := by
  obtain ⟨d, ds, h, hd⟩ := exists_decimalChars_eq_cons n
  intro heq
  rw [h, List.cons_append, List.cons.injEq] at heq
  rw [heq.1, hc] at hd
  cases hd

/-- Integers have one reading. -/
theorem eq_of_signedChars_append {m n : Int} (hx : NoDigitAhead x) (hy : NoDigitAhead y)
    (h : signedChars m ++ x = signedChars n ++ y) : m = n ∧ x = y := by
  cases m with
  | ofNat m =>
    cases n with
    | ofNat n =>
      obtain ⟨heq, hrest⟩ := eq_of_decimalChars_append hx hy h
      rw [heq]
      exact ⟨rfl, hrest⟩
    | negSucc n => exact absurd h (decimalChars_append_ne m rfl)
  | negSucc m =>
    cases n with
    | ofNat n => exact absurd h.symm (decimalChars_append_ne n rfl)
    | negSucc n =>
      obtain ⟨heq, hrest⟩ := eq_of_decimalChars_append hx hy (List.cons.inj h).2
      rw [Nat.succ.inj heq]
      exact ⟨rfl, hrest⟩

/-- An integer begins with a digit or with a minus sign. -/
theorem exists_signedChars_eq_cons (n : Int) :
    ∃ c cs, signedChars n = c :: cs ∧ (c.isDigit || c == '-') = true := by
  cases n with
  | ofNat n =>
    obtain ⟨c, cs, h, hc⟩ := exists_decimalChars_eq_cons n
    exact ⟨c, cs, h, by rw [hc, Bool.true_or]⟩
  | negSucc n => exact ⟨'-', decimalChars (n + 1), rfl, by decide⟩

end Numbers

/-! ## What a text begins with and what ends it -/

/-- The kind of value whose text begins with the character, if there is one.
Numbers of double precision are left out. -/
def ValueKind.ofInitial? (c : Char) : Option ValueKind :=
  if c.isDigit || c == '-' then some .integer
  else match c with
    | '<' => some .error
    | 'f' => some .function
    | 'r' => some .reference
    | '[' => some (.aggregate .array)
    | 'd' => some (.aggregate .dynarray)
    | '(' => some (.aggregate .tuple)
    | _ => none

namespace Value

variable {v w : Value} {x y : List Char}

/-- What can stand behind the text of a value: nothing, or something that begins
with a character that ends it. -/
def Delimits (x : List Char) : Prop := ∀ c, x.head? = some c → c = ',' ∨ c = ']' ∨ c = ')'

theorem delimits_nil : Delimits [] := nofun

/-- What closes an aggregate ends the text of its last element. -/
theorem delimits_closing (shape : Shape) (x : List Char) : Delimits (shape.closing :: x) := by
  rintro c ⟨⟩
  cases shape with
  | array | dynarray => exact .inr (.inl rfl)
  | tuple => exact .inr (.inr rfl)

/-- What ends a text is no digit. -/
theorem Delimits.noDigitAhead (h : Delimits x) : NoDigitAhead x := by
  intro c hc
  rcases h c hc with rfl | rfl | rfl <;> decide

/-- The first character of a text tells the kind of the value, numbers of double
precision apart. -/
theorem exists_initial (hv : v.kind ≠ .float) :
    ∃ c cs, v.spelled = c :: cs ∧ ValueKind.ofInitial? c = some v.kind := by
  cases v with
  | error => exact ⟨'<', _, rfl, rfl⟩
  | integer n =>
    obtain ⟨c, cs, hcs, hc⟩ := exists_signedChars_eq_cons n.toInt
    exact ⟨c, cs, hcs, if_pos hc⟩
  | float => exact absurd rfl hv
  | function => exact ⟨'f', _, rfl, rfl⟩
  | reference => exact ⟨'r', _, rfl, rfl⟩
  | aggregate shape elems =>
    cases shape <;> cases elems <;> exact ⟨_, _, rfl, rfl⟩

/-- The beginning of a text tells the kind of value. -/
theorem kind_eq_of_spelled_append (hv : v.kind ≠ .float) (hw : w.kind ≠ .float)
    (h : v.spelled ++ x = w.spelled ++ y) : v.kind = w.kind := by
  obtain ⟨c, cs, hcs, hc⟩ := exists_initial hv
  obtain ⟨d, ds, hds, hd⟩ := exists_initial hw
  rw [hcs, hds, List.cons_append, List.cons_append, List.cons.injEq] at h
  rw [h.1, hd] at hc
  exact (Option.some.inj hc).symm

/-- No text begins with what ends an aggregate. -/
theorem closing_cons_ne (hv : v.kind ≠ .float) (shape : Shape) :
    shape.closing :: x ≠ v.spelled ++ y := by
  obtain ⟨c, cs, hcs, hc⟩ := exists_initial hv
  intro h
  rw [hcs, List.cons_append, List.cons.injEq] at h
  rw [← h.1] at hc
  cases shape <;> exact absurd hc (by simp [Shape.closing, ValueKind.ofInitial?])

/-! ## References and functions -/

/-- The part of a reference's text that shows the path. -/
def spelledPath (path : List Nat) : List Char := path.flatMap fun i => '.' :: decimalChars i

/-- Behind the number of a slot there is a dot, or the text is over. -/
theorem noDigitAhead_spelledPath (path : List Nat) (hx : Delimits x) :
    NoDigitAhead (spelledPath path ++ x) := by
  cases path with
  | nil => exact hx.noDigitAhead
  | cons i path =>
    rintro c ⟨⟩
    decide

/-- Paths have one reading. -/
theorem eq_of_spelledPath_append {p q : List Nat} (hx : Delimits x) (hy : Delimits y)
    (h : spelledPath p ++ x = spelledPath q ++ y) : p = q ∧ x = y := by
  have hdot : ∀ {z : List Char} {i path u}, Delimits z → z ≠ spelledPath (i :: path) ++ u := by
    rintro z i path u hz rfl
    rcases hz '.' rfl with h | h | h <;> cases h
  induction p generalizing q with
  | nil =>
    cases q with
    | nil => exact ⟨rfl, h⟩
    | cons j q => exact absurd h (hdot hx)
  | cons i p ih =>
    cases q with
    | nil => exact absurd h.symm (hdot hy)
    | cons j q =>
      have htail : decimalChars i ++ (spelledPath p ++ x)
          = decimalChars j ++ (spelledPath q ++ y) := by
        simpa [spelledPath] using h
      obtain ⟨hij, hrest⟩ := eq_of_decimalChars_append (noDigitAhead_spelledPath p hx)
        (noDigitAhead_spelledPath q hy) htail
      obtain ⟨hpq, hxy⟩ := ih hrest
      rw [hij, hpq]
      exact ⟨rfl, hxy⟩

/-- A number does not begin like the word for nothing. -/
theorem decimalChars_append_ne_null (n : Nat) : decimalChars n ++ x ≠ "null".toList ++ y :=
  decimalChars_append_ne n rfl

/-- What comes behind the same beginning. -/
theorem append_of_append_append {p u v : List Char} (h : p ++ u ++ x = p ++ v ++ y) :
    u ++ x = v ++ y := by
  rw [List.append_assoc, List.append_assoc] at h
  exact List.append_cancel_left h

/-- References have one reading, if null references have no paths. -/
theorem eq_of_reference_append {q r : ValueRef} (hq : q.slot = none → q.path = [])
    (hr : r.slot = none → r.path = []) (hx : Delimits x) (hy : Delimits y)
    (h : q.spelled ++ x = r.spelled ++ y) : q = r ∧ x = y := by
  obtain ⟨slot, p⟩ := q
  obtain ⟨slot', p'⟩ := r
  have hbody := append_of_append_append h
  cases slot with
  | none =>
    cases slot' with
    | none =>
      have hp : p = [] := hq rfl
      have hp' : p' = [] := hr rfl
      rw [hp, hp']
      exact ⟨rfl, List.append_cancel_left hbody⟩
    | some j =>
      rw [List.append_assoc] at hbody
      exact absurd hbody.symm (decimalChars_append_ne_null j)
  | some i =>
    cases slot' with
    | none =>
      rw [List.append_assoc] at hbody
      exact absurd hbody (decimalChars_append_ne_null i)
    | some j =>
      rw [List.append_assoc, List.append_assoc] at hbody
      obtain ⟨hij, hrest⟩ := eq_of_decimalChars_append (noDigitAhead_spelledPath p hx)
        (noDigitAhead_spelledPath p' hy) hbody
      obtain ⟨hpaths, hxy⟩ := eq_of_spelledPath_append hx hy hrest
      rw [hij, hpaths]
      exact ⟨rfl, hxy⟩

/-- Functions have one reading. -/
theorem eq_of_function_append {d e : DeclId} (hx : Delimits x) (hy : Delimits y)
    (h : (Value.function d).spelled ++ x = (Value.function e).spelled ++ y) : d = e ∧ x = y := by
  have hbody := append_of_append_append h
  have hnone : ∀ {d : DeclId}, d.isValid = false → d.index = Handle.noIndex := fun hd =>
    bne_eq_false_iff_eq.mp hd
  cases hd : d.isValid <;> cases he : e.isValid <;>
    simp only [hd, he, if_true, Bool.false_eq_true, if_false] at hbody
  case false.false =>
    have hindex : d.index = e.index := (hnone hd).trans (hnone he).symm
    exact ⟨Handle.index_inj.mp hindex, List.append_cancel_left hbody⟩
  case false.true => exact absurd hbody.symm (decimalChars_append_ne_null e.index)
  case true.false => exact absurd hbody (decimalChars_append_ne_null d.index)
  case true.true =>
    obtain ⟨hindex, hxy⟩ := eq_of_decimalChars_append hx.noDigitAhead hy.noDigitAhead hbody
    exact ⟨Handle.index_inj.mp hindex, hxy⟩

/-! ## Aggregates -/

/-- Nothing in the value is shown in part only: there is no number of double
precision in it, and no null reference that has a path. -/
structure Legible (v : Value) : Prop where
  noFloat : v.count .float = 0
  nullPaths : ∀ r ∈ v.references, r.slot = none → r.path = []

instance (v : Value) : Decidable v.Legible :=
  decidable_of_iff (v.count .float = 0 ∧ ∀ r ∈ v.references, r.slot = none → r.path = [])
    ⟨fun h => ⟨h.1, h.2⟩, fun h => ⟨h.1, h.2⟩⟩

/-- A legible value is no number of double precision. -/
theorem Legible.kind_ne (h : v.Legible) : v.kind ≠ .float := by
  cases v with
  | float => exact absurd h.noFloat (by simp [count, kind])
  | _ => nofun

/-- An element has no more values of a kind in it than all have together. -/
theorem count_le_countAll (k : ValueKind) {vs : List Value} (h : v ∈ vs) :
    v.count k ≤ countAll k vs := by
  induction vs with
  | nil => cases h
  | cons u vs ih =>
    rw [countAll]
    rcases List.mem_cons.mp h with rfl | hmem
    · omega
    · have hle := ih hmem
      omega

/-- The elements of a legible aggregate are legible. -/
theorem Legible.element {shape : Shape} {elems : List Value}
    (h : (Value.aggregate shape elems).Legible) : ∀ v ∈ elems, v.Legible := by
  intro v hv
  have hcount := h.noFloat
  have hle := count_le_countAll .float hv
  rw [count] at hcount
  exact ⟨by omega, fun r hr => h.nullPaths r (mem_referencesAll.mpr ⟨v, hv, hr⟩)⟩

/-- The texts of all elements, with what separates them. -/
def spelledAll : List Value → List Char
  | [] => []
  | v :: vs => v.spelled ++ spelledRest vs

/-- The text of an aggregate is what opens it, its elements and what closes it. -/
theorem spelled_aggregate (shape : Shape) (elems : List Value) :
    (Value.aggregate shape elems).spelled
      = shape.opening ++ (spelledAll elems ++ [shape.closing]) := by
  cases elems with
  | nil => rfl
  | cons v vs =>
    show shape.opening ++ v.spelled ++ spelledRest vs ++ [shape.closing] = _
    rw [spelledAll, List.append_assoc, List.append_assoc, List.append_assoc]

/-- What stands behind an element ends its text. -/
theorem delimits_spelledRest (vs : List Value) (shape : Shape) (x : List Char) :
    Delimits (spelledRest vs ++ shape.closing :: x) := by
  cases vs with
  | nil => exact delimits_closing shape x
  | cons v vs =>
    rintro c ⟨⟩
    exact .inl rfl

/-- The text of the value has one reading, whatever ends it. -/
def ReadsOnce (v : Value) : Prop :=
  ∀ w : Value, w.Legible → ∀ x y, Delimits x → Delimits y →
    v.spelled ++ x = w.spelled ++ y → v = w ∧ x = y

section Elements

variable {shape : Shape}

/-- What closes an aggregate does not separate elements. -/
theorem closing_ne_comma (shape : Shape) : shape.closing ≠ ',' := by
  cases shape <;> decide

/-- An element is read, and what stands behind it is left. -/
theorem ReadsOnce.element {vs ws : List Value} (hv : v.ReadsOnce) (hw : w.Legible)
    (h : v.spelled ++ spelledRest vs ++ shape.closing :: x
      = w.spelled ++ spelledRest ws ++ shape.closing :: y) :
    v = w ∧ spelledRest vs ++ shape.closing :: x = spelledRest ws ++ shape.closing :: y := by
  rw [List.append_assoc, List.append_assoc] at h
  exact hv w hw _ _ (delimits_spelledRest vs shape x) (delimits_spelledRest ws shape y) h

/-- All elements but the first, each behind a comma, to the closing bracket. -/
theorem eq_of_spelledRest_append {vs ws : List Value} (hvs : ∀ v ∈ vs, v.ReadsOnce)
    (hws : ∀ w ∈ ws, w.Legible)
    (h : spelledRest vs ++ shape.closing :: x = spelledRest ws ++ shape.closing :: y) :
    vs = ws ∧ x = y := by
  induction vs generalizing ws with
  | nil =>
    cases ws with
    | nil => exact ⟨rfl, (List.cons.inj h).2⟩
    | cons w ws => exact absurd (List.cons.inj h).1 (closing_ne_comma shape)
  | cons v vs ih =>
    cases ws with
    | nil => exact absurd (List.cons.inj h).1.symm (closing_ne_comma shape)
    | cons w ws =>
      have hbehind := (List.cons.inj (List.cons.inj h).2).2
      obtain ⟨hhead, hrest⟩ := (hvs v List.mem_cons_self).element (hws w List.mem_cons_self) hbehind
      obtain ⟨htail, hxy⟩ := ih (fun u hu => hvs u (List.mem_cons_of_mem v hu))
        (fun u hu => hws u (List.mem_cons_of_mem w hu)) hrest
      rw [hhead, htail]
      exact ⟨rfl, hxy⟩

/-- All elements of an aggregate, to the closing bracket. -/
theorem eq_of_spelledAll_append {vs ws : List Value} (hvs : ∀ v ∈ vs, v.ReadsOnce)
    (hlegible : ∀ v ∈ vs, v.Legible) (hws : ∀ w ∈ ws, w.Legible)
    (h : spelledAll vs ++ shape.closing :: x = spelledAll ws ++ shape.closing :: y) :
    vs = ws ∧ x = y := by
  cases vs with
  | nil =>
    cases ws with
    | nil => exact ⟨rfl, (List.cons.inj h).2⟩
    | cons w ws =>
      rw [spelledAll, spelledAll, List.append_assoc] at h
      exact absurd h (closing_cons_ne (hws w List.mem_cons_self).kind_ne shape)
  | cons v vs =>
    cases ws with
    | nil =>
      rw [spelledAll, spelledAll, List.append_assoc] at h
      exact absurd h.symm (closing_cons_ne (hlegible v List.mem_cons_self).kind_ne shape)
    | cons w ws =>
      obtain ⟨hhead, hrest⟩ := (hvs v List.mem_cons_self).element (hws w List.mem_cons_self) h
      obtain ⟨htail, hxy⟩ := eq_of_spelledRest_append
        (fun u hu => hvs u (List.mem_cons_of_mem v hu))
        (fun u hu => hws u (List.mem_cons_of_mem w hu)) hrest
      rw [hhead, htail]
      exact ⟨rfl, hxy⟩

end Elements

/-- **Texts have one reading.**  Of two values that are shown in full, the texts
with something behind that ends them are equal only if the values are, and what
is behind. -/
theorem eq_of_spelled_append (hv : v.Legible) (hw : w.Legible) (hx : Delimits x)
    (hy : Delimits y) (h : v.spelled ++ x = w.spelled ++ y) : v = w ∧ x = y := by
  have hkind := kind_eq_of_spelled_append hv.kind_ne hw.kind_ne h
  -- What stands behind is arbitrary, so that the induction hypothesis covers
  -- elements with more elements behind them.
  induction v generalizing w x y with
  | error =>
    cases w with
    | error => exact ⟨rfl, List.append_cancel_left h⟩
    | _ => cases hkind
  | integer m =>
    cases w with
    | integer n =>
      obtain ⟨heq, hxy⟩ := eq_of_signedChars_append hx.noDigitAhead hy.noDigitAhead h
      rw [Int64.toInt_inj.mp heq]
      exact ⟨rfl, hxy⟩
    | _ => cases hkind
  | float => exact absurd rfl hv.kind_ne
  | function d =>
    cases w with
    | function e =>
      obtain ⟨heq, hxy⟩ := eq_of_function_append hx hy h
      rw [heq]
      exact ⟨rfl, hxy⟩
    | _ => cases hkind
  | reference q =>
    cases w with
    | reference r =>
      have hq := hv.nullPaths q (List.mem_singleton_self q)
      have hr := hw.nullPaths r (List.mem_singleton_self r)
      obtain ⟨heq, hxy⟩ := eq_of_reference_append hq hr hx hy h
      rw [heq]
      exact ⟨rfl, hxy⟩
    | _ => cases hkind
  | aggregate shape elems ih =>
    cases w with
    | aggregate shape' elems' =>
      cases hkind
      have hread : ∀ v ∈ elems, v.ReadsOnce := by
        intro v hmem w hw x y hx hy h
        have hv' := hv.element v hmem
        exact ih v hmem hv' hw hx hy h (kind_eq_of_spelled_append hv'.kind_ne hw.kind_ne h)
      simp only [spelled_aggregate, List.append_assoc] at h
      have helems := List.append_cancel_left h
      obtain ⟨heq, hxy⟩ := eq_of_spelledAll_append hread hv.element hw.element helems
      rw [heq]
      exact ⟨rfl, hxy⟩
    | _ => cases hkind

/-- **Texts of values are unambiguous.**  Two values without numbers of double
precision and without paths on null references have the same text only if they
are equal. -/
theorem text_inj (hv : v.Legible) (hw : w.Legible) : v.text = w.text ↔ v = w := by
  constructor
  · intro h
    have hchars : v.spelled ++ [] = w.spelled ++ [] := by rw [String.ofList_inj.mp h]
    exact (eq_of_spelled_append hv hw delimits_nil delimits_nil hchars).1
  · intro h
    rw [h]

/-- An error that stands behind an empty array. -/
def errorBehind : Value := .aggregate .array [.aggregate .dynarray [], .error, .function .invalid]

/-- An error that stands in the array. -/
def errorInside : Value := .aggregate .array [.aggregate .dynarray [.error], .function .invalid]

/-- Where a bracket closes can be told. -/
theorem text_inj_brackets :
    errorBehind.Legible ∧ errorInside.Legible ∧ errorBehind.text ≠ errorInside.text := by
  have hv : errorBehind.Legible := by decide
  have hw : errorInside.Legible := by decide
  refine ⟨hv, hw, fun htext => ?_⟩
  have heq := (text_inj hv hw).mp htext
  have hlengths := congrArg (fun v : Value => v.elements?.map List.length) heq
  exact absurd hlengths (by decide)

/-- A whole number of double precision looks like an integer. -/
example : (Value.float ⟨0x3ff0000000000000⟩).text = (Value.integer 1).text := by decide +kernel

/-- A path on a null reference is not shown. -/
example : (Value.reference ⟨none, [0]⟩).text = (Value.reference .null).text := rfl

end Value

end TermGraph
