import TermGraph.Proofs.Value.Chains

/-!
# Values and their words

Two values are compared by a walk through both at once (`Value.same`), and a
value is hashed by the words that a walk through it alone writes down
(`Value.words`).  The comparison says that values are the same exactly when
they are (`Value.same_iff`).  The words can be read back: the first tells the
kind, the kind tells how many more belong to the payload, and an aggregate says
how many elements follow.  So no value has the words of another, not even with
something else behind them (`Value.eq_of_words_append`), and the two walks
agree.

One word could mean two things.  The null reference is hashed by the number
set aside for "no slot", so that number must not be the number of a slot
(`Value.Addressable`).
-/

namespace TermGraph

namespace Value

variable {v w : Value}

/-! ## The comparison -/

/-- Lists are compared element by element. -/
theorem sameAll_iff {vs : List Value} (h : ∀ v ∈ vs, ∀ w, v.same w = true ↔ v = w)
    (ws : List Value) : sameAll vs ws = true ↔ vs = ws := by
  induction vs generalizing ws with
  | nil => cases ws <;> simp [sameAll]
  | cons v vs ih =>
    cases ws with
    | nil => simp [sameAll]
    | cons w ws =>
      have hhead := h v List.mem_cons_self w
      have htail := ih (fun x hx => h x (List.mem_cons_of_mem v hx)) ws
      rw [sameAll, Bool.and_eq_true, hhead, htail, List.cons.injEq]

/-- The comparison says that two values are the same exactly when they are. -/
theorem same_iff (v w : Value) : v.same w = true ↔ v = w := by
  induction v generalizing w with
  | aggregate shape elems ih =>
    cases w with
    | aggregate shape' elems' => simp [same, sameAll_iff ih]
    | _ => simp [same]
  | float x =>
    cases w with
    | float y =>
      obtain ⟨x⟩ := x
      obtain ⟨y⟩ := y
      simp [same]
    | _ => simp [same]
  | _ => cases w <;> simp [same]

/-! ## The words -/

/-- Every reference in the value is null or has a slot whose number is not the
one set aside. -/
def Addressable (v : Value) : Prop := ∀ r ∈ v.references, r.slot ≠ some Handle.noIndex

instance (v : Value) : Decidable v.Addressable :=
  inferInstanceAs (Decidable (∀ r ∈ v.references, r.slot ≠ some Handle.noIndex))

/-- The elements of an addressable aggregate are addressable. -/
theorem Addressable.element {shape : Shape} {elems : List Value}
    (h : (Value.aggregate shape elems).Addressable) : ∀ v ∈ elems, v.Addressable :=
  fun v hv r hr => h r (mem_referencesAll.mpr ⟨v, hv, hr⟩)

/-- The first word of a value is the number of its kind. -/
theorem exists_words_eq_cons (v : Value) : ∃ u, v.words = v.kind.toNat :: u := by
  cases v <;> exact ⟨_, rfl⟩

/-- Values with the same words are of one kind, whatever follows. -/
theorem kind_eq_of_words_append {x y : List Nat} (h : v.words ++ x = w.words ++ y) :
    v.kind = w.kind := by
  obtain ⟨s, hs⟩ := exists_words_eq_cons v
  obtain ⟨t, ht⟩ := exists_words_eq_cons w
  rw [hs, ht, List.cons_append, List.cons_append] at h
  exact ValueKind.toNat_inj.mp (List.cons.inj h).1

/-- References have one reading. -/
theorem eq_of_referenceWords_append {q r : ValueRef} (hq : q.slot ≠ some Handle.noIndex)
    (hr : r.slot ≠ some Handle.noIndex) {x y : List Nat}
    (h : referenceWords q ++ x = referenceWords r ++ y) : q = r ∧ x = y := by
  obtain ⟨slot, path⟩ := q
  obtain ⟨slot', path'⟩ := r
  simp only [referenceWords, List.cons_append, List.cons.injEq] at h
  obtain ⟨hslot, hlength, hpath⟩ := h
  obtain ⟨hpath, hrest⟩ := List.append_inj hpath hlength
  have hslots : slot = slot' := by
    cases slot <;> cases slot' <;> simp_all
  rw [hslots, hpath]
  exact ⟨rfl, hrest⟩

/-- As many values have one reading when each of the first ones has. -/
theorem eq_of_wordsAll_append {vs ws : List Value} (hws : ∀ w ∈ ws, w.Addressable)
    (ih : ∀ v ∈ vs, ∀ w : Value, w.Addressable → ∀ x y,
      v.words ++ x = w.words ++ y → v = w ∧ x = y)
    (hlength : vs.length = ws.length) {x y : List Nat}
    (h : wordsAll vs ++ x = wordsAll ws ++ y) : vs = ws ∧ x = y := by
  induction vs generalizing ws with
  | nil =>
    obtain rfl : ws = [] := List.length_eq_zero_iff.mp hlength.symm
    exact ⟨rfl, h⟩
  | cons v vs ihs =>
    cases ws with
    | nil => simp at hlength
    | cons w ws =>
      simp only [wordsAll, List.append_assoc] at h
      obtain ⟨hhead, htail⟩ := ih v List.mem_cons_self w (hws w List.mem_cons_self) _ _ h
      obtain ⟨hvs, hrest⟩ := ihs (fun u hu => hws u (List.mem_cons_of_mem w hu))
        (fun u hu => ih u (List.mem_cons_of_mem v hu)) (Nat.succ.inj hlength) htail
      rw [hhead, hvs]
      exact ⟨rfl, hrest⟩

/-- **Words have one reading.**  Words of values with anything behind them tell
the value, and what is behind. -/
theorem eq_of_words_append (hv : v.Addressable) (hw : w.Addressable) {x y : List Nat}
    (h : v.words ++ x = w.words ++ y) : v = w ∧ x = y := by
  have hkind := kind_eq_of_words_append h
  induction v generalizing w x y with
  | error =>
    cases w with
    | error => exact ⟨rfl, (List.cons.inj h).2⟩
    | _ => cases hkind
  | integer m =>
    cases w with
    | integer n =>
      obtain ⟨hword, hrest⟩ := List.cons.inj (List.cons.inj h).2
      have hbits : m.toUInt64 = n.toUInt64 := UInt64.toNat_inj.mp hword
      have heq : m = n := by simpa using congrArg UInt64.toInt64 hbits
      rw [heq]
      exact ⟨rfl, hrest⟩
    | _ => cases hkind
  | float a =>
    cases w with
    | float b =>
      obtain ⟨hword, hrest⟩ := List.cons.inj (List.cons.inj h).2
      obtain ⟨a⟩ := a
      obtain ⟨b⟩ := b
      have hbits : a = b := UInt64.toNat_inj.mp hword
      rw [hbits]
      exact ⟨rfl, hrest⟩
    | _ => cases hkind
  | function d =>
    cases w with
    | function e =>
      obtain ⟨hword, hrest⟩ := List.cons.inj (List.cons.inj h).2
      rw [Handle.index_inj.mp hword]
      exact ⟨rfl, hrest⟩
    | _ => cases hkind
  | reference q =>
    cases w with
    | reference r =>
      have hq := hv q (List.mem_singleton_self q)
      have hr := hw r (List.mem_singleton_self r)
      obtain ⟨heq, hrest⟩ := eq_of_referenceWords_append hq hr (List.cons.inj h).2
      rw [heq]
      exact ⟨rfl, hrest⟩
    | _ => cases hkind
  | aggregate shape elems ih =>
    cases w with
    | aggregate shape' elems' =>
      cases hkind
      obtain ⟨hlength, helems⟩ := List.cons.inj (List.cons.inj h).2
      have hread : ∀ v ∈ elems, ∀ w : Value, w.Addressable → ∀ x y,
          v.words ++ x = w.words ++ y → v = w ∧ x = y :=
        fun v hmem w hw x y h =>
          ih v hmem (hv.element v hmem) hw h (kind_eq_of_words_append h)
      obtain ⟨heq, hrest⟩ := eq_of_wordsAll_append hw.element hread hlength helems
      rw [heq]
      exact ⟨rfl, hrest⟩
    | _ => cases hkind

/-- Values with the same words are equal. -/
theorem words_inj (hv : v.Addressable) (hw : w.Addressable) : v.words = w.words ↔ v = w := by
  constructor
  · intro h
    have happend : v.words ++ [] = w.words ++ [] := by rw [h]
    exact (eq_of_words_append hv hw happend).1
  · intro h
    rw [h]

/-- **Comparison and hashing agree.**  The comparison is reflexive, symmetric and
transitive, and says that two values are the same exactly when they are equal:
of one kind and one length, with the same leaves in the same order, numbers of
double precision by their bits.  Values that are the same have the same words,
and values that have the same words are the same, as no slot has the number that
the null reference is hashed by. -/
theorem same_iff_words (u v w : Value) :
    v.same v = true ∧
      (v.same w = true → w.same v = true) ∧
      (u.same v = true → v.same w = true → u.same w = true) ∧
      (v.same w = true ↔ v = w) ∧
      (v.same w = true → v.words = w.words) ∧
      (v.Addressable → w.Addressable → (v.same w = true ↔ v.words = w.words)) := by
  have hsame : ∀ {v w : Value}, v.same w = true ↔ v = w := fun {v w} => same_iff v w
  refine ⟨hsame.mpr rfl, fun h => ?_, fun h k => ?_, hsame, fun h => ?_, fun hv hw => ?_⟩
  · exact hsame.mpr (hsame.mp h).symm
  · exact hsame.mpr ((hsame.mp h).trans (hsame.mp k))
  · rw [hsame.mp h]
  · exact hsame.trans (words_inj hv hw).symm

/-- A tuple with a number inside an array. -/
def boxed (x : Binary64) : Value :=
  .aggregate .tuple [.aggregate .array [.float x], .reference ⟨some 4, [0, 2]⟩, .reference .null]

/-- Tuples that differ in the sign of a zero have different words. -/
theorem same_iff_words_signedZeros :
    (boxed .zero).Addressable ∧ (boxed Binary64.zero.neg).Addressable ∧
      (boxed .zero).same (boxed Binary64.zero.neg) = false ∧
      (boxed .zero).words ≠ (boxed Binary64.zero.neg).words := by
  have hv : (boxed .zero).Addressable := by decide
  have hw : (boxed Binary64.zero.neg).Addressable := by decide
  have hsame : (boxed .zero).same (boxed Binary64.zero.neg) = false := by decide
  refine ⟨hv, hw, hsame, fun hwords => ?_⟩
  obtain ⟨_, _, _, _, _, hiff⟩ := same_iff_words .error (boxed .zero) (boxed Binary64.zero.neg)
  have htrue := (hiff hv hw).mpr hwords
  rw [hsame] at htrue
  cases htrue

end Value

end TermGraph
