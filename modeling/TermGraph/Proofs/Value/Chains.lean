import TermGraph.Proofs.Value.Storage

/-!
# Chains of references

No reference is made to what is a reference itself (`ValueStore.reference`).
But what a reference names can be overwritten, and nothing is checked then.  So
a reference may come to name a reference, and this module tells when.

A `StoreSession` is a store with all references it has made.  It goes on by
making references, storing values, assigning and zeroing; in a fair run the
references inside the values stored are among those made, or null.  Every
command leaves the store as it is or puts a value in one place
(`ValueStore.Puts`), and away from the place nothing becomes a reference or
ceases to be one.  The step lemmas say what this does to the references made
(`StoreSession.Sound.step`) and to chains (`StoreSession.unchained_step_iff`),
and from them it follows for whole runs.
-/

namespace TermGraph

open Value (part?)

namespace Value

mutual

/-- The references that a value holds, itself or in its parts. -/
def references : Value → List ValueRef
  | .reference r => [r]
  | .aggregate _ elems => referencesAll elems
  | _ => []

/-- The references that values hold. -/
def referencesAll : List Value → List ValueRef
  | [] => []
  | v :: vs => references v ++ referencesAll vs

end

/-- The references that a list of values holds are those that its entries hold. -/
theorem mem_referencesAll {q : ValueRef} {vs : List Value} :
    q ∈ referencesAll vs ↔ ∃ v ∈ vs, q ∈ v.references := by
  induction vs with
  | nil => simp [referencesAll]
  | cons v vs ih => simp [referencesAll, ih]

/-- A value holds the references that paths lead to in it. -/
theorem mem_references_of_part? {v : Value} {path : List Nat} {q : ValueRef}
    (h : part? path v = some (.reference q)) : q ∈ v.references := by
  induction path generalizing v with
  | nil =>
    rw [part?_nil] at h
    cases h
    exact List.mem_singleton_self q
  | cons i path ih =>
    obtain ⟨shape, elems, u, rfl, hu, hpart⟩ := part?_cons_eq_some.mp h
    exact mem_referencesAll.mpr ⟨u, List.mem_of_getElem? hu, ih hpart⟩

/-- A reference in a zeroed value is null, and stands where one stood before. -/
theorem part?_zeroed_eq_reference {v : Value} {path : List Nat} {q : ValueRef}
    (h : part? path v.zeroed = some (.reference q)) :
    q = .null ∧ ∃ t, part? path v = some (.reference t) := by
  rw [zeroed, part?_mapLeaves] at h
  obtain ⟨u, hu, hzero⟩ := Option.map_eq_some_iff.mp h
  cases u with
  | reference t =>
    cases hzero
    exact ⟨rfl, t, hu⟩
  | _ => cases hzero

end Value

namespace ValueRef

/-- A reference leads to what another names or into it. -/
def Within (q r : ValueRef) : Prop := ∃ path, q = r.extend path

end ValueRef

namespace ValueStore

variable {s s' : ValueStore} {l q r : ValueRef} {v : Value}

/-- What a reference names is a reference. -/
def HoldsReference (s : ValueStore) (q : ValueRef) : Prop := ∃ t, s.get? q = some (.reference t)

/-- At `l` the store holds a reference to `q`, where it holds one again. -/
def Chain (s : ValueStore) (l q : ValueRef) : Prop :=
  s.get? l = some (.reference q) ∧ s.HoldsReference q

def Unchained (s : ValueStore) : Prop := ∀ l q, ¬ s.Chain l q

/-- The value `v` is put where `r` leads.  Away from there the references that
are held stay what they are. -/
structure Puts (s : ValueStore) (r : ValueRef) (v : Value) (s' : ValueStore) : Prop where
  size : s.size ≤ s'.size
  within : ∀ path, s'.get? (r.extend path) = part? path v
  outside : ∀ q, ¬ q.Within r → ∀ t,
    s'.get? q = some (.reference t) ↔ s.get? q = some (.reference t)

/-- What a reference is made to is in a slot, and is no reference itself: that is
what is checked when it is made. -/
theorem plain_of_reference {made : Value} (h : s.reference r = .ok made) :
    (∃ slot, r.slot = some slot ∧ slot < s.size) ∧ ¬ s.HoldsReference r := by
  unfold reference get at h
  split at h
  next x hx =>
    obtain ⟨slot, whole, hslot, hwhole, _⟩ := get?_eq_some.mp hx
    refine ⟨⟨slot, hslot, (Array.getElem?_eq_some_iff.mp hwhole).1⟩, ?_⟩
    rintro ⟨t, ht⟩
    rw [hx] at ht
    cases ht
    cases h
  next => cases h

/-- An assignment puts the value where the reference leads. -/
theorem puts_set (h : s.set r v = .ok s') : s.Puts r v s' := by
  have hassigned := assigned_of_set? (set_eq_ok.mp h)
  refine ⟨Nat.le_of_eq hassigned.size.symm, hassigned.within, fun q hq t => ?_⟩
  rcases ValueRef.extend_or_apart q r with hwithin | ⟨path, hpath, hr⟩ | hapart
  · exact absurd hwithin hq
  · -- Around the place there are aggregates, before and after.
    obtain ⟨shape, elems, elems', hbefore, hafter, _⟩ := hassigned.around q path hpath hr
    simp [hbefore, hafter]
  · rw [hassigned.apart q hapart]

/-- A new slot has the value put into it. -/
theorem puts_alloc (s : ValueStore) (v : Value) : s.Puts (s.alloc v).1 v (s.alloc v).2 := by
  have halloc := allocated_alloc s v
  refine ⟨by simp [halloc.size], halloc.within, fun q hq t => ⟨fun h => ?_, halloc.kept q _⟩⟩
  obtain ⟨slot, whole, hslot, hwhole, hpart⟩ := get?_eq_some.mp h
  have hne : slot ≠ s.slots.size := by
    rintro rfl
    exact hq ⟨q.path, by simp [ValueRef.extend, alloc, ← hslot]⟩
  refine get?_eq_some.mpr ⟨slot, whole, hslot, ?_, hpart⟩
  rw [← hwhole, alloc, Array.getElem?_push, if_neg hne]

/-- To zero a place puts the zeroed value there. -/
theorem puts_zero (h : s.zero r = .ok s') :
    ∃ old, s.get? r = some old ∧ s.Puts r old.zeroed s' := by
  obtain ⟨old, hold, hset⟩ := zero_eq_ok.mp h
  exact ⟨old, hold, puts_set (set_eq_ok.mpr hset)⟩

namespace Puts

/-- Away from the place the same references name references. -/
theorem holdsReference_outside (h : s.Puts r v s') (hq : ¬ q.Within r) :
    s'.HoldsReference q ↔ s.HoldsReference q :=
  exists_congr (h.outside q hq)

/-- In the place a reference names a reference where the value holds one. -/
theorem holdsReference_within (h : s.Puts r v s') (path : List Nat) :
    s'.HoldsReference (r.extend path) ↔ ∃ t, part? path v = some (.reference t) := by
  rw [HoldsReference, h.within]

/-- What is true of the references held and of those put there is true
afterwards. -/
theorem held {P : ValueRef → Prop} (h : s.Puts r v s')
    (hold : ∀ l q, s.get? l = some (.reference q) → P q)
    (hv : ∀ path q, part? path v = some (.reference q) → P q) :
    ∀ l q, s'.get? l = some (.reference q) → P q := by
  intro l q hl
  by_cases hwithin : l.Within r
  · obtain ⟨path, rfl⟩ := hwithin
    rw [h.within] at hl
    exact hv path q hl
  · exact hold l q ((h.outside l hwithin q).mp hl)

/-- A chain away from the place was there before. -/
theorem chain_outside (h : s.Puts r v s') (hl : ¬ l.Within r) (hq : ¬ q.Within r) :
    s'.Chain l q ↔ s.Chain l q := by
  rw [Chain, Chain, h.outside l hl, h.holdsReference_outside hq]

end Puts

/-- Zeroing makes no chains. -/
theorem Unchained.zero (hs : s.Unchained) (h : s.zero r = .ok s') : s'.Unchained := by
  obtain ⟨old, hold, hputs⟩ := puts_zero h
  rintro l q ⟨hl, hq⟩
  by_cases hlw : l.Within r
  · obtain ⟨path, rfl⟩ := hlw
    rw [hputs.within] at hl
    obtain ⟨rfl, _⟩ := Value.part?_zeroed_eq_reference hl
    obtain ⟨t, ht⟩ := hq
    cases ht
  · have hl' := (hputs.outside l hlw q).mp hl
    by_cases hqw : q.Within r
    · obtain ⟨path, rfl⟩ := hqw
      obtain ⟨t, ht⟩ := (hputs.holdsReference_within path).mp hq
      obtain ⟨_, t', ht'⟩ := Value.part?_zeroed_eq_reference ht
      exact hs l _ ⟨hl', t', by rw [get?_extend, hold, Option.bind_some, ht']⟩
    · exact hs l q ⟨hl', (hputs.holdsReference_outside hqw).mp hq⟩

end ValueStore

/-- What is done with a store. -/
inductive StoreCommand where
  /-- Make the reference value for what a reference names. -/
  | refer (r : ValueRef)
  | alloc (v : Value)
  | set (r : ValueRef) (v : Value)
  | zero (r : ValueRef)

/-- A store and the references that it has made. -/
structure StoreSession where
  store : ValueStore
  made : List ValueRef

namespace StoreSession

variable {m : StoreSession} {c : StoreCommand} {before commands : List StoreCommand}

def start : StoreSession := ⟨.empty, []⟩

/-- Do what the command says.  A command that fails changes nothing. -/
def step (m : StoreSession) : StoreCommand → StoreSession
  | .refer r =>
    match m.store.reference r with
    | .ok _ => { m with made := r :: m.made }
    | .error _ => m
  | .alloc v => { m with store := (m.store.alloc v).2 }
  | .set r v =>
    match m.store.set r v with
    | .ok s => { m with store := s }
    | .error _ => m
  | .zero r =>
    match m.store.zero r with
    | .ok s => { m with store := s }
    | .error _ => m

def run (m : StoreSession) (commands : List StoreCommand) : StoreSession := commands.foldl step m

/-- Every command of a run is as `P` says of the state it is given in. -/
def Along (P : StoreSession → StoreCommand → Prop) (m : StoreSession) : List StoreCommand → Prop
  | [] => True
  | c :: rest => P m c ∧ Along P (m.step c) rest

instance Along.decidable {P : StoreSession → StoreCommand → Prop} [∀ m c, Decidable (P m c)] :
    (m : StoreSession) → (commands : List StoreCommand) → Decidable (m.Along P commands)
  | _, [] => .isTrue trivial
  | m, c :: rest =>
    have := Along.decidable (P := P) (m.step c) rest
    inferInstanceAs (Decidable (P m c ∧ (m.step c).Along P rest))

/-- The references that are stored are among those made, or null. -/
def Fair (m : StoreSession) : StoreCommand → Prop
  | .alloc v | .set _ v => ∀ q ∈ v.references, q ∈ m.made ∨ q = .null
  | .refer _ | .zero _ => True

instance : (m : StoreSession) → (c : StoreCommand) → Decidable (m.Fair c)
  | m, .alloc v | m, .set _ v =>
    inferInstanceAs (Decidable (∀ q ∈ v.references, q ∈ m.made ∨ q = .null))
  | _, .refer _ | _, .zero _ => .isTrue trivial

/-- No assignment puts a reference where a reference made before leads. -/
def Guarded (m : StoreSession) : StoreCommand → Prop
  | .set r v =>
    (m.store.get? r).isSome → ∀ path t, part? path v = some (.reference t) → r.extend path ∉ m.made
  | .refer _ | .alloc _ | .zero _ => True

/-- The command stores a value, and a chain begins or ends in the place. -/
def Links (m : StoreSession) : StoreCommand → Prop
  | .alloc v => ∃ l q, (m.step (.alloc v)).store.Chain l q ∧
      (l.Within (m.store.alloc v).1 ∨ q.Within (m.store.alloc v).1)
  | .set r v => ∃ l q, (m.step (.set r v)).store.Chain l q ∧ (l.Within r ∨ q.Within r)
  | .refer _ | .zero _ => False

theorem run_append (m : StoreSession) (before after : List StoreCommand) :
    m.run (before ++ after) = (m.run before).run after :=
  List.foldl_append

/-- The later commands have to satisfy it where the earlier ones have led. -/
theorem along_append {P : StoreSession → StoreCommand → Prop} {after : List StoreCommand} :
    m.Along P (before ++ after) ↔ m.Along P before ∧ (m.run before).Along P after := by
  induction before generalizing m with
  | nil => simp [Along, run]
  | cons c rest ih =>
    rw [List.cons_append, Along, Along, ih, and_assoc]
    rfl

/-- Along a run means at every command, after those before it. -/
theorem along_iff {P : StoreSession → StoreCommand → Prop} :
    m.Along P commands ↔
      ∀ before c after, commands = before ++ c :: after → P (m.run before) c := by
  constructor
  · rintro h before c after rfl
    exact (along_append.mp h).2.1
  · intro h
    induction commands generalizing m with
    | nil => trivial
    | cons c rest ih =>
      refine ⟨h [] c rest rfl, ih fun before c' after hrest => ?_⟩
      exact h (c :: before) c' after (by rw [hrest, List.cons_append])

/-- What every command of a run keeps, the run keeps. -/
theorem Along.keeps {P : StoreSession → StoreCommand → Prop} {I : StoreSession → Prop}
    (h : m.Along P commands) (hstep : ∀ m c, I m → P m c → I (m.step c)) (hm : I m) :
    I (m.run commands) := by
  induction commands generalizing m with
  | nil => exact hm
  | cons c rest ih => exact ih h.2 (hstep m c hm h.1)

/-- **One command and the chains.**  Only a command that stores a value makes a
chain, and only one that begins or ends in the place. -/
theorem unchained_step_iff (hm : m.store.Unchained) :
    (m.step c).store.Unchained ↔ ¬ m.Links c := by
  constructor
  · intro h hlinks
    cases c with
    | alloc v | set r v =>
      obtain ⟨l, q, hchain, _⟩ := hlinks
      exact h l q hchain
    | refer | zero => exact hlinks
  · intro hlinks
    cases c with
    | refer r =>
      simp only [step]
      split <;> exact hm
    | alloc v =>
      intro l q hchain
      have hputs := ValueStore.puts_alloc m.store v
      by_cases hplace : l.Within (m.store.alloc v).1 ∨ q.Within (m.store.alloc v).1
      · exact hlinks ⟨l, q, hchain, hplace⟩
      · obtain ⟨hl, hq⟩ := not_or.mp hplace
        exact hm l q ((hputs.chain_outside hl hq).mp hchain)
    | set r v =>
      intro l q hchain
      by_cases hplace : l.Within r ∨ q.Within r
      · exact hlinks ⟨l, q, hchain, hplace⟩
      · obtain ⟨hl, hq⟩ := not_or.mp hplace
        simp only [step] at hchain
        split at hchain
        next s hset => exact hm l q (((ValueStore.puts_set hset).chain_outside hl hq).mp hchain)
        next => exact hm l q hchain
    | zero r =>
      simp only [step]
      split
      next s hzero => exact hm.zero hzero
      next => exact hm

/-- The references held are among those made or null, and no reference that was
made names a reference now. -/
structure Sound (m : StoreSession) : Prop where
  held : ∀ l q, m.store.get? l = some (.reference q) → q ∈ m.made ∨ q = .null
  placed : ∀ q ∈ m.made, ∃ slot, q.slot = some slot ∧ slot < m.store.size
  plain : ∀ q ∈ m.made, ¬ m.store.HoldsReference q

/-- An empty store holds no references, and none was made. -/
theorem sound_start : start.Sound where
  held l q h := by simp [start, ValueStore.empty, ValueStore.get?] at h
  placed q hq := by cases hq
  plain q hq := by cases hq

/-- No chains are held where no reference that was made names a reference. -/
theorem Sound.unchained (h : m.Sound) : m.store.Unchained := by
  rintro l q ⟨hl, hq⟩
  rcases h.held l q hl with hmade | rfl
  · exact h.plain q hmade hq
  · obtain ⟨t, ht⟩ := hq
    cases ht

/-- What a value is put in keeps sound, if the references in the value are known
and no reference made before leads to one of them. -/
theorem Sound.puts {s : ValueStore} {r : ValueRef} {v : Value} (h : m.Sound)
    (hputs : m.store.Puts r v s)
    (hv : ∀ path q, part? path v = some (.reference q) → q ∈ m.made ∨ q = .null)
    (hplace : ∀ path t, part? path v = some (.reference t) → r.extend path ∉ m.made) :
    Sound { m with store := s } := by
  refine ⟨hputs.held h.held hv, fun q hq => ?_, fun q hq hholds => ?_⟩
  · obtain ⟨slot, hslot, hlt⟩ := h.placed q hq
    exact ⟨slot, hslot, Nat.lt_of_lt_of_le hlt hputs.size⟩
  · by_cases hwithin : q.Within r
    · obtain ⟨path, rfl⟩ := hwithin
      obtain ⟨t, ht⟩ := (hputs.holdsReference_within path).mp hholds
      exact hplace path t ht hq
    · exact h.plain q hq ((hputs.holdsReference_outside hwithin).mp hholds)

/-- **One fair and guarded command.**  No reference that was made comes to name
a reference. -/
theorem Sound.step (h : m.Sound) (fair : m.Fair c) (guarded : m.Guarded c) : (m.step c).Sound := by
  cases c with
  | refer r =>
    simp only [StoreSession.step]
    split
    next value hmake =>
      obtain ⟨hplaced, hplain⟩ := ValueStore.plain_of_reference hmake
      refine ⟨fun l q hl => ?_, List.forall_mem_cons.mpr ⟨hplaced, h.placed⟩,
        List.forall_mem_cons.mpr ⟨hplain, h.plain⟩⟩
      exact (h.held l q hl).imp_left (List.mem_cons_of_mem r)
    next => exact h
  | alloc v =>
    refine h.puts (ValueStore.puts_alloc m.store v)
      (fun path q hq => fair q (Value.mem_references_of_part? hq)) fun path t _ hmade => ?_
    -- What was made leads to a slot that was there before.
    obtain ⟨slot, hslot, hlt⟩ := h.placed _ hmade
    cases hslot
    exact Nat.lt_irrefl _ hlt
  | set r v =>
    simp only [StoreSession.step]
    split
    next s hset =>
      have hresolves : (m.store.get? r).isSome := by
        rw [← ValueStore.isSome_set? m.store r v, ValueStore.set_eq_ok.mp hset, Option.isSome_some]
      exact h.puts (ValueStore.puts_set hset)
        (fun path q hq => fair q (Value.mem_references_of_part? hq)) (guarded hresolves)
    next => exact h
  | zero r =>
    simp only [StoreSession.step]
    split
    next s hzero =>
      obtain ⟨old, hold, hputs⟩ := ValueStore.puts_zero hzero
      refine h.puts hputs (fun path q hq => ?_) fun path t ht hmade => ?_
      · exact .inr (Value.part?_zeroed_eq_reference hq).1
      · obtain ⟨_, t', ht'⟩ := Value.part?_zeroed_eq_reference ht
        exact h.plain _ hmade ⟨t', by rw [ValueStore.get?_extend, hold, Option.bind_some, ht']⟩
    next => exact h

/-- **When references chain.**  In every fair run:

* no reference made ever names a reference if and only if no assignment of the
  run puts a reference where a reference made before leads;
* every state is without chains if and only if no command that stores a value
  leaves a chain that begins or ends in the place stored to;
* where all assignments are guarded, every state is without chains. -/
theorem references_chain_iff (commands : List StoreCommand) (fair : start.Along Fair commands) :
    ((∀ before after, commands = before ++ after →
        ∀ q ∈ (start.run before).made, ¬ (start.run before).store.HoldsReference q) ↔
      start.Along Guarded commands) ∧
    ((∀ before after, commands = before ++ after → (start.run before).store.Unchained) ↔
      start.Along (fun m c => ¬ m.Links c) commands) ∧
    (start.Along Guarded commands →
      ∀ before after, commands = before ++ after → (start.run before).store.Unchained) := by
  have hsound : start.Along Guarded commands →
      ∀ before after, commands = before ++ after → (start.run before).Sound := by
    rintro guarded before after rfl
    have hboth : start.Along (fun m c => m.Fair c ∧ m.Guarded c) before := by
      refine along_iff.mpr fun before' c after' hbefore => ⟨?_, ?_⟩
      · exact along_iff.mp (along_append.mp fair).1 before' c after' hbefore
      · exact along_iff.mp (along_append.mp guarded).1 before' c after' hbefore
    exact hboth.keeps (fun m c h hc => h.step hc.1 hc.2) sound_start
  refine ⟨⟨fun hplain => ?_,
      fun guarded before after heq => (hsound guarded before after heq).plain⟩,
    ⟨fun hun => ?_, fun hlinks => ?_⟩,
    fun guarded before after heq => (hsound guarded before after heq).unchained⟩
  · refine along_iff.mpr fun before c after heq => ?_
    cases c with
    | set r v =>
      intro hresolves path t ht hmade
      rw [← ValueStore.isSome_set? _ r v] at hresolves
      obtain ⟨s, hs⟩ := Option.isSome_iff_exists.mp hresolves
      have hset := ValueStore.set_eq_ok.mpr hs
      have hnext : start.run (before ++ [.set r v]) = { start.run before with store := s } := by
        rw [run_append]
        simp only [run, List.foldl_cons, List.foldl_nil, step] at hset ⊢
        rw [hset]
      have hplain' := hplain (before ++ [.set r v]) after (by rw [heq, List.append_assoc]; rfl)
      rw [hnext] at hplain'
      have hholds := ((ValueStore.puts_set hset).holdsReference_within path).mpr ⟨t, ht⟩
      exact hplain' _ hmade hholds
    | refer | alloc | zero => trivial
  · refine along_iff.mpr fun before c after heq => ?_
    rw [← unchained_step_iff (hun before (c :: after) heq)]
    have hnext := hun (before ++ [c]) after (by rw [heq, List.append_assoc]; rfl)
    rwa [run_append] at hnext
  · rintro before after rfl
    refine (along_append.mp hlinks).1.keeps (I := fun m => m.store.Unchained)
      (fun m c hm hc => (unchained_step_iff hm).mpr hc) sound_start.unchained

/-- A pair and a reference to its second part; then the pair's first part
becomes a reference too. -/
def pairRun : List StoreCommand :=
  [.alloc (.aggregate .tuple [.integer 5, .integer 6]), .refer ⟨some 0, [1]⟩,
    .alloc (.reference ⟨some 0, [1]⟩), .set ⟨some 0, [0]⟩ (.reference ⟨some 0, [1]⟩),
    .zero ⟨some 0, [1]⟩]

/-- The run is fair, no assignment in it hits a reference made before, and no
chain comes up. -/
theorem references_chain_iff_pairRun :
    start.Along Fair pairRun ∧
      ∀ before after, pairRun = before ++ after → (start.run before).store.Unchained := by
  have fair : start.Along Fair pairRun := by decide
  have guarded : start.Along Guarded pairRun := by
    refine ⟨trivial, trivial, trivial, fun _ path t _ hmade => ?_, trivial, trivial⟩
    -- The only reference made leads to the second part.
    exact absurd (List.mem_singleton.mp hmade) (by simp [ValueRef.extend])
  exact ⟨fair, (references_chain_iff pairRun fair).2.2 guarded⟩

/-- A number, a reference to it and another number; then the first number is
overwritten with a reference to the second. -/
def overwrittenRun : List StoreCommand :=
  [.alloc (.integer 5), .refer ⟨some 0, []⟩, .alloc (.reference ⟨some 0, []⟩), .alloc (.integer 7),
    .refer ⟨some 2, []⟩, .set ⟨some 0, []⟩ (.reference ⟨some 2, []⟩)]

/-- **Assignment is not checked.**  References come to chain in a fair run. -/
theorem assignment_chains :
    start.Along Fair overwrittenRun ∧
      (start.run overwrittenRun).store.Chain ⟨some 1, []⟩ ⟨some 0, []⟩ := by
  exact ⟨by decide, rfl, ⟨some 2, []⟩, rfl⟩

end StoreSession

end TermGraph
