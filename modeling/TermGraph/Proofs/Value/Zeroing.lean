import TermGraph.Proofs.Value.Storage

/-!
# Zeroing

To zero a value resets its leaves and leaves its shape alone, so a path leads
as far in the zeroed value as in the value itself, and to the zeroed part.  How
a part compares with what it was is told by `Value.Reset`, one part at a time:
the kind and the length stay, and a payload is zero.

In a store the same is seen through references.  Those that lead into the place
find zeroed parts, those to the aggregates around it find the shape unchanged,
and all others find what they found before (`ValueStore.Zeroes`); so a
reference names something afterwards where it did before.
-/

namespace TermGraph

/-- To change leaves by `f` and then by `g`. -/
def LeafMap.after (g f : LeafMap) : LeafMap where
  integer n := g.integer (f.integer n)
  float x := g.float (f.float x)
  function d := g.function (f.function d)
  reference r := g.reference (f.reference r)

namespace Value

variable {v w : Value}

mutual

/-- To change leaves twice is to change them once, by both maps. -/
theorem mapLeaves_mapLeaves (g f : LeafMap) (v : Value) :
    (v.mapLeaves f).mapLeaves g = v.mapLeaves (g.after f) := by
  cases v with
  | aggregate shape elems =>
    simp only [mapLeaves]
    rw [mapLeavesAll_mapLeavesAll g f elems]
  | _ => rfl

/-- To change the leaves of all values twice is to change them once, by both
maps. -/
theorem mapLeavesAll_mapLeavesAll (g f : LeafMap) (vs : List Value) :
    mapLeavesAll g (mapLeavesAll f vs) = mapLeavesAll (g.after f) vs := by
  cases vs with
  | nil => rfl
  | cons v vs =>
    simp only [mapLeavesAll]
    rw [mapLeaves_mapLeaves g f v, mapLeavesAll_mapLeavesAll g f vs]

end

/-- There are as many values as before. -/
theorem length_mapLeavesAll (f : LeafMap) (vs : List Value) :
    (mapLeavesAll f vs).length = vs.length := by
  induction vs with
  | nil => rfl
  | cons v vs ih => simp only [mapLeavesAll, List.length_cons, ih]

/-- What was reset stays as it is. -/
theorem zeroed_zeroed (v : Value) : v.zeroed.zeroed = v.zeroed :=
  mapLeaves_mapLeaves zeroing zeroing v

/-- To zero a value zeroes its parts, and leads no path elsewhere. -/
theorem part?_zeroed (path : List Nat) (v : Value) :
    part? path v.zeroed = (part? path v).map zeroed :=
  part?_mapLeaves zeroing path v

/-- The payload of a value is zero: zero itself, with a positive sign, no
function, and no slot and no path.  Aggregates and errors have no payload of
their own. -/
def HasZeroPayload : Value → Prop
  | .error => True
  | .integer n => n = 0
  | .float x => x.bits = 0
  | .function d => d = .invalid
  | .reference r => r.slot = none ∧ r.path = []
  | .aggregate _ _ => True

/-- The value `w` is `v` reset, as far as can be seen without looking into
elements: it has the kind of `v`, the length if `v` is an aggregate, and a
payload that is zero. -/
structure Reset (v w : Value) : Prop where
  kind : w.kind = v.kind
  length : w.elements?.map List.length = v.elements?.map List.length
  payload : w.HasZeroPayload

/-- A zeroed value is the value reset. -/
theorem reset_zeroed (v : Value) : v.Reset v.zeroed where
  kind := by cases v <;> rfl
  length := by
    cases v with
    | aggregate shape elems => exact congrArg some (length_mapLeavesAll zeroing elems)
    | _ => rfl
  payload := by
    cases v with
    | reference => exact ⟨rfl, rfl⟩
    | error | aggregate => trivial
    | _ => rfl

/-- An error comes of an error, and of nothing else. -/
theorem Reset.isError (h : v.Reset w) : w.isError = v.isError := by
  have hkind := h.kind
  cases v <;> cases w <;> first | rfl | cases hkind

end Value

namespace ValueStore

open Value (part? Reset)

variable {s s' : ValueStore} {q r : ValueRef} {old : Value}

/-- What a store answers after the value that `r` names was zeroed. -/
structure Zeroes (s : ValueStore) (r : ValueRef) (s' : ValueStore) : Prop where
  size : s'.size = s.size
  /-- References lead somewhere where they did before. -/
  resolves : ∀ q, (s'.get? q).isSome = (s.get? q).isSome
  /-- The reference and those into it read what was there, zeroed. -/
  within : ∀ path, s'.get? (r.extend path) = (s.get? (r.extend path)).map Value.zeroed
  /-- Around the place aggregates keep shape and length. -/
  around : ∀ q path, path ≠ [] → r = q.extend path →
    ∃ shape before after, s.get? q = some (.aggregate shape before) ∧
      s'.get? q = some (.aggregate shape after) ∧ after.length = before.length
  apart : ∀ q : ValueRef, q.Apart r → s'.get? q = s.get? q
  /-- No other slot changes. -/
  slots : ∀ i, r.slot ≠ some i → s'.slots[i]? = s.slots[i]?

/-- A whole slot is what the reference without a path reads. -/
theorem get?_slot (s : ValueStore) (i : Nat) : s.get? ⟨some i, []⟩ = s.slots[i]? := by
  cases h : s.slots[i]? <;> simp [get?, h]

/-- Assigning the zeroed value zeroes the place. -/
theorem Assigned.zeroes (h : s.Assigned r old.zeroed s') (hold : s.get? r = some old) :
    s.Zeroes r s' := by
  have hwithin : ∀ path, s'.get? (r.extend path) = (s.get? (r.extend path)).map Value.zeroed := by
    intro path
    rw [h.within, get?_extend, hold, Option.bind_some, Value.part?_zeroed]
  have haround : ∀ q path, path ≠ [] → r = q.extend path →
      ∃ shape before after, s.get? q = some (.aggregate shape before) ∧
        s'.get? q = some (.aggregate shape after) ∧ after.length = before.length := by
    intro q path hpath hr
    obtain ⟨shape, before, after, hbefore, hafter, hlength, _⟩ := h.around q path hpath hr
    exact ⟨shape, before, after, hbefore, hafter, hlength⟩
  refine ⟨h.size, fun q => ?_, hwithin, haround, h.apart, fun i hi => ?_⟩
  · rcases ValueRef.extend_or_apart q r with ⟨path, rfl⟩ | ⟨path, hpath, hr⟩ | hapart
    · rw [hwithin, Option.isSome_map]
    · obtain ⟨shape, before, after, hbefore, hafter, _⟩ := haround q path hpath hr
      rw [hbefore, hafter, Option.isSome_some, Option.isSome_some]
    · rw [h.apart q hapart]
  · rw [← get?_slot, ← get?_slot]
    exact h.apart ⟨some i, []⟩ (.inl (Ne.symm hi))

/-- To zero what a reference names succeeds where it names something. -/
theorem exists_zero_iff (s : ValueStore) (r : ValueRef) :
    (∃ s', s.zero r = .ok s') ↔ (s.get? r).isSome := by
  constructor
  · rintro ⟨s', h⟩
    obtain ⟨old, hold, _⟩ := zero_eq_ok.mp h
    rw [hold, Option.isSome_some]
  · intro h
    obtain ⟨old, hold⟩ := Option.isSome_iff_exists.mp h
    rw [← isSome_set? s r old.zeroed] at h
    obtain ⟨s', hset⟩ := Option.isSome_iff_exists.mp h
    exact ⟨s', zero_eq_ok.mpr ⟨old, hold, hset⟩⟩

/-- To zero what a reference names zeroes it. -/
theorem zeroes_of_zero (h : s.zero r = .ok s') : s.Zeroes r s' := by
  obtain ⟨old, hold, hset⟩ := zero_eq_ok.mp h
  exact (assigned_of_set? hset).zeroes hold

end ValueStore

/-- **Zeroing keeps the shape.**  For every value:

* a path leads somewhere in the zeroed value exactly where it does in the value,
  and the part found is the zeroing of the part found in the value: of the same
  kind and the same length, with a payload that is zero, and an error if and
  only if it was one;
* to zero a second time changes nothing;
* in every store, to zero what a reference names succeeds if it names something;
  then every reference leads somewhere where it did before, the places in what
  was zeroed read as just told, and no other slot changes. -/
theorem Value.zeroing_keeps_shape (v : Value) :
    (∀ path, part? path v.zeroed = (part? path v).map zeroed) ∧
      (∀ path, (part? path v.zeroed).isSome = (part? path v).isSome) ∧
      (∀ path x, part? path v = some x →
        ∃ y, part? path v.zeroed = some y ∧ y = x.zeroed ∧ x.Reset y ∧ y.isError = x.isError) ∧
      v.zeroed.zeroed = v.zeroed ∧
      ∀ (s : ValueStore) (r : ValueRef),
        ((∃ s', s.zero r = .ok s') ↔ (s.get? r).isSome) ∧
          ∀ s', s.zero r = .ok s' → s.Zeroes r s' := by
  refine ⟨fun path => part?_zeroed path v, fun path => ?_, fun path x hx => ?_, zeroed_zeroed v,
    fun s r => ⟨s.exists_zero_iff r, fun s' => ValueStore.zeroes_of_zero⟩⟩
  · rw [part?_zeroed, Option.isSome_map]
  · refine ⟨x.zeroed, ?_, rfl, reset_zeroed x, (reset_zeroed x).isError⟩
    rw [part?_zeroed, hx, Option.map_some]

/-- A tuple of a number, an array of a reference and a negative zero, and an
error. -/
example : (Value.aggregate .tuple [.integer 9,
      .aggregate .dynarray [.reference ⟨some 3, [1]⟩, .float ⟨0x8000000000000000⟩], .error]).zeroed =
    .aggregate .tuple [.integer 0, .aggregate .dynarray [.reference .null, .float .zero], .error] :=
  rfl

end TermGraph
