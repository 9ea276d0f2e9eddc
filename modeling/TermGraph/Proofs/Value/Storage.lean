import TermGraph.Handle
import TermGraph.Proofs.Value.Paths

/-!
# Reading after writing

What a store answers after a value was assigned through a reference or stored
in a new slot.  Two references stand to each other in one of three ways: one
leads into what the other names (`ValueRef.extend`), the other way round, or
they lie apart (`ValueRef.Apart`).  For each the laws tell what is read:

* an assignment changes what the reference itself and references into it read,
  replaces one part of the aggregates around it and leaves all the rest
  (`ValueStore.Assigned`);
* a new slot changes nothing that could be read before (`ValueStore.Allocated`).

`ValueStore.storage_laws` collects them.  The laws of one slot are those of the
paths in its value (`Value.Replaces`).
-/

namespace TermGraph

namespace ValueRef

variable {q r : ValueRef}

/-- The reference to the part at the end of a path in what a reference names. -/
def extend (r : ValueRef) (path : List Nat) : ValueRef := { r with path := r.path ++ path }

/-- Neither reference leads into what the other names. -/
def Apart (q r : ValueRef) : Prop :=
  q.slot ≠ r.slot ∨ (¬ r.path <+: q.path ∧ ¬ q.path <+: r.path)

/-- The empty path leads to what the reference names. -/
@[simp] theorem extend_nil (r : ValueRef) : r.extend [] = r := by
  simp [extend]

/-- The reference to an element goes one step further. -/
theorem element_eq_extend (r : ValueRef) (i : Nat) : r.element i = r.extend [i] := rfl

/-- How two references can stand to each other. -/
theorem extend_or_apart (q r : ValueRef) :
    (∃ path, q = r.extend path) ∨ (∃ path, path ≠ [] ∧ r = q.extend path) ∨ q.Apart r := by
  obtain ⟨slot, p⟩ := q
  obtain ⟨slot', p'⟩ := r
  by_cases hslot : slot = slot'
  · subst hslot
    by_cases hbelow : p' <+: p
    · obtain ⟨path, rfl⟩ := hbelow
      exact .inl ⟨path, rfl⟩
    · by_cases habove : p <+: p'
      · obtain ⟨path, rfl⟩ := habove
        refine .inr (.inl ⟨path, ?_, rfl⟩)
        rintro rfl
        exact hbelow (by simp)
      · exact .inr (.inr (.inr ⟨hbelow, habove⟩))
  · exact .inr (.inr (.inl hslot))

end ValueRef

namespace ValueStore

open Value (Replaces part?)

variable {s s' : ValueStore} {q r : ValueRef} {v w x : Value}

/-- A reference reads the part of its slot to which its path leads. -/
theorem get?_eq_some :
    s.get? r = some x ↔
      ∃ slot whole, r.slot = some slot ∧ s.slots[slot]? = some whole ∧
        part? r.path whole = some x := by
  simp [get?, Option.bind_eq_some_iff]

/-- An assignment replaces a part of one slot. -/
theorem set?_eq_some :
    s.set? r v = some s' ↔
      ∃ slot old new, r.slot = some slot ∧ s.slots[slot]? = some old ∧
        Replaces v r.path old new ∧ s' = ⟨s.slots.setIfInBounds slot new⟩ := by
  simp only [set?, Option.bind_eq_bind, Option.bind_eq_some_iff, Option.pure_def, Option.some.injEq,
    Value.setPart?_eq_some_iff]
  constructor
  · rintro ⟨slot, hslot, old, hold, new, hnew, rfl⟩
    exact ⟨slot, old, new, hslot, hold, hnew, rfl⟩
  · rintro ⟨slot, old, new, hslot, hold, hnew, rfl⟩
    exact ⟨slot, hslot, old, hold, new, hnew, rfl⟩

/-- To read through an extended reference is to read inside what the reference
names. -/
theorem get?_extend (s : ValueStore) (r : ValueRef) (path : List Nat) :
    s.get? (r.extend path) = (s.get? r).bind (part? path) := by
  cases hslot : r.slot with
  | none => simp [get?, ValueRef.extend, hslot]
  | some slot =>
    cases h : s.slots[slot]? <;> simp [get?, ValueRef.extend, hslot, h, Value.part?_append]

/-- The element of an aggregate is read through the extended reference, and
nothing else is. -/
theorem get?_element (s : ValueStore) (r : ValueRef) (i : Nat) :
    s.get? (r.element i) = some x ↔
      ∃ shape elems, s.get? r = some (.aggregate shape elems) ∧ elems[i]? = some x := by
  rw [ValueRef.element_eq_extend, get?_extend, Option.bind_eq_some_iff]
  constructor
  · rintro ⟨v, hv, hpart⟩
    obtain ⟨shape, elems, u, rfl, hu, hx⟩ := Value.part?_cons_eq_some.mp hpart
    rw [Value.part?_nil] at hx
    cases hx
    exact ⟨shape, elems, hv, hu⟩
  · rintro ⟨shape, elems, hv, hx⟩
    exact ⟨_, hv, Value.part?_cons_eq_some.mpr ⟨shape, elems, x, rfl, hx, Value.part?_nil x⟩⟩

/-- A null reference names nothing, whatever its path, as long as no slot has the
number that stands for none. -/
theorem get?_null (hsize : s.size < Handle.noIndex)
    (hnull : r.slot.getD Handle.noIndex = Handle.noIndex) : s.get? r = none := by
  cases hslot : r.slot with
  | none => simp [get?, hslot]
  | some slot =>
    have heq : slot = Handle.noIndex := by simpa [hslot] using hnull
    have hnone : s.slots[slot]? = none := Array.getElem?_eq_none (by unfold size at hsize; omega)
    simp [get?, hslot, hnone]

/-- A reference can be assigned through where it can be read through. -/
theorem isSome_set? (s : ValueStore) (r : ValueRef) (v : Value) :
    (s.set? r v).isSome = (s.get? r).isSome := by
  rw [Bool.eq_iff_iff, Option.isSome_iff_exists, Option.isSome_iff_exists]
  constructor
  · rintro ⟨s', h⟩
    obtain ⟨slot, old, new, hslot, hold, hnew, _⟩ := set?_eq_some.mp h
    obtain ⟨y, hy⟩ := Value.exists_replaces_iff.mp ⟨new, hnew⟩
    exact ⟨y, get?_eq_some.mpr ⟨slot, old, hslot, hold, hy⟩⟩
  · rintro ⟨y, h⟩
    obtain ⟨slot, old, hslot, hold, hy⟩ := get?_eq_some.mp h
    obtain ⟨new, hnew⟩ := (Value.exists_replaces_iff (x := v)).mpr ⟨y, hy⟩
    exact ⟨_, set?_eq_some.mpr ⟨slot, old, new, hslot, hold, hnew, rfl⟩⟩

/-- To write what was read leaves the store as it is: reading and writing reach
the same part. -/
theorem set?_get? (h : s.get? r = some x) : s.set? r x = some s := by
  obtain ⟨slot, whole, hslot, hwhole, hpart⟩ := get?_eq_some.mp h
  refine set?_eq_some.mpr ⟨slot, whole, whole, hslot, hwhole, Value.replaces_self hpart, ?_⟩
  obtain ⟨hlt, rfl⟩ := Array.getElem?_eq_some_iff.mp hwhole
  rw [Array.setIfInBounds_def, dif_pos hlt, Array.set_getElem_self]

/-- To assign fails only where a reference leads nowhere. -/
theorem set_eq_ok : s.set r v = .ok s' ↔ s.set? r v = some s' := by
  unfold set
  cases s.set? r v <;> simp

/-- To zero is to assign what was read, zeroed. -/
theorem zero_eq_ok :
    s.zero r = .ok s' ↔ ∃ old, s.get? r = some old ∧ s.set? r old.zeroed = some s' := by
  unfold zero update get
  cases s.get? r with
  | none => exact ⟨nofun, nofun⟩
  | some old =>
    refine ⟨fun h => ⟨old, rfl, set_eq_ok.mp h⟩, ?_⟩
    rintro ⟨_, ⟨⟩, hset⟩
    exact set_eq_ok.mpr hset

/-- What a store answers after `v` was assigned through `r`. -/
structure Assigned (s : ValueStore) (r : ValueRef) (v : Value) (s' : ValueStore) : Prop where
  size : s'.size = s.size
  /-- The reference reads the value, and references into it its parts. -/
  within : ∀ path, s'.get? (r.extend path) = part? path v
  apart : ∀ q : ValueRef, q.Apart r → s'.get? q = s.get? q
  /-- The aggregates around keep shape and length, and one part is replaced. -/
  around : ∀ q path, path ≠ [] → r = q.extend path →
    ∃ shape before after,
      s.get? q = some (.aggregate shape before) ∧ s'.get? q = some (.aggregate shape after) ∧
        after.length = before.length ∧
        Replaces v path (.aggregate shape before) (.aggregate shape after)

/-- An assignment that succeeds changes what the store answers as it should. -/
theorem assigned_of_set? (h : s.set? r v = some s') : s.Assigned r v s' := by
  obtain ⟨slot, old, new, hslot, hold, hreplaces, rfl⟩ := set?_eq_some.mp h
  have hlt : slot < s.slots.size := (Array.getElem?_eq_some_iff.mp hold).1
  have hnew : (s.slots.setIfInBounds slot new)[slot]? = some new := by simp [hlt]
  refine ⟨by simp [size], fun path => ?_, fun q hq => ?_, fun q path hpath hr => ?_⟩
  · have hitself : get? ⟨s.slots.setIfInBounds slot new⟩ r = some v :=
      get?_eq_some.mpr ⟨slot, new, hslot, hnew, hreplaces.part?_new⟩
    rw [get?_extend, hitself, Option.bind_some]
  · by_cases hsame : q.slot = some slot
    · obtain ⟨hbelow, habove⟩ := hq.resolve_left (by simp [hsame, hslot])
      simp [get?, hsame, hold, hnew, hreplaces.part?_apart hbelow habove]
    · cases hq' : q.slot with
      | none => simp [get?, hq']
      | some other =>
        have hother : slot ≠ other := by
          rintro rfl
          exact hsame hq'
        simp [get?, hq', Array.getElem?_setIfInBounds_ne hother]
  · subst hr
    obtain ⟨o, n, ho, hn, hrest⟩ := hreplaces.part?_above
    obtain ⟨shape, before, after, rfl, rfl, hlength⟩ := hrest.around hpath
    exact ⟨shape, before, after, get?_eq_some.mpr ⟨slot, old, hslot, hold, ho⟩,
      get?_eq_some.mpr ⟨slot, new, hslot, hnew, hn⟩, hlength, hrest⟩

/-- What a store answers after `v` was stored in a new slot, which `r` names. -/
structure Allocated (s : ValueStore) (v : Value) (r : ValueRef) (s' : ValueStore) : Prop where
  size : s'.size = s.size + 1
  within : ∀ path, s'.get? (r.extend path) = part? path v
  kept : ∀ q x, s.get? q = some x → s'.get? q = some x
  /-- Neither the reference nor one into it named anything when the store was
  no larger than before. -/
  fresh : ∀ earlier : ValueStore, earlier.size ≤ s.size → ∀ path,
    earlier.get? (r.extend path) = none

/-- A new slot changes what the store answers as it should. -/
theorem allocated_alloc (s : ValueStore) (v : Value) :
    s.Allocated v (s.alloc v).1 (s.alloc v).2 := by
  refine ⟨by simp [alloc, size], fun path => ?_, fun q x hq => ?_, fun earlier hsize path => ?_⟩
  · simp [get?, alloc, ValueRef.extend]
  · obtain ⟨slot, whole, hslot, hwhole, hx⟩ := get?_eq_some.mp hq
    have hlt : slot < s.slots.size := (Array.getElem?_eq_some_iff.mp hwhole).1
    have hlater : (s.slots.push v)[slot]? = some whole := by
      rw [Array.getElem?_push_lt hlt, ← hwhole, Array.getElem?_eq_getElem hlt]
    exact get?_eq_some.mpr ⟨slot, whole, hslot, hlater, hx⟩
  · have hnone : earlier.slots[s.slots.size]? = none := Array.getElem?_eq_none hsize
    simp [get?, alloc, ValueRef.extend, hnone]

/-- **Reading after writing.**  For every store that a slot can still be added
to, every reference and every value: the reference can be read through exactly
where it can be assigned through, and both reach the same part; an extended
reference reads an element of an aggregate; a null reference names nothing, and
the reference to a new slot is not null; and assignments and new slots change
what is read as `Assigned` and `Allocated` tell. -/
theorem storage_laws (s : ValueStore) (hsize : s.size < Handle.noIndex) (r : ValueRef) (v : Value) :
    (s.get? r).isSome = (s.set? r v).isSome ∧
      (∀ x, s.get? r = some x → s.set? r x = some s) ∧
      (∀ i x, s.get? (r.element i) = some x ↔
        ∃ shape elems, s.get? r = some (.aggregate shape elems) ∧ elems[i]? = some x) ∧
      (r.slot.getD Handle.noIndex = Handle.noIndex → s.get? r = none) ∧
      (∀ s', s.set? r v = some s' → s.Assigned r v s') ∧
      (s.alloc v).1.slot.getD Handle.noIndex ≠ Handle.noIndex ∧
      s.Allocated v (s.alloc v).1 (s.alloc v).2 := by
  exact ⟨(isSome_set? s r v).symm, fun x => set?_get?, fun i x => get?_element s r i,
    get?_null hsize, fun s' => assigned_of_set?, Nat.ne_of_lt hsize, allocated_alloc s v⟩

/-- A pair of which the second part is an array of two numbers. -/
def nested : ValueStore :=
  ⟨#[.integer 1, .aggregate .tuple [.integer 2, .aggregate .array [.integer 3, .integer 4]]]⟩

/-- An array inside a pair is replaced by one without elements. -/
theorem storage_laws_nested :
    nested.size < Handle.noIndex ∧
      ∃ s', nested.set? ⟨some 1, [1, 0]⟩ (.aggregate .dynarray []) = some s' ∧
        nested.Assigned ⟨some 1, [1, 0]⟩ (.aggregate .dynarray []) s' := by
  obtain ⟨hdefined, _, _, _, hassigned, _⟩ :=
    storage_laws nested (by decide) ⟨some 1, [1, 0]⟩ (.aggregate .dynarray [])
  have hsome : (nested.set? ⟨some 1, [1, 0]⟩ (.aggregate .dynarray [])).isSome := by
    rw [← hdefined]
    rfl
  obtain ⟨s', hs'⟩ := Option.isSome_iff_exists.mp hsome
  exact ⟨by decide, s', hs', hassigned s' hs'⟩

end ValueStore

end TermGraph
