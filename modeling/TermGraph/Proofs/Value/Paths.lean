import TermGraph.Value.Store

/-!
# Parts of values

A path leads to a part of a value, one element of an aggregate at a time.
`Value.Replaces x path old new` says what it is to put `x` in the place of that
part: at the end of the path stands `x`, and on the way there every aggregate
has one element replaced and is otherwise as before.

The two walks along a path agree.  A part is found where a part can be put
(`Value.exists_replaces_iff`), and what is put there is what `setPart?` computes
(`Value.setPart?_eq_some_iff`).  From the relation follow the laws of reading
after writing: at the place itself, at places that lie apart from it, and at
the aggregates around it.
-/

namespace TermGraph

namespace Value

variable {v x old new : Value} {shape : Shape} {elems : List Value} {i : Nat} {p q path : List Nat}

/-- The empty path leads to the value itself. -/
@[simp] theorem part?_nil (v : Value) : part? [] v = some v := by
  cases v <;> rfl

/-- A path into an aggregate goes on from one of its elements. -/
@[simp] theorem part?_aggregate (shape : Shape) (elems : List Value) (i : Nat) (path : List Nat) :
    part? (i :: path) (.aggregate shape elems) = elems[i]?.bind (part? path) := rfl

/-- A path goes on only through the elements of an aggregate. -/
theorem part?_cons_eq_some :
    part? (i :: path) v = some x ↔
      ∃ shape elems u, v = .aggregate shape elems ∧ elems[i]? = some u ∧ part? path u = some x := by
  cases v with
  | aggregate shape elems =>
    rw [part?_aggregate, Option.bind_eq_some_iff]
    constructor
    · rintro ⟨u, hu, hpart⟩
      exact ⟨shape, elems, u, rfl, hu, hpart⟩
    · rintro ⟨_, _, u, ⟨rfl, rfl⟩, hu, hpart⟩
      exact ⟨u, hu, hpart⟩
  | _ => simp [part?]

/-- One path after another leads to a part of a part. -/
theorem part?_append (p q : List Nat) (v : Value) :
    part? (p ++ q) v = (part? p v).bind (part? q) := by
  induction p generalizing v with
  | nil => simp
  | cons i p ih =>
    cases v with
    | aggregate shape elems => cases h : elems[i]? <;> simp [h, ih]
    | _ => rfl

/-- The leaves of every element are changed alike. -/
theorem getElem?_mapLeavesAll (f : LeafMap) (elems : List Value) (i : Nat) :
    (mapLeavesAll f elems)[i]? = elems[i]?.map (mapLeaves f) := by
  induction elems generalizing i with
  | nil => rfl
  | cons v vs ih => cases i <;> simp [mapLeavesAll, ih]

/-- To change the leaves of a value changes the leaves of its parts. -/
theorem part?_mapLeaves (f : LeafMap) (path : List Nat) (v : Value) :
    part? path (v.mapLeaves f) = (part? path v).map (mapLeaves f) := by
  induction path generalizing v with
  | nil => simp
  | cons i path ih =>
    cases v with
    | aggregate shape elems =>
      rw [mapLeaves, part?_aggregate, part?_aggregate, getElem?_mapLeavesAll]
      cases elems[i]? <;> simp [ih]
    | _ => rfl

/-- The value `new` is `old` with `x` in the place of the part at the end of a
path. -/
inductive Replaces (x : Value) : List Nat → Value → Value → Prop where
  | here (old : Value) : Replaces x [] old x
  | inside {i : Nat} {path : List Nat} {shape : Shape} {elems : List Value} {u w : Value}
      (found : elems[i]? = some u) (replaced : Replaces x path u w) :
      Replaces x (i :: path) (.aggregate shape elems) (.aggregate shape (elems.set i w))

/-- To put a value at the end of a path succeeds as it is told, and not
otherwise. -/
theorem setPart?_eq_some_iff : setPart? x path old = some new ↔ Replaces x path old new := by
  constructor
  · intro h
    induction path generalizing old new with
    | nil =>
      cases old <;> cases h <;> exact .here _
    | cons i path ih =>
      cases old with
      | aggregate shape elems =>
        obtain ⟨w, hw, rfl⟩ := Option.map_eq_some_iff.mp h
        obtain ⟨u, hu, hset⟩ := Option.bind_eq_some_iff.mp hw
        exact .inside hu (ih hset)
      | _ => cases h
  · intro h
    induction h with
    | here old => cases old <;> rfl
    | inside found _ ih => simp [setPart?, found, ih]

/-- A part can be put where there is one. -/
theorem exists_replaces_iff : (∃ new, Replaces x path old new) ↔ ∃ y, part? path old = some y := by
  constructor
  · rintro ⟨new, h⟩
    induction h with
    | here old => exact ⟨old, part?_nil old⟩
    | inside found _ ih =>
      obtain ⟨y, hy⟩ := ih
      exact ⟨y, part?_cons_eq_some.mpr ⟨_, _, _, rfl, found, hy⟩⟩
  · rintro ⟨y, h⟩
    induction path generalizing old with
    | nil => exact ⟨x, .here old⟩
    | cons i path ih =>
      obtain ⟨shape, elems, u, rfl, hu, hpart⟩ := part?_cons_eq_some.mp h
      obtain ⟨w, hw⟩ := ih hpart
      exact ⟨_, .inside hu hw⟩

/-- To put back the part that is there changes nothing. -/
theorem replaces_self (h : part? path v = some x) : Replaces x path v v := by
  induction path generalizing v with
  | nil =>
    rw [part?_nil] at h
    cases h
    exact .here _
  | cons i path ih =>
    obtain ⟨shape, elems, u, rfl, hu, hpart⟩ := part?_cons_eq_some.mp h
    have hset : elems.set i u = elems := by
      obtain ⟨hi, rfl⟩ := List.getElem?_eq_some_iff.mp hu
      exact List.set_getElem_self hi
    have hin : Replaces x (i :: path) (.aggregate shape elems) (.aggregate shape (elems.set i u)) :=
      .inside hu (ih hpart)
    rwa [hset] at hin

namespace Replaces

/-- A replaced element is found where the old one was. -/
theorem getElem?_set_found {u w : Value} (found : elems[i]? = some u) :
    (elems.set i w)[i]? = some w :=
  List.getElem?_set_self (List.getElem?_eq_some_iff.mp found).1

/-- At the place itself what was put there is read. -/
theorem part?_new (h : Replaces x path old new) : part? path new = some x := by
  induction h with
  | here old => exact part?_nil x
  | inside found _ ih =>
    exact part?_cons_eq_some.mpr ⟨_, _, _, rfl, getElem?_set_found found, ih⟩

/-- At a place that lies apart, neither above nor below, everything is read as
before. -/
theorem part?_apart (h : Replaces x p old new) (hp : ¬ p <+: q) (hq : ¬ q <+: p) :
    part? q new = part? q old := by
  induction h generalizing q with
  | here old => exact absurd List.nil_prefix hp
  | @inside i path shape elems u w found _ ih =>
    cases q with
    | nil => exact absurd List.nil_prefix hq
    | cons j q =>
      rw [part?_aggregate, part?_aggregate]
      by_cases hij : i = j
      · subst hij
        rw [getElem?_set_found found, found]
        exact ih (fun hpre => hp (List.cons_prefix_cons.mpr ⟨rfl, hpre⟩))
          fun hpre => hq (List.cons_prefix_cons.mpr ⟨rfl, hpre⟩)
      · rw [List.getElem?_set_ne hij]

/-- What stands around the place has it replaced inside, and nothing else. -/
theorem part?_above (h : Replaces x (q ++ p) old new) :
    ∃ o n, part? q old = some o ∧ part? q new = some n ∧ Replaces x p o n := by
  induction q generalizing old new with
  | nil => exact ⟨old, new, part?_nil old, part?_nil new, h⟩
  | cons i q ih =>
    cases h with
    | inside found replaced =>
      obtain ⟨o, n, ho, hn, hrest⟩ := ih replaced
      exact ⟨o, n, part?_cons_eq_some.mpr ⟨_, _, _, rfl, found, ho⟩,
        part?_cons_eq_some.mpr ⟨_, _, _, rfl, getElem?_set_found found, hn⟩, hrest⟩

/-- Around a place stands an aggregate, which keeps its shape and its length. -/
theorem around (h : Replaces x path old new) (hpath : path ≠ []) :
    ∃ shape before after, old = .aggregate shape before ∧ new = .aggregate shape after ∧
      after.length = before.length := by
  cases h with
  | here => exact absurd rfl hpath
  | inside => exact ⟨_, _, _, rfl, rfl, List.length_set⟩

end Replaces

end Value

end TermGraph
