import TermGraph.Value.Leaves
import TermGraph.Value.Bytes

/-!
# Stored values

A store keeps values in numbered slots.  A reference names a value in a store
by its slot, and a part of it by the path that leads there through the
elements of aggregates.  Slots are never taken away, so a reference to a whole
slot names something as long as the store lasts; one to a part may come to
name nothing when an aggregate around the part is replaced.

Reading and writing go along the same path (`Value.part?`, `Value.setPart?`).
A reference that names a reference is never made: `ValueStore.reference`
refuses to.
-/

namespace TermGraph

namespace Value

/-- The part of a value at the end of a path. -/
def part? : List Nat → Value → Option Value
  | [], v => some v
  | i :: path, .aggregate _ elems => elems[i]?.bind (part? path)
  | _ :: _, _ => none

/-- The value with another part at the end of a path. -/
def setPart? (new : Value) : List Nat → Value → Option Value
  | [], _ => some new
  | i :: path, .aggregate shape elems =>
    (elems[i]?.bind (setPart? new path)).map fun v => .aggregate shape (elems.set i v)
  | _ :: _, _ => none

end Value

/-- Values in numbered slots. -/
structure ValueStore where
  slots : Array Value
  deriving Inhabited

namespace ValueStore

def empty : ValueStore := ⟨#[]⟩

def size (s : ValueStore) : Nat := s.slots.size

/-- Store a value in the next slot. -/
def alloc (s : ValueStore) (v : Value) : ValueRef × ValueStore :=
  (⟨some s.slots.size, []⟩, ⟨s.slots.push v⟩)

/-- The value that a reference names, if it names one. -/
def get? (s : ValueStore) (r : ValueRef) : Option Value := do
  (← s.slots[← r.slot]?).part? r.path

/-- The store with another value where a reference leads, if it leads
anywhere. -/
def set? (s : ValueStore) (r : ValueRef) (v : Value) : Option ValueStore := do
  let slot ← r.slot
  let whole ← Value.setPart? v r.path (← s.slots[slot]?)
  return ⟨s.slots.setIfInBounds slot whole⟩

/-- The value that a reference names; it has to name one. -/
def get (s : ValueStore) (r : ValueRef) : Except ValueFault Value :=
  match s.get? r with
  | some v => .ok v
  | none => .error (.dangling r)

/-- The store with another value where a reference leads; it has to lead
somewhere. -/
def set (s : ValueStore) (r : ValueRef) (v : Value) : Except ValueFault ValueStore :=
  match s.set? r v with
  | some s' => .ok s'
  | none => .error (.dangling r)

/-- Change the value that a reference names. -/
def update (s : ValueStore) (r : ValueRef) (f : Value → Except ValueFault Value) :
    Except ValueFault ValueStore := do
  s.set r (← f (← s.get r))

/-- Reset the value that a reference names to zero. -/
def zero (s : ValueStore) (r : ValueRef) : Except ValueFault ValueStore :=
  s.update r fun v => .ok v.zeroed

/-- The reference value for what a reference names, which must not be a
reference itself: references do not chain. -/
def reference (s : ValueStore) (r : ValueRef) : Except ValueFault Value := do
  if (← s.get r).isReference then .error (.chained r) else return .reference r

/-- The whole slot that a reference leads into. -/
def root? (s : ValueStore) (r : ValueRef) : Option Value := s.get? { r with path := [] }

end ValueStore

end TermGraph
