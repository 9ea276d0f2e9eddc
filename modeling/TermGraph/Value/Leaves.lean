import TermGraph.Value.Basic

/-!
# Traversals

The leaves of a value are the parts that are no aggregates.  A `LeafMap` says
what becomes of the payload of each kind of leaf; applied to a value it changes
the leaves and nothing else, so shapes and lengths stay (`Value.mapLeaves`).
Zero-initialization and negation are such maps.  `Value.count` tells how often
a kind occurs in a value, aggregates and leaves together.
-/

namespace TermGraph

/-- What becomes of the payload of each kind of leaf. -/
structure LeafMap where
  integer : Int64 → Int64
  float : Binary64 → Binary64
  function : DeclId → DeclId
  reference : ValueRef → ValueRef

namespace Value

mutual

/-- The value with all its leaves changed. -/
def mapLeaves (f : LeafMap) : Value → Value
  | .error => .error
  | .integer n => .integer (f.integer n)
  | .float x => .float (f.float x)
  | .function d => .function (f.function d)
  | .reference r => .reference (f.reference r)
  | .aggregate shape elems => .aggregate shape (mapLeavesAll f elems)

/-- The values with all their leaves changed. -/
def mapLeavesAll (f : LeafMap) : List Value → List Value
  | [] => []
  | v :: vs => mapLeaves f v :: mapLeavesAll f vs

end

/-- Integers become zero and numbers of double precision positive zero, a
function becomes the declaration that is none and a reference the null
reference. -/
def zeroing : LeafMap where
  integer _ := 0
  float _ := .zero
  function _ := .invalid
  reference _ := .null

/-- The value with everything in it reset to zero. -/
def zeroed (v : Value) : Value := v.mapLeaves zeroing

/-- Integers, modulo the size of a machine word, and numbers of double
precision change their sign. -/
def negating : LeafMap where
  integer n := -n
  float x := x.neg
  function d := d
  reference r := r

/-- The value with every number in it negated. -/
def negated (v : Value) : Value := v.mapLeaves negating

mutual

/-- How many parts of a kind a value has, the value itself included. -/
def count (k : ValueKind) : Value → Nat
  | .aggregate shape elems => (if k = .aggregate shape then 1 else 0) + countAll k elems
  | v => if k = v.kind then 1 else 0

/-- How many parts of a kind values have. -/
def countAll (k : ValueKind) : List Value → Nat
  | [] => 0
  | v :: vs => count k v + countAll k vs

end

end Value

/-- What becomes of the payload of each kind, aggregates included.  The kind of
a value cannot change. -/
structure PayloadMap extends LeafMap where
  elements : Shape → List Value → List Value

/-- The value with its own payload changed. -/
def Value.mapPayload (f : PayloadMap) : Value → Value
  | .error => .error
  | .integer n => .integer (f.integer n)
  | .float x => .float (f.float x)
  | .function d => .function (f.function d)
  | .reference r => .reference (f.reference r)
  | .aggregate shape elems => .aggregate shape (f.elements shape elems)

end TermGraph
