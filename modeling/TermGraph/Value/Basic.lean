import TermGraph.Handle
import TermGraph.Value.Binary64

/-!
# Values

What evaluation computes: numbers, functions, references to stored values and
aggregates of other values, and the error that a failed evaluation leaves.

Two values are the same when they have the same structure (`Value.same`), and
numbers of double precision count by their bits.  What a value is hashed by is
its sequence of words (`Value.words`): the number of its kind, its payload,
and for aggregates the length and the words of the elements.
-/

namespace TermGraph

/-- A reference to a stored value or to a part of one: the slot, none for the
null reference, and the element indices that lead to the part, outermost
first. -/
structure ValueRef where
  slot : Option Nat
  path : List Nat
  deriving DecidableEq, Inhabited

namespace ValueRef

def null : ValueRef := ⟨none, []⟩

def isNull (r : ValueRef) : Bool := r.slot.isNone

/-- The reference to an element of what the reference names. -/
def element (r : ValueRef) (i : Nat) : ValueRef := { r with path := r.path ++ [i] }

end ValueRef

inductive Shape where
  | array
  | dynarray
  | tuple
  deriving DecidableEq, Inhabited

inductive Value where
  /-- What a failed evaluation leaves, and what new elements hold. -/
  | error
  | integer (n : Int64)
  | float (x : Binary64)
  /-- A function, by its declaration. -/
  | function (decl : DeclId)
  | reference (r : ValueRef)
  | aggregate (shape : Shape) (elems : List Value)
  deriving Inhabited

/-- Induction on a value leads into the elements of aggregates. -/
@[elab_as_elim, induction_eliminator]
theorem Value.induction {motive : Value → Prop} (error : motive .error)
    (integer : ∀ n, motive (.integer n)) (float : ∀ x, motive (.float x))
    (function : ∀ decl, motive (.function decl)) (reference : ∀ r, motive (.reference r))
    (aggregate : ∀ shape elems, (∀ v ∈ elems, motive v) → motive (.aggregate shape elems)) :
    ∀ v, motive v
  | .error => error
  | .integer n => integer n
  | .float x => float x
  | .function decl => function decl
  | .reference r => reference r
  | .aggregate shape elems =>
    aggregate shape elems fun v _ => induction error integer float function reference aggregate v

inductive ValueKind where
  | error
  | integer
  | float
  | function
  | reference
  | aggregate (shape : Shape)
  deriving DecidableEq, Inhabited

namespace ValueKind

def all : List ValueKind :=
  [.error, .integer, .float, .function, .reference, .aggregate .array, .aggregate .dynarray,
    .aggregate .tuple]

def text : ValueKind → String
  | .error => "error"
  | .integer => "integer"
  | .float => "float"
  | .function => "function"
  | .reference => "reference"
  | .aggregate .array => "array"
  | .aggregate .dynarray => "dynarray"
  | .aggregate .tuple => "tuple"

/-- A number for each kind, its place in `all`. -/
def toNat : ValueKind → Nat
  | .error => 0
  | .integer => 1
  | .float => 2
  | .function => 3
  | .reference => 4
  | .aggregate .array => 5
  | .aggregate .dynarray => 6
  | .aggregate .tuple => 7

/-- At its number a kind stands in the list of all. -/
theorem all_toNat (j : ValueKind) : all[j.toNat]? = some j := by
  rcases j with _ | _ | _ | _ | _ | (_ | _ | _) <;> rfl

/-- Kinds of values have different numbers. -/
theorem toNat_inj {j k : ValueKind} : j.toNat = k.toNat ↔ j = k :=
  ⟨fun e => Option.some.inj (by rw [← all_toNat j, e, all_toNat]), congrArg toNat⟩

end ValueKind

namespace Value

def kind : Value → ValueKind
  | .error => .error
  | .integer _ => .integer
  | .float _ => .float
  | .function _ => .function
  | .reference _ => .reference
  | .aggregate shape _ => .aggregate shape

def isError : Value → Bool
  | .error => true
  | _ => false

def isReference : Value → Bool
  | .reference _ => true
  | _ => false

def elements? : Value → Option (List Value)
  | .aggregate _ elems => some elems
  | _ => none

/-- The elements of a new aggregate: errors until they are set. -/
def blank (len : Nat) : List Value := List.replicate len .error

mutual

/-- Whether two values are the same. -/
def same : Value → Value → Bool
  | .error, .error => true
  | .integer m, .integer n => m == n
  | .float x, .float y => x.bits == y.bits
  | .function d, .function e => d == e
  | .reference r, .reference s => r == s
  | .aggregate s xs, .aggregate t ys => s == t && sameAll xs ys
  | _, _ => false

/-- Whether two lists of values are the same. -/
def sameAll : List Value → List Value → Bool
  | [], [] => true
  | x :: xs, y :: ys => same x y && sameAll xs ys
  | _, _ => false

end

/-- Whether two values look the same from outside: numbers of double precision
are compared as numbers, but not those inside an aggregate. -/
def looksSame : Value → Value → Bool
  | .float x, .float y => x.numericallyEqual y
  | v, w => v.same w

/-- The words of a reference: the slot, the length of the path and the path. -/
def referenceWords (r : ValueRef) : List Nat :=
  r.slot.getD Handle.noIndex :: r.path.length :: r.path

mutual

def words : Value → List Nat
  | .error => [ValueKind.error.toNat]
  | .integer n => [ValueKind.integer.toNat, n.toUInt64.toNat]
  | .float x => [ValueKind.float.toNat, x.bits.toNat]
  | .function d => [ValueKind.function.toNat, d.index]
  | .reference r => ValueKind.reference.toNat :: referenceWords r
  | .aggregate shape elems => (ValueKind.aggregate shape).toNat :: elems.length :: wordsAll elems

/-- The words of a list of values, one after another. -/
def wordsAll : List Value → List Nat
  | [] => []
  | v :: vs => words v ++ wordsAll vs

end

end Value

/-- What goes wrong with values. -/
inductive ValueFault where
  /-- The payload of another kind was asked for. -/
  | kindMismatch (expected found : ValueKind)
  /-- A reference names nothing. -/
  | dangling (r : ValueRef)
  /-- A reference would name a reference. -/
  | chained (r : ValueRef)
  /-- No element of an aggregate of this length has this index. -/
  | outOfBounds (len index : Nat)
  deriving DecidableEq, Inhabited

namespace Value

def asInteger : Value → Except ValueFault Int64
  | .integer n => .ok n
  | v => .error (.kindMismatch .integer v.kind)

/-- The truth value of an integer: all but zero are true. -/
def asBoolean (v : Value) : Except ValueFault Bool := (· != 0) <$> v.asInteger

/-- The payload of a number of double precision. -/
def asFloat : Value → Except ValueFault Binary64
  | .float x => .ok x
  | v => .error (.kindMismatch .float v.kind)

/-- The declaration of a function. -/
def asFunction : Value → Except ValueFault DeclId
  | .function d => .ok d
  | v => .error (.kindMismatch .function v.kind)

/-- The reference that a reference value holds. -/
def asReference : Value → Except ValueFault ValueRef
  | .reference r => .ok r
  | v => .error (.kindMismatch .reference v.kind)

/-- The elements of an aggregate of the given sort. -/
def asAggregate (shape : Shape) : Value → Except ValueFault (List Value)
  | .aggregate s elems =>
    if s = shape then .ok elems else .error (.kindMismatch (.aggregate shape) (.aggregate s))
  | v => .error (.kindMismatch (.aggregate shape) v.kind)

/-- Put a payload in the place of the one that a value holds.  The payload is
given as a value, and the two have to be of the same kind. -/
def assign (payload : Value) (v : Value) : Except ValueFault Value :=
  if v.kind = payload.kind then .ok payload else .error (.kindMismatch payload.kind v.kind)

def elementAt (elems : List Value) (i : Nat) : Except ValueFault Value :=
  match elems[i]? with
  | some v => .ok v
  | none => .error (.outOfBounds elems.length i)

/-- The value with another element at an index, if it is an aggregate that has
this index. -/
def setElement? (v : Value) (i : Nat) (new : Value) : Option Value :=
  match v with
  | .aggregate shape elems =>
    if i < elems.length then some (.aggregate shape (elems.set i new)) else none
  | _ => none

/-- The value with another element at an index, which an aggregate has to have;
a value that is no aggregate stays as it is. -/
def setElement (v : Value) (i : Nat) (new : Value) : Except ValueFault Value :=
  match v with
  | .aggregate shape elems =>
    if i < elems.length then .ok (.aggregate shape (elems.set i new))
    else .error (.outOfBounds elems.length i)
  | _ => .ok v

end Value

end TermGraph
