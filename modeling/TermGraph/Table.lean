import Std.Data.TreeMap
import TermGraph.Constraint.Equivalence
import TermGraph.Fault
import TermGraph.Interner
import TermGraph.Types.Basic

/-!
# Tables of interned nodes

Types and constraints are interned: asking twice for the same gives the same
handle.  For types sameness is equality of their structure.  For constraints it
is an equivalence that looks into the arena, so they are looked for in another
way.
-/

namespace TermGraph

/-!
## The table of types

Types are interned: asking twice for the same structure gives the same handle,
so two types are equal exactly when their handles are.  The type without
values, the type of truth values and the type of types are in every table from
the start, at the handles set aside for them.
-/

structure TypeTable where
  kinds : Interner TypeKind

namespace TypeTable

/-- The types that every table starts with, in the order of their handles. -/
def predefined : List TypeKind := [.void, .boolean, .typeOfTypes]

def fresh : TypeTable := ⟨predefined.foldl (fun t kind => (t.intern kind).2) .empty⟩

instance : Inhabited TypeTable := ⟨fresh⟩

/-- The handle of a type, given to it now if it has none. -/
def intern (t : TypeTable) (kind : TypeKind) : TypeId × TypeTable :=
  (⟨(t.kinds.intern kind).1⟩, ⟨(t.kinds.intern kind).2⟩)

def kind (t : TypeTable) (ty : TypeId) : Except Fault TypeKind := fetch t.kinds.entries ty.index

/-- How many types there are, the predefined ones included. -/
def size (t : TypeTable) : Nat := t.kinds.size

end TypeTable

/-!
## The table of constraints

Constraints are interned up to structural equivalence, which looks into the
arena and so cannot be the equality of a map's keys.  Instead every constraint
is filed in a bucket under the digest of its words, and a new one is compared
with those in its own bucket only, oldest first.

How words are digested is a parameter of the table.  Equal words have equal
digests whatever it is, so an equivalent constraint can only be in the bucket
that is searched; constraints that are not equivalent may share a bucket and
are told apart there.  The answers of the table do not depend on the digest.
-/

open Std (TreeMap)

structure ConstraintTable where
  /-- The constraints, each at its handle. -/
  kinds : Array ConstraintKind
  /-- The handles under each digest, oldest first. -/
  buckets : TreeMap UInt64 (List ConsId)
  /-- How words are digested. -/
  digest : List Nat → UInt64

namespace ConstraintTable

/-- The digest used unless another is asked for: the words as the digits of a
number, modulo the size of a machine word. -/
def polynomialDigest (words : List Nat) : UInt64 :=
  words.foldl (fun sum w => sum * 1099511628211 + w.toUInt64 + 1) 14695981039346656037

def fresh (digest : List Nat → UInt64) : ConstraintTable :=
  { kinds := #[], buckets := ∅, digest }

def kind (t : ConstraintTable) (c : ConsId) : Except Fault ConstraintKind := fetch t.kinds c.index

def size (t : ConstraintTable) : Nat := t.kinds.size

/-- The constraints filed under a digest, oldest first. -/
def candidates (t : ConstraintTable) (key : UInt64) : List ConsId := t.buckets.getD key []

/-- File a constraint that is known to be new. -/
def insert (t : ConstraintTable) (key : UInt64) (kind : ConstraintKind) :
    ConsId × ConstraintTable :=
  (⟨t.kinds.size⟩,
    { t with
      kinds := t.kinds.push kind
      buckets := t.buckets.insert key (t.candidates key ++ [⟨t.kinds.size⟩]) })

/-- The first of the listed constraints that is alike the given one. -/
def firstAlike (t : ConstraintTable) (a : Arena) (kind : ConstraintKind) :
    List ConsId → Except Fault (Option ConsId)
  | [] => return none
  | c :: rest => do
    let stored ← t.kind c
    if ← a.constraintsAlike stored kind then return some c else t.firstAlike a kind rest

/-- The handle of the constraint alike the given one, which is filed now if
there is none. -/
def intern (t : ConstraintTable) (a : Arena) (kind : ConstraintKind) :
    Except Fault (ConsId × ConstraintTable) := do
  let key := t.digest (← a.constraintWords kind)
  match ← t.firstAlike a kind (t.candidates key) with
  | some c => return (c, t)
  | none => return t.insert key kind

end ConstraintTable

end TermGraph
