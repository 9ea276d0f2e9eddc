import Std.Data.TreeMap
import TermGraph.Handle

/-!
# Types

The structure of a type: a kind whose child types are handles.  Types are
interned, so the children of a type are already unique and two kinds that are
equal here have the same fully unfolded structure.

To be a key of the type table a kind needs an order.  Which order is of no
account; what matters is that kinds it cannot tell apart are equal.  A kind is
written as a list of numbers (`TypeKind.code`), different kinds as different
lists (`TypeKind.code_inj`), and the order is that of the lists.
-/

namespace TermGraph

/-- A set of qualifiers. -/
structure Qualifiers where
  const : Bool
  volatile : Bool
  deriving DecidableEq, Inhabited

namespace Qualifiers

/-- No qualifier. -/
def none : Qualifiers := ⟨false, false⟩

/-- The set of `const` alone. -/
def justConst : Qualifiers := ⟨true, false⟩

/-- The set of `volatile` alone. -/
def justVolatile : Qualifiers := ⟨false, true⟩

/-- All qualifiers of either set. -/
def union (p q : Qualifiers) : Qualifiers := ⟨p.const || q.const, p.volatile || q.volatile⟩

/-- Whether the set is empty. -/
def isEmpty (q : Qualifiers) : Bool := !q.const && !q.volatile

/-- A set as a number: one for `const`, two for `volatile`, added up. -/
def toNat (q : Qualifiers) : Nat := q.const.toNat + 2 * q.volatile.toNat

/-- The set with that number; higher bits say nothing. -/
def ofNat (n : Nat) : Qualifiers := ⟨n % 2 == 1, n / 2 % 2 == 1⟩

/-- A set is read back from its number. -/
theorem ofNat_toNat (q : Qualifiers) : ofNat q.toNat = q := by
  rcases q with ⟨_ | _, _ | _⟩ <;> rfl

/-- Different sets have different numbers. -/
theorem toNat_inj {p q : Qualifiers} : p.toNat = q.toNat ↔ p = q :=
  ⟨fun e => by rw [← ofNat_toNat p, e, ofNat_toNat], congrArg toNat⟩

end Qualifiers

/-- The ways to build a type over one other type, qualifiers apart: the two
indirections, slices, the parameter passing modes and packs. -/
inductive Wrapper where
  | pointer
  | reference
  | slice
  | input
  | output
  | mutable
  | consume
  | forward
  | pack
  deriving DecidableEq, Inhabited

namespace Wrapper

/-- Every wrapper. -/
def all : List Wrapper :=
  [.pointer, .reference, .slice, .input, .output, .mutable, .consume, .forward, .pack]

/-- The wrappers that do not change what values of the wrapped type are: the
parameter passing modes and packs. -/
def isTransparent : Wrapper → Bool
  | .input | .output | .mutable | .consume | .forward | .pack => true
  | .pointer | .reference | .slice => false

/-- A number for each wrapper, its place in `all`. -/
def toNat : Wrapper → Nat
  | .pointer => 0
  | .reference => 1
  | .slice => 2
  | .input => 3
  | .output => 4
  | .mutable => 5
  | .consume => 6
  | .forward => 7
  | .pack => 8

/-- At its number a wrapper stands in the list of all. -/
theorem all_toNat (w : Wrapper) : all[w.toNat]? = some w := by
  cases w <;> rfl

/-- Different wrappers have different numbers. -/
theorem toNat_inj {v w : Wrapper} : v.toNat = w.toNat ↔ v = w :=
  ⟨fun e => Option.some.inj (by rw [← all_toNat v, e, all_toNat]), congrArg toNat⟩

end Wrapper

inductive TypeKind where
  | void
  | boolean
  | byte
  | integer (signed : Bool) (precision : Nat)
  | float
  /-- A type to be deduced. -/
  | auto
  | decltype (expr : ExprId)
  /-- A type to be deduced, reference and qualifiers included. -/
  | declauto
  | function (params : List TypeId) (ret : TypeId)
  /-- A type with qualifiers; the base is never itself of this kind. -/
  | qualified (base : TypeId) (quals : Qualifiers)
  | wrapped (wrapper : Wrapper) (ty : TypeId)
  /-- A fixed number of elements. -/
  | array (elem : TypeId) (extent : ExprId)
  /-- A number of elements known when the program runs. -/
  | dynarray (elem : TypeId) (extent : ExprId)
  /-- The type that a type parameter stands for. -/
  | typename (decl : DeclId)
  /-- The type of types. -/
  | typeOfTypes
  /-- A type that stands for a declaration while constraints are checked. -/
  | synthetic (decl : DeclId)
  /-- A class type, named by its declaration. -/
  | user (decl : DeclId)
  | union (decl : DeclId)
  | enum (decl : DeclId)
  deriving DecidableEq, Inhabited

namespace TypeKind

/-- The one child type of a kind built over another type. -/
def inner? : TypeKind → Option TypeId
  | .qualified base _ => some base
  | .wrapped _ ty => some ty
  | .array elem _ | .dynarray elem _ => some elem
  | _ => none

/-- The kinds that only a later pass can resolve. -/
def isPlaceholder : TypeKind → Bool
  | .auto | .declauto | .typename _ | .decltype _ => true
  | _ => false

/-- A kind as a list of numbers. -/
def code : TypeKind → List Nat
  | .void => [0]
  | .boolean => [1]
  | .byte => [2]
  | .integer signed precision => [3, signed.toNat, precision]
  | .float => [4]
  | .auto => [5]
  | .decltype expr => [6, expr.index]
  | .declauto => [7]
  | .function params ret => 8 :: ret.index :: params.map Handle.index
  | .qualified base quals => [9, base.index, quals.toNat]
  | .wrapped wrapper ty => [10, wrapper.toNat, ty.index]
  | .array elem extent => [11, elem.index, extent.index]
  | .dynarray elem extent => [12, elem.index, extent.index]
  | .typename decl => [13, decl.index]
  | .typeOfTypes => [14]
  | .synthetic decl => [15, decl.index]
  | .user decl => [16, decl.index]
  | .union decl => [17, decl.index]
  | .enum decl => [18, decl.index]

end TypeKind

/-- Different truth values are written as different numbers. -/
theorem bool_toNat_inj {a b : Bool} : a.toNat = b.toNat ↔ a = b := by
  cases a <;> cases b <;> decide

/-- Different kinds are written as different lists. -/
theorem TypeKind.code_inj {j k : TypeKind} : j.code = k.code ↔ j = k := by
  cases j <;> cases k <;>
    simp [code, Handle.index_inj, Handle.map_index_inj, Qualifiers.toNat_inj, Wrapper.toNat_inj,
      bool_toNat_inj, and_comm]

/-- Kinds are ordered as the lists they are written as. -/
instance : Ord TypeKind := ⟨fun j k => compare j.code k.code⟩

instance : Std.TransOrd TypeKind where
  eq_swap := Std.OrientedCmp.eq_swap (α := List Nat)
  isLE_trans := Std.TransCmp.isLE_trans (α := List Nat)

instance : Std.LawfulEqOrd TypeKind where
  compare_self := Std.ReflCmp.compare_self (α := List Nat)
  eq_of_compare h := TypeKind.code_inj.mp (Std.LawfulEqCmp.eq_of_compare (α := List Nat) h)

end TermGraph
