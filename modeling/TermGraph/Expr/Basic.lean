import TermGraph.Node

/-!
# Expressions

The structure of an expression.  An expression also has a type; it is no part
of the structure and is stored beside it (`Expr`).

Expressions are per-occurrence nodes: writing the same thing twice makes two
of them.  Initializers are expressions too, of the five kinds for which
`ExprKind.isInitializer` holds.
-/

namespace TermGraph

/-- Operators between two operands. -/
inductive BinaryOp where
  | and | or
  | eq | ne | lt | gt | le | ge
  | add | sub | mul | div | rem
  | bitAnd | bitOr | bitXor
  | lsh | rsh
  deriving DecidableEq, Inhabited

namespace BinaryOp

def all : List BinaryOp :=
  [.and, .or, .eq, .ne, .lt, .gt, .le, .ge, .add, .sub, .mul, .div, .rem,
    .bitAnd, .bitOr, .bitXor, .lsh, .rsh]

/-- The operators that compare their operands. -/
def isComparison : BinaryOp → Bool
  | .eq | .ne | .lt | .gt | .le | .ge => true
  | _ => false

/-- The operators between truth values. -/
def isLogical : BinaryOp → Bool
  | .and | .or => true
  | _ => false

/-- A number for each binary operator, its place in `all`. -/
def toNat : BinaryOp → Nat
  | .and => 0 | .or => 1 | .eq => 2 | .ne => 3 | .lt => 4 | .gt => 5 | .le => 6 | .ge => 7
  | .add => 8 | .sub => 9 | .mul => 10 | .div => 11 | .rem => 12 | .bitAnd => 13 | .bitOr => 14
  | .bitXor => 15 | .lsh => 16 | .rsh => 17

/-- At its number an operator stands in the list of all. -/
theorem all_toNat (o : BinaryOp) : all[o.toNat]? = some o := by
  cases o <;> rfl

/-- Binary operators have different numbers. -/
theorem toNat_inj {o p : BinaryOp} : o.toNat = p.toNat ↔ o = p :=
  ⟨fun e => Option.some.inj (by rw [← all_toNat o, e, all_toNat]), congrArg toNat⟩

end BinaryOp

/-- Operators before one operand. -/
inductive UnaryOp where
  | not
  | neg
  | pos
  | bitNot
  deriving DecidableEq, Inhabited

namespace UnaryOp

def all : List UnaryOp := [.not, .neg, .pos, .bitNot]

/-- A number for each unary operator, its place in `all`. -/
def toNat : UnaryOp → Nat
  | .not => 0 | .neg => 1 | .pos => 2 | .bitNot => 3

/-- At its number an operator stands in the list of all. -/
theorem all_toNat (o : UnaryOp) : all[o.toNat]? = some o := by
  cases o <;> rfl

/-- Unary operators have different numbers. -/
theorem toNat_inj {o p : UnaryOp} : o.toNat = p.toNat ↔ o = p :=
  ⟨fun e => Option.some.inj (by rw [← all_toNat o, e, all_toNat]), congrArg toNat⟩

end UnaryOp

inductive ExprKind where
  | boolean (value : Bool)
  /-- A literal of any integer type; an unsigned one is kept by its bits. -/
  | integer (value : Int64)
  /-- A reference to a variable or a parameter. -/
  | object (name : NameId) (decl : DeclId)
  /-- A reference to a function. -/
  | function (name : NameId) (decl : DeclId)
  | field (object : ExprId) (name : NameId) (decl : DeclId)
  | method (object : ExprId) (name : NameId) (decl : DeclId)
  | check (concept : DeclId) (args : List Term)
  | unary (op : UnaryOp) (operand : ExprId)
  | binary (op : BinaryOp) (lhs rhs : ExprId)
  | call (callee : ExprId) (args : List ExprId)
  | requires (tparms parms : List DeclId) (reqs : List ReqId)
  /-- An expression that stands for a declaration while constraints are checked. -/
  | synthetic (decl : DeclId)
  | trivialInit
  | copyInit (expr : ExprId)
  /-- The binding of a reference. -/
  | bindInit (expr : ExprId)
  /-- Initialization by a constructor. -/
  | directInit (ctor : DeclId) (args : List ExprId)
  /-- Initialization of the elements one by one. -/
  | aggregateInit (args : List ExprId)
  deriving DecidableEq, Inhabited

namespace ExprKind

/-- The declaration that an id-expression or a member access refers to. -/
def referencedDecl? : ExprKind → Option DeclId
  | .object _ decl | .function _ decl | .field _ _ decl | .method _ _ decl | .synthetic decl =>
    some decl
  | _ => none

/-- Whether the expression initializes something. -/
def isInitializer : ExprKind → Bool
  | .trivialInit | .copyInit _ | .bindInit _ | .directInit _ _ | .aggregateInit _ => true
  | _ => false

end ExprKind

/-- An expression: its structure and its type. -/
structure Expr where
  ty : TypeId
  kind : ExprKind
  deriving DecidableEq, Inhabited

end TermGraph
