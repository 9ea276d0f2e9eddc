import TermGraph.Handle

/-!
# Small nodes

Terms, and the structure of statements, definitions, requirements and
constraints.  All of them are made of handles; names, types, expressions and
declarations, of which there is more to say, have files of their own.
-/

namespace TermGraph

/-!
## Terms

Templates and concepts are applied to arguments of mixed categories: a type
beside an expression beside a template.  A `Term` is a handle that says which
of the five argument-capable categories it belongs to.
-/

/-- A template or concept argument. -/
inductive Term where
  | name (id : NameId)
  | type (id : TypeId)
  | expr (id : ExprId)
  | decl (id : DeclId)
  | constraint (id : ConsId)
  deriving DecidableEq, Inhabited

/-!
## Statements

The structure of a statement.  Statements are only stored and read; nothing
looks through them.
-/

inductive StmtKind where
  /-- Everything at the top of a program. -/
  | topLevel (stmts : List StmtId)
  /-- Everything in a class body. -/
  | member (stmts : List StmtId)
  | compound (stmts : List StmtId)
  | empty
  | ret (expr : ExprId)
  | ifThen (cond : ExprId) (yes : StmtId)
  | ifElse (cond : ExprId) (yes no : StmtId)
  | whileLoop (cond : ExprId) (body : StmtId)
  | leave
  | next
  | expression (expr : ExprId)
  | declaration (decl : DeclId)
  deriving DecidableEq, Inhabited

/-- The statements that a sequence of statements consists of. -/
def StmtKind.statements : StmtKind → List StmtId
  | .topLevel stmts | .member stmts | .compound stmts => stmts
  | _ => []

/-!
## Definitions

What a declaration is defined by.  The first three kinds carry nothing, so
every graph holds them once and all declarations share them (`DefId.empty`,
`DefId.deleted`, `DefId.defaulted`).
-/

inductive DefKind where
  | empty
  | deleted
  | defaulted
  /-- Defined as equal to an expression. -/
  | expression (expr : ExprId)
  /-- A function body. -/
  | function (body : StmtId)
  /-- A type body given as a statement. -/
  | type (body : StmtId)
  /-- A class body given as its members. -/
  | classBody (members : List DeclId)
  /-- A concept body given as requirements. -/
  | concept (reqs : List ReqId)
  deriving DecidableEq, Inhabited

/-!
## Requirements

The requirements of a requires-expression or of a concept body: each asks that
an expression be valid, two of them also something of its type.
-/

inductive ReqKind where
  /-- The expression is valid and has exactly the type. -/
  | basic (expr : ExprId) (ty : TypeId)
  /-- The expression is valid and converts to the type. -/
  | conversion (expr : ExprId) (ty : TypeId)
  | syntactic (expr : ExprId)
  deriving DecidableEq, Inhabited

/-- The expression that is required to be valid. -/
def ReqKind.expr : ReqKind → ExprId
  | .basic expr _ | .conversion expr _ | .syntactic expr => expr

/-!
## Constraints

Constraints are requires-clauses and concept bodies in normal form: atoms that
mention expressions, joined by conjunction and disjunction.  They are interned
up to the structure of their expressions, so equality of kinds, which compares
expression handles, is not the equivalence that matters; that one is
`Arena.constraintsAlike`.
-/

inductive ConstraintKind where
  | concept (concept : DeclId) (args : List Term)
  /-- A truth-valued expression that must hold. -/
  | predicate (expr : ExprId)
  /-- The expression is valid and has exactly the type. -/
  | expression (expr : ExprId) (ty : TypeId)
  /-- The expression is valid and converts to the type. -/
  | conversion (expr : ExprId) (ty : TypeId)
  /-- A constraint under parameters of its own. -/
  | parameterized (parms : List DeclId) (constraint : ConsId)
  | conjunction (lhs rhs : ConsId)
  | disjunction (lhs rhs : ConsId)
  deriving DecidableEq, Inhabited

/-- Whether the constraint joins two others. -/
def ConstraintKind.isConnective : ConstraintKind → Bool
  | .conjunction .. | .disjunction .. => true
  | _ => false

end TermGraph
