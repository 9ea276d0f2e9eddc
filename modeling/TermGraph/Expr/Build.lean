import TermGraph.Types.Build

/-!
# Building expressions

Every request for an expression stores a new one.  Its type is computed from
the operands; no conversions are put in.

A reference to an object has the type of a reference to what was declared, a
reference to a function the type of the function itself.  Arithmetic has the
type of its first operand with one reference and then the qualifiers taken
off; comparison and logic are truth-valued.
-/

namespace TermGraph

inductive ExprRequest where
  | boolean (value : Bool)
  | integer (ty : TypeId) (value : Int64)
  /-- A literal of the plain signed integer type. -/
  | int (value : Int64)
  /-- A literal of the plain unsigned integer type, kept by its bits. -/
  | uint (value : UInt64)
  | reference (decl : DeclId)
  | memberReference (object : ExprId) (decl : DeclId)
  | check (concept : DeclId) (args : List Term)
  | synthesized (decl : DeclId)
  | unary (op : UnaryOp) (operand : ExprId)
  | binary (op : BinaryOp) (lhs rhs : ExprId)
  | call (callee : ExprId) (args : List ExprId)
  /-- The call of a declared function. -/
  | callDecl (decl : DeclId) (args : List ExprId)
  | requires (tparms parms : List DeclId) (reqs : List ReqId)
  | trivialInit (ty : TypeId)
  | copyInit (ty : TypeId) (expr : ExprId)
  | bindInit (ty : TypeId) (expr : ExprId)
  | directInit (ty : TypeId) (ctor : DeclId) (args : List ExprId)
  | aggregateInit (ty : TypeId) (args : List ExprId)
  deriving DecidableEq, Inhabited

namespace ExprRequest

/-- The literal zero of a type. -/
def zero (ty : TypeId) : ExprRequest := .integer ty 0

/-- The conjunction of two truth values. -/
def both (lhs rhs : ExprId) : ExprRequest := .binary .and lhs rhs

/-- The disjunction of two truth values. -/
def either (lhs rhs : ExprId) : ExprRequest := .binary .or lhs rhs

/-- The negation of a truth value. -/
def negation (operand : ExprId) : ExprRequest := .unary .not operand

end ExprRequest

/-- What is left of the type of an expression when one reference and then the
qualifiers are taken off. -/
def Context.valueTypeOf (cx : Context) (e : ExprId) : Except Fault TypeId := do
  let ty ← cx.arena.exprType e
  let stripped ← match ← cx.type ty with
    | .wrapped .reference inner => pure inner
    | _ => pure ty
  return (← cx.splitQualifiers stripped).1

namespace Build

/-- The type of references to a type. -/
def referenceType (ty : TypeId) : Build TypeId := internType (.wrapped .reference ty)

/-- A reference to an object, a parameter or a free function; one template
around it is looked through but stays in the expression. -/
def reference (d : DeclId) : Build ExprId := do
  let name ← read fun cx => cx.arena.declName d
  match ← decl (← read fun cx => cx.arena.parameterized d) with
  | .var _ ty _ | .objectParm _ ty | .valueParm _ _ ty =>
    pushExpr (.object name d) (← referenceType ty)
  | .function .free _ ty _ _ => pushExpr (.function name d) ty
  | other => mistake (.notReferable (← read fun cx => cx.spell name) other.sort)

/-- A field or a method of an object; one template around it is looked through
but stays in the expression. -/
def memberReference (object : ExprId) (d : DeclId) : Build ExprId := do
  let name ← read fun cx => cx.arena.declName d
  match ← decl (← read fun cx => cx.arena.parameterized d) with
  | .field _ ty _ => pushExpr (.field object name d) (← referenceType ty)
  | .function .method _ ty _ _ => pushExpr (.method object name d) ty
  | other => mistake (.notMember (← read fun cx => cx.spell name) other.sort)

/-- A concept applied to arguments, as a truth value. -/
def check (d : DeclId) (args : List Term) : Build ExprId := do
  match ← decl d with
  | .concept .. => pushExpr (.check d args) .bool
  | _ =>
    let name ← read fun cx => cx.arena.declName d
    mistake (.doesNotName (← read fun cx => cx.spell name) .concept)

def unary (op : UnaryOp) (operand : ExprId) : Build ExprId := do
  match op with
  | .not => pushExpr (.unary op operand) .bool
  | .neg | .pos | .bitNot =>
    pushExpr (.unary op operand) (← read fun cx => cx.valueTypeOf operand)

def binary (op : BinaryOp) (lhs rhs : ExprId) : Build ExprId := do
  if op.isLogical || op.isComparison then pushExpr (.binary op lhs rhs) .bool
  else pushExpr (.binary op lhs rhs) (← read fun cx => cx.valueTypeOf lhs)

/-- A call, of the type that the function called returns. -/
def call (callee : ExprId) (args : List ExprId) : Build ExprId := do
  match ← type (← read fun cx => cx.valueTypeOf callee) with
  | .function params ret =>
    if params.length = args.length then pushExpr (.call callee args) ret
    else mistake (.wrongArity params.length args.length)
  | _ => mistake .notCallable

/-- The call of a declared function.  The reference to the function is stored
before the arguments are looked at. -/
def callDecl (d : DeclId) (args : List ExprId) : Build ExprId := do
  call (← reference d) args

end Build

def ExprRequest.perform : ExprRequest → Build ExprId
  | .boolean value => Build.pushExpr (.boolean value) .bool
  | .integer ty value => Build.pushExpr (.integer value) ty
  | .int value => do Build.pushExpr (.integer value) (← Build.plainInteger true)
  | .uint value => do Build.pushExpr (.integer value.toInt64) (← Build.plainInteger false)
  | .reference d => Build.reference d
  | .memberReference obj d => Build.memberReference obj d
  | .check d args => Build.check d args
  | .synthesized d => do Build.pushExpr (.synthetic d) (← Build.declaredType d)
  | .unary op operand => Build.unary op operand
  | .binary op lhs rhs => Build.binary op lhs rhs
  | .call callee args => Build.call callee args
  | .callDecl d args => Build.callDecl d args
  | .requires tparms parms reqs => Build.pushExpr (.requires tparms parms reqs) .bool
  | .trivialInit ty => Build.pushExpr .trivialInit ty
  | .copyInit ty expr => Build.pushExpr (.copyInit expr) ty
  | .bindInit ty expr => Build.pushExpr (.bindInit expr) ty
  | .directInit ty ctor args => Build.pushExpr (.directInit ctor args) ty
  | .aggregateInit ty args => Build.pushExpr (.aggregateInit args) ty

end TermGraph
