import TermGraph.Workspace

/-!
# The handles that nodes and requests mention

Nodes name each other by handle, and whoever builds a graph passes handles in
every request.  This file lists, for every node kind and for every request,
the handles in it, of whatever category (`NameKind.handles`,
`ExprRequest.handles`, …, `Command.handles`).

A handle has been *issued* by a context when it names a node that is there
(`Context.Issued`).  A run is *proper* when every handle passed in it had been
issued before it was passed (`Workspace.Proper`); nothing else is asked of a
run, so its requests may be in any order and may fail.
-/

namespace TermGraph

/-- A handle of any category. -/
abbrev AnyHandle := (c : Category) × Handle c

/-- A handle together with its category. -/
def Handle.any {c : Category} (h : Handle c) : AnyHandle := ⟨c, h⟩

/-! ## Handles in nodes -/

/-- The handle that a term is. -/
def Term.handle : Term → AnyHandle
  | .name n => n.any
  | .type t => t.any
  | .expr e => e.any
  | .decl d => d.any
  | .constraint c => c.any

def NameKind.handles : NameKind → List AnyHandle
  | .simple _ | .placeholder _ | .operator _ | .global => []
  | .destructor ty => [ty.any]
  | .template d args | .concept d args => d.any :: args.map Term.handle
  | .qualified scope name => [scope.any, name.any]

def TypeKind.handles : TypeKind → List AnyHandle
  | .void | .boolean | .byte | .integer .. | .float | .auto | .declauto | .typeOfTypes => []
  | .decltype expr => [expr.any]
  | .function params ret => ret.any :: params.map Handle.any
  | .qualified base _ => [base.any]
  | .wrapped _ ty => [ty.any]
  | .array elem extent | .dynarray elem extent => [elem.any, extent.any]
  | .typename d | .synthetic d | .user d | .union d | .enum d => [d.any]

/-- The handles in an expression, its type apart. -/
def ExprKind.handles : ExprKind → List AnyHandle
  | .boolean _ | .integer _ | .trivialInit => []
  | .object name d | .function name d => [name.any, d.any]
  | .field obj name d | .method obj name d => [obj.any, name.any, d.any]
  | .check c args => c.any :: args.map Term.handle
  | .unary _ operand => [operand.any]
  | .binary _ lhs rhs => [lhs.any, rhs.any]
  | .call callee args => callee.any :: args.map Handle.any
  | .requires tparms parms reqs =>
    tparms.map Handle.any ++ (parms.map Handle.any ++ reqs.map Handle.any)
  | .synthetic d => [d.any]
  | .copyInit expr | .bindInit expr => [expr.any]
  | .directInit ctor args => ctor.any :: args.map Handle.any
  | .aggregateInit args => args.map Handle.any

/-- The handles in an expression and its type. -/
def Expr.handles (e : Expr) : List AnyHandle := e.ty.any :: e.kind.handles

def StmtKind.handles : StmtKind → List AnyHandle
  | .topLevel stmts | .member stmts | .compound stmts => stmts.map Handle.any
  | .empty | .leave | .next => []
  | .ret expr | .expression expr => [expr.any]
  | .ifThen cond yes => [cond.any, yes.any]
  | .ifElse cond yes no => [cond.any, yes.any, no.any]
  | .whileLoop cond body => [cond.any, body.any]
  | .declaration d => [d.any]

def DeclKind.handles : DeclKind → List AnyHandle
  | .superclass name ty body | .var name ty body | .classType name ty body
  | .field name ty body => [name.any, ty.any, body.any]
  | .function _ name ty parms body => name.any :: ty.any :: body.any :: parms.map Handle.any
  | .template parms d constraint =>
    d.any :: (parms.map Handle.any ++ constraint.toList.map Handle.any)
  | .concept name parms body => name.any :: body.any :: parms.map Handle.any
  | .objectParm name ty | .valueParm _ name ty => [name.any, ty.any]
  | .typeParm _ name default => name.any :: default.toList.map Handle.any
  | .nameSpace name members => name.any :: members.map Handle.any

def DefKind.handles : DefKind → List AnyHandle
  | .empty | .deleted | .defaulted => []
  | .expression expr => [expr.any]
  | .function body | .type body => [body.any]
  | .classBody members => members.map Handle.any
  | .concept reqs => reqs.map Handle.any

def ReqKind.handles : ReqKind → List AnyHandle
  | .basic expr ty | .conversion expr ty => [expr.any, ty.any]
  | .syntactic expr => [expr.any]

def ConstraintKind.handles : ConstraintKind → List AnyHandle
  | .concept c args => c.any :: args.map Term.handle
  | .predicate expr => [expr.any]
  | .expression expr ty | .conversion expr ty => [expr.any, ty.any]
  | .parameterized parms constraint => constraint.any :: parms.map Handle.any
  | .conjunction lhs rhs | .disjunction lhs rhs => [lhs.any, rhs.any]

def TemplateHeader.handles (header : TemplateHeader) : List AnyHandle :=
  header.parms.map Handle.any ++ header.constraint.toList.map Handle.any

/-! ## Handles in requests and answers -/

def NameRequest.handles : NameRequest → List AnyHandle
  | .identifier _ | .ofSymbol _ | .placeholder | .operator _ | .global => []
  | .destructor ty => [ty.any]
  | .templateId d args | .conceptId d args => d.any :: args.map Term.handle
  | .qualified scope name => [scope.any, name.any]

def TypeRequest.handles : TypeRequest → List AnyHandle
  | .void | .bool | .byte | .integer .. | .int | .uint | .float | .auto | .declauto
  | .typeOfTypes | .placeholder => []
  | .decltype expr => [expr.any]
  | .function parms ret => ret.any :: parms.map Handle.any
  | .functionOf params ret => ret.any :: params.map Handle.any
  | .qualified ty _ | .wrapped _ ty => [ty.any]
  | .array elem extent | .dynarray elem extent => [elem.any, extent.any]
  | .typename d | .synthetic d | .user d | .union d | .enum d | .declared d => [d.any]

def ExprRequest.handles : ExprRequest → List AnyHandle
  | .boolean _ | .int _ | .uint _ => []
  | .integer ty _ | .trivialInit ty => [ty.any]
  | .reference d | .synthesized d => [d.any]
  | .memberReference obj d => [obj.any, d.any]
  | .check c args => c.any :: args.map Term.handle
  | .unary _ operand => [operand.any]
  | .binary _ lhs rhs => [lhs.any, rhs.any]
  | .call callee args => callee.any :: args.map Handle.any
  | .callDecl d args => d.any :: args.map Handle.any
  | .requires tparms parms reqs =>
    tparms.map Handle.any ++ (parms.map Handle.any ++ reqs.map Handle.any)
  | .copyInit ty expr | .bindInit ty expr => [ty.any, expr.any]
  | .directInit ty ctor args => ty.any :: ctor.any :: args.map Handle.any
  | .aggregateInit ty args => ty.any :: args.map Handle.any

def FunctionBody.handles : FunctionBody → List AnyHandle
  | .expression expr => [expr.any]
  | .statement stmt => [stmt.any]

def DeclRequest.handles : DeclRequest → List AnyHandle
  | .superclass name ty | .classType name ty | .objectParm name ty | .valueParm _ name ty =>
    [name.any, ty.any]
  | .var name ty init | .field name ty init => name.any :: ty.any :: init.toList.map Handle.any
  | .function _ name parms ret body =>
    name.any :: ret.any :: (parms.map Handle.any ++ body.toList.flatMap FunctionBody.handles)
  | .template parms d => d.any :: parms.map Handle.any
  | .concept name parms body => name.any :: body.any :: parms.map Handle.any
  | .conceptOf name parms body => name.any :: body.any :: parms.map Handle.any
  | .typeParm _ name default => name.any :: default.toList.map Handle.any
  | .nameSpace name => [name.any]

def LinkRequest.handles : LinkRequest → List AnyHandle
  | .attach d body => [d.any, body.any]
  | .define d kind => d.any :: kind.handles
  | .definitionOf d => [d.any]

def Query.handles : Query → List AnyHandle
  | .symbol _ => []
  | .spelling name => [name.any]
  | .split ty | .isValueType ty => [ty.any]
  | .alike x y => [x.any, y.any]
  | .declName d | .parameterized d => [d.any]
  | .node _ id => [id.any]

def Request.handles : Request → List AnyHandle
  | .intern _ => []
  | .name request => request.handles
  | .type request => request.handles
  | .expr request => request.handles
  | .stmt kind => kind.handles
  | .decl request => request.handles
  | .define kind => kind.handles
  | .link request => request.handles
  | .requirement kind => kind.handles
  | .constraint kind => kind.handles
  | .query q => q.handles

def HeaderRequest.handles : HeaderRequest → List AnyHandle
  | .start parms => parms.map Handle.any
  | .constrain expr => [expr.any]
  | .isPending | .reset => []
  | .templatize d => [d.any]

def Command.handles : Command → List AnyHandle
  | .ask request => request.handles
  | .header _ request => request.handles

/-- The handles in an answer. -/
def Answer.handles : Answer → List AnyHandle
  | .node _ id => [id.any]
  | .split base _ => [base.any]
  | .symbol _ | .text _ | .verdict _ => []

/-! ## Issued handles -/

/-- How many nodes of a category there are. -/
def Context.count (cx : Context) : Category → Nat
  | .name => cx.arena.names.size
  | .type => cx.types.size
  | .expr => cx.arena.exprs.size
  | .stmt => cx.arena.stmts.size
  | .decl => cx.arena.decls.size
  | .definition => cx.arena.defs.size
  | .requirement => cx.arena.reqs.size
  | .constraint => cx.constraints.size

/-- The handle names a node that is there. -/
def Context.Issued (cx : Context) {c : Category} (h : Handle c) : Prop := h.index < cx.count c

/-- All the handles name nodes that are there. -/
def Context.AllIssued (cx : Context) (hs : List AnyHandle) : Prop := ∀ h ∈ hs, cx.Issued h.2

instance (cx : Context) {c : Category} (h : Handle c) : Decidable (cx.Issued h) :=
  inferInstanceAs (Decidable (h.index < cx.count c))

instance (cx : Context) (hs : List AnyHandle) : Decidable (cx.AllIssued hs) :=
  inferInstanceAs (Decidable (∀ h ∈ hs, cx.Issued h.2))

section

variable {cx : Context} {c : Category}

@[simp] theorem Context.allIssued_nil : cx.AllIssued [] := by
  simp [AllIssued]

/-- All the handles have been issued when the first has and the others have. -/
@[simp] theorem Context.allIssued_cons {h : Handle c} {hs : List AnyHandle} :
    cx.AllIssued (h.any :: hs) ↔ cx.Issued h ∧ cx.AllIssued hs := by
  simp [AllIssued, Handle.any]

@[simp] theorem Context.allIssued_append {gs hs : List AnyHandle} :
    cx.AllIssued (gs ++ hs) ↔ cx.AllIssued gs ∧ cx.AllIssued hs :=
  List.forall_mem_append

/-- A list of handles of one category has been issued when each of them has. -/
@[simp] theorem Context.allIssued_map {hs : List (Handle c)} :
    cx.AllIssued (hs.map Handle.any) ↔ ∀ h ∈ hs, cx.Issued h :=
  List.forall_mem_map

end

/-! ## Proper runs -/

/-- Every handle passed in the run had been issued when it was passed. -/
def Workspace.Proper (w : Workspace) : List Command → Prop
  | [] => True
  | command :: rest =>
    w.context.AllIssued command.handles ∧ (w.step command).2.Proper rest

instance Workspace.decidableProper (w : Workspace) :
    (commands : List Command) → Decidable (w.Proper commands)
  | [] => .isTrue trivial
  | command :: rest =>
    have := (w.step command).2.decidableProper rest
    inferInstanceAs (Decidable (_ ∧ _))

/-- A workspace that nothing was asked of yet, with settings and a digest for
its constraints. -/
def Workspace.start (config : Config) (digest : List Nat → UInt64) : Workspace :=
  .ofContext (.create config digest)

end TermGraph
