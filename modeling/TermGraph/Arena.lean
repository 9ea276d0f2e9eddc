import TermGraph.Node
import TermGraph.Expr.Basic
import TermGraph.Fault
import TermGraph.Name.Basic

/-!
# The arena

The tables of everything that is not interned: names, expressions,
statements, declarations, definitions and requirements.  Nodes are only ever
added, each at the end of its table, so the handle of a new node is the length
of its table just before; nothing but the definition of a declaration is ever
overwritten (`setDecl`).

A fresh arena already holds the name of the global namespace, the global
namespace itself and the three shared definitions, at the handles that are set
aside for them.

Templates are looked through in two ways.  `parameterized` unwraps one level;
`core` unwraps all of them, and a declaration's name is that of its core.
-/

namespace TermGraph

/-- The tables of the nodes that are not interned. -/
structure Arena where
  names : Array NameKind
  exprs : Array Expr
  stmts : Array StmtKind
  decls : Array DeclKind
  defs : Array DefKind
  reqs : Array ReqKind
  deriving DecidableEq, Inhabited

namespace Arena

/-- The arena that every graph starts with. -/
def fresh : Arena where
  names := #[.global]
  exprs := #[]
  stmts := #[]
  decls := #[.nameSpace .global []]
  defs := #[.empty, .deleted, .defaulted]
  reqs := #[]

/-! ## Reading -/

def name (a : Arena) (n : NameId) : Except Fault NameKind := fetch a.names n.index

def expr (a : Arena) (e : ExprId) : Except Fault Expr := fetch a.exprs e.index

def stmt (a : Arena) (s : StmtId) : Except Fault StmtKind := fetch a.stmts s.index

def decl (a : Arena) (d : DeclId) : Except Fault DeclKind := fetch a.decls d.index

def defn (a : Arena) (d : DefId) : Except Fault DefKind := fetch a.defs d.index

def req (a : Arena) (r : ReqId) : Except Fault ReqKind := fetch a.reqs r.index

def exprType (a : Arena) (e : ExprId) : Except Fault TypeId := Expr.ty <$> a.expr e

/-! ## Growing -/

def pushName (a : Arena) (kind : NameKind) : NameId × Arena :=
  (⟨a.names.size⟩, { a with names := a.names.push kind })

def pushExpr (a : Arena) (kind : ExprKind) (ty : TypeId) : ExprId × Arena :=
  (⟨a.exprs.size⟩, { a with exprs := a.exprs.push { ty, kind } })

def pushStmt (a : Arena) (kind : StmtKind) : StmtId × Arena :=
  (⟨a.stmts.size⟩, { a with stmts := a.stmts.push kind })

def pushDecl (a : Arena) (kind : DeclKind) : DeclId × Arena :=
  (⟨a.decls.size⟩, { a with decls := a.decls.push kind })

def pushDef (a : Arena) (kind : DefKind) : DefId × Arena :=
  (⟨a.defs.size⟩, { a with defs := a.defs.push kind })

def pushReq (a : Arena) (kind : ReqKind) : ReqId × Arena :=
  (⟨a.reqs.size⟩, { a with reqs := a.reqs.push kind })

def setDecl (a : Arena) (d : DeclId) (kind : DeclKind) : Except Fault Arena :=
  (fun _ => { a with decls := a.decls.setIfInBounds d.index kind }) <$> a.decl d

/-! ## Looking through templates -/

/-- The declaration a template wraps, or the declaration itself: exactly one
level is unwrapped. -/
def parameterized (a : Arena) (d : DeclId) : Except Fault DeclId := do
  match ← a.decl d with
  | .template _ inner _ => return inner
  | _ => return d

/-- The first declaration that is no template, at most `steps` templates
further in. -/
def coreWithin (a : Arena) : Nat → DeclId → Except Fault (DeclId × DeclKind)
  | 0, _ => .error .cyclic
  | steps + 1, d => do
    match ← a.decl d with
    | .template _ inner _ => a.coreWithin steps inner
    | kind => return (d, kind)

/-- The declaration inside all the templates around it.  A chain of templates
that does not come back to itself is shorter than the table. -/
def core (a : Arena) (d : DeclId) : Except Fault (DeclId × DeclKind) :=
  a.coreWithin (a.decls.size + 1) d

/-- The name of a declaration, which for a template is that of its core. -/
def declName (a : Arena) (d : DeclId) : Except Fault NameId :=
  (fun core => core.2.name?.getD .invalid) <$> a.core d

end Arena

end TermGraph
