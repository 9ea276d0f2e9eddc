import TermGraph.Decl.Build
import TermGraph.Expr.Build
import TermGraph.Types.Build

/-!
# Requests

Everything that can be asked of a context, as data: to build a node of some
category, to link a definition, or to tell something without changing
anything (`Query`).  What is asked for is a value, so a whole session is a
list of requests and every statement about sessions is a statement about such
lists.
-/

namespace TermGraph

/-- What a request is answered with. -/
inductive Answer where
  /-- A node: the one that was made or found. -/
  | node (category : Category) (id : Handle category)
  /-- The symbol of a spelling, if it has one. -/
  | symbol (sym : Option Symbol)
  | text (s : String)
  /-- A type taken apart into base and qualifiers. -/
  | split (base : TypeId) (quals : Qualifiers)
  | verdict (b : Bool)
  deriving DecidableEq, Inhabited

/-- The requests that change nothing. -/
inductive Query where
  /-- The symbol of a spelling, if it has one. -/
  | symbol (s : String)
  | spelling (name : NameId)
  /-- A type without its qualifiers, and the qualifiers. -/
  | split (ty : TypeId)
  | isValueType (ty : TypeId)
  | alike (a b : ExprId)
  | declName (decl : DeclId)
  /-- The declaration that a template wraps, or the declaration itself. -/
  | parameterized (decl : DeclId)
  /-- Whether there is such a node. -/
  | node (category : Category) (id : Handle category)
  deriving DecidableEq, Inhabited

/-- Look a node up, only to see whether it is there. -/
def Context.lookUp (cx : Context) : (c : Category) → Handle c → Except Fault Unit
  | .name, id => (fun _ => ()) <$> cx.arena.name id
  | .type, id => (fun _ => ()) <$> cx.type id
  | .expr, id => (fun _ => ()) <$> cx.arena.expr id
  | .stmt, id => (fun _ => ()) <$> cx.arena.stmt id
  | .decl, id => (fun _ => ()) <$> cx.arena.decl id
  | .definition, id => (fun _ => ()) <$> cx.arena.defn id
  | .requirement, id => (fun _ => ()) <$> cx.arena.req id
  | .constraint, id => (fun _ => ()) <$> cx.constraint id

def Query.answer (cx : Context) : Query → Except Fault Answer
  | .symbol s => return .symbol (cx.symbols.get? s)
  | .spelling n => Answer.text <$> cx.spell n
  | .split ty => (fun parts => .split parts.1 parts.2) <$> cx.splitQualifiers ty
  | .isValueType ty => Answer.verdict <$> cx.isValueType ty
  | .alike a b => Answer.verdict <$> cx.arena.exprsAlike a b
  | .declName d => Answer.node .name <$> cx.arena.declName d
  | .parameterized d => Answer.node .decl <$> cx.arena.parameterized d
  | .node c id => (fun _ => .node c id) <$> cx.lookUp c id

/-- Everything that can be asked of a context. -/
inductive Request where
  | intern (s : String)
  | name (request : NameRequest)
  | type (request : TypeRequest)
  | expr (request : ExprRequest)
  | stmt (kind : StmtKind)
  | decl (request : DeclRequest)
  | define (kind : DefKind)
  | link (request : LinkRequest)
  | requirement (kind : ReqKind)
  | constraint (kind : ConstraintKind)
  | query (q : Query)
  deriving DecidableEq, Inhabited

def Request.perform : Request → Build Answer
  | .intern s => (fun sym => .symbol (some sym)) <$> Build.symbol s
  | .name request => Answer.node .name <$> request.perform
  | .type request => Answer.node .type <$> request.perform
  | .expr request => Answer.node .expr <$> request.perform
  | .stmt kind => Answer.node .stmt <$> Build.pushStmt kind
  | .decl request => Answer.node .decl <$> request.perform
  | .define kind => Answer.node .definition <$> Build.define kind
  | .link request => Answer.node .definition <$> request.perform
  | .requirement kind => Answer.node .requirement <$> Build.pushReq kind
  | .constraint kind => Answer.node .constraint <$> Build.internConstraint kind
  | .query q => Build.read fun cx => q.answer cx

end TermGraph
