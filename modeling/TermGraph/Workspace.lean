import TermGraph.Request

/-!
# Template headers and workspaces

A template header, its parameters and perhaps a constraint, is read before the
declaration that it introduces exists.  It is kept pending until that
declaration is built and is then taken out and wrapped around it, so one
header reaches at most one declaration.  A header that is followed by another
before it is used reaches none.

A workspace is a context together with the places where headers can be
pending, numbered, each holding at most one.  `Workspace.step` carries out one
command, `Workspace.run` a list of them.
-/

namespace TermGraph

/-- A template header: the parameters and the constraint, if there is one. -/
structure TemplateHeader where
  parms : List DeclId
  constraint : Option ExprId
  deriving DecidableEq, Inhabited

/-- The requests about the one header that is pending in a place. -/
inductive HeaderRequest where
  /-- A header has begun; one still pending is forgotten. -/
  | start (parms : List DeclId)
  /-- The pending header is constrained; a constraint it had is forgotten. -/
  | constrain (expr : ExprId)
  | isPending
  | reset
  /-- Wrap the pending header, if there is one, around a declaration. -/
  | templatize (decl : DeclId)
  deriving DecidableEq, Inhabited

namespace HeaderRequest

/-- Carry out a request about the pending header: the answer, the header
pending afterwards, and what becomes of the context. -/
def perform (pending : Option TemplateHeader) :
    HeaderRequest → Build Answer × Option TemplateHeader
  | .start parms => (pure (.verdict true), some ⟨parms, none⟩)
  | .constrain expr =>
    match pending with
    | some header => (pure (.verdict true), some { header with constraint := some expr })
    | none => (Build.violation .headlessConstraint, none)
  | .isPending => (pure (.verdict pending.isSome), pending)
  | .reset => (pure (.verdict false), none)
  | .templatize d =>
    match pending with
    | some header =>
      (Answer.node .decl <$> Build.pushDecl (.template header.parms d header.constraint), none)
    | none => (pure (.node .decl d), none)

end HeaderRequest

/-- One command to a workspace. -/
inductive Command where
  /-- Something asked of the context. -/
  | ask (request : Request)
  /-- Something about the header pending in a place. -/
  | header (place : Nat) (request : HeaderRequest)
  deriving DecidableEq, Inhabited

/-- A context and the headers pending beside it. -/
structure Workspace where
  context : Context
  pending : Nat → Option TemplateHeader

namespace Workspace

/-- A context that nothing was asked of yet, and no header pending. -/
def ofContext (context : Context) : Workspace := ⟨context, fun _ => none⟩

def step (w : Workspace) : Command → Except Failure Answer × Workspace
  | .ask request =>
    let (answer, context) := request.perform.runOn w.context
    (answer, { w with context })
  | .header place request =>
    let (build, pending) := request.perform (w.pending place)
    let (answer, context) := build.runOn w.context
    (answer, ⟨context, fun p => if p = place then pending else w.pending p⟩)

/-- Carry out commands in order; failing ones do not end the run. -/
def run (w : Workspace) : List Command → List (Except Failure Answer) × Workspace
  | [] => ([], w)
  | command :: rest =>
    let (answer, w') := w.step command
    let (answers, w'') := w'.run rest
    (answer :: answers, w'')

end Workspace

end TermGraph
