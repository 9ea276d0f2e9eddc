import TermGraph.Types.Build

/-!
# Building declarations

How declarations are made and how definitions are linked to them.
-/

namespace TermGraph

/-!
## Requests for declarations

Every request for a declaration stores a new one.  With an initializer or a
body comes a definition, which is stored first; without, the declaration
begins with the shared empty definition.  The type of a function is made from
its parameters and its result.
-/

inductive FunctionBody where
  | expression (expr : ExprId)
  | statement (stmt : StmtId)
  deriving DecidableEq, Inhabited

/-- The definition that a body amounts to. -/
def FunctionBody.definition : FunctionBody → DefKind
  | .expression expr => .expression expr
  | .statement stmt => .function stmt

inductive DeclRequest where
  | superclass (name : NameId) (ty : TypeId)
  | var (name : NameId) (ty : TypeId) (init : Option ExprId)
  | function (flavor : FunctionFlavor) (name : NameId) (parms : List DeclId) (ret : TypeId)
      (body : Option FunctionBody)
  | classType (name : NameId) (ty : TypeId)
  | field (name : NameId) (ty : TypeId) (init : Option ExprId)
  | template (parms : List DeclId) (decl : DeclId)
  /-- A concept with a definition that exists already. -/
  | concept (name : NameId) (parms : List DeclId) (body : DefId)
  /-- A concept that is defined by an expression. -/
  | conceptOf (name : NameId) (parms : List DeclId) (body : ExprId)
  | objectParm (name : NameId) (ty : TypeId)
  | valueParm (index : ParmIndex) (name : NameId) (ty : TypeId)
  | typeParm (index : ParmIndex) (name : NameId) (default : Option TypeId)
  | nameSpace (name : NameId)
  deriving DecidableEq, Inhabited

namespace DeclRequest

/-- A class of the ordinary kind, the type of types. -/
def ordinaryClass (name : NameId) : DeclRequest := .classType name .type

/-- A concept that is declared but not defined. -/
def undefinedConcept (name : NameId) (parms : List DeclId) : DeclRequest :=
  .concept name parms .empty

end DeclRequest

namespace Build

/-- A definition: the three that carry nothing are shared, any other is stored. -/
def define (kind : DefKind) : Build DefId :=
  match kind with
  | .empty => return .empty
  | .deleted => return .deleted
  | .defaulted => return .defaulted
  | _ => pushDef kind

/-- The definition that an initializer amounts to. -/
def initializer (init : Option ExprId) : Build DefId :=
  match init with
  | some expr => define (.expression expr)
  | none => return .empty

/-- The definition that a body amounts to. -/
def functionBody (body : Option FunctionBody) : Build DefId :=
  match body with
  | some body => define body.definition
  | none => return .empty

end Build

def DeclRequest.perform : DeclRequest → Build DeclId
  | .superclass name ty => Build.pushDecl (.superclass name ty .empty)
  | .var name ty init => do Build.pushDecl (.var name ty (← Build.initializer init))
  | .function flavor name parms ret body => do
    let ty ← Build.functionType parms ret
    Build.pushDecl (.function flavor name ty parms (← Build.functionBody body))
  | .classType name ty => Build.pushDecl (.classType name ty .empty)
  | .field name ty init => do Build.pushDecl (.field name ty (← Build.initializer init))
  | .template parms d => Build.pushDecl (.template parms d none)
  | .concept name parms body => Build.pushDecl (.concept name parms body)
  | .conceptOf name parms body => do
    Build.pushDecl (.concept name parms (← Build.define (.expression body)))
  | .objectParm name ty => Build.pushDecl (.objectParm name ty)
  | .valueParm index name ty => Build.pushDecl (.valueParm index name ty)
  | .typeParm index name default => Build.pushDecl (.typeParm index name default)
  | .nameSpace _ => Build.unsupported "namespace-decl"

/-!
## Linking definitions to declarations

A function, a class or a concept may be declared first and defined later.  The
definition is built and then linked: it takes the place of the one that the
declaration had.  One template around the declaration is transparent; the
definition goes to what the template wraps.

A definition that was built stays in the graph even if nothing can be defined
by it.
-/

/-- The requests for linking a definition and for the definition linked. -/
inductive LinkRequest where
  /-- Link a definition that exists already. -/
  | attach (decl : DeclId) (definition : DefId)
  /-- Build a definition and link it. -/
  | define (decl : DeclId) (definition : DefKind)
  /-- Tell which definition is linked. -/
  | definitionOf (decl : DeclId)
  deriving DecidableEq, Inhabited

namespace LinkRequest

def function (d : DeclId) (body : StmtId) : LinkRequest := .define d (.function body)

def classBody (d : DeclId) (members : List DeclId) : LinkRequest := .define d (.classBody members)

def concept (d : DeclId) (expr : ExprId) : LinkRequest := .define d (.expression expr)

def requirements (d : DeclId) (reqs : List ReqId) : LinkRequest := .define d (.concept reqs)

def deleted (d : DeclId) : LinkRequest := .define d .deleted

def defaulted (d : DeclId) : LinkRequest := .define d .defaulted

end LinkRequest

/-- The definition linked to a declaration; one template around it is looked
through. -/
def Arena.definitionOf (a : Arena) (d : DeclId) : Except Fault DefId := do
  match ← a.decl (← a.parameterized d) with
  | .concept _ _ body => return body
  | kind =>
    match kind.definition? with
    | some body => return body
    | none => .error (.violated (.undefined kind.sort))

namespace Build

/-- Link a definition to a declaration, in the place of the one it had. -/
def attach (d : DeclId) (body : DefId) : Build Unit := do
  let target ← read fun cx => cx.arena.parameterized d
  let kind ← decl target
  match kind.define? body with
  | some defined => setDecl target defined
  | none => violation (.notDefinable kind.sort)

end Build

def LinkRequest.perform : LinkRequest → Build DefId
  | .attach d body => do
    Build.attach d body
    return body
  | .define d kind => do
    let body ← Build.define kind
    Build.attach d body
    return body
  | .definitionOf d => Build.read fun cx => cx.arena.definitionOf d

end TermGraph
