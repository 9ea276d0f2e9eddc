import TermGraph.Handle

/-!
# Declarations

The structure of a declaration.  Functions, variables, classes, fields and
base classes share one layout: a name, a type and a slot for a definition.
Concepts have a slot of their own.  A template wraps exactly one declaration
and has no name; the name is that of what it wraps, which only the table of
declarations can tell.
-/

namespace TermGraph

/-- Free functions and member functions have the same layout. -/
inductive FunctionFlavor where
  | free
  | method
  deriving DecidableEq, Inhabited

/-- The place of a template parameter: how deep its list is nested and where
in the list it stands. -/
structure ParmIndex where
  depth : Nat
  offset : Nat
  deriving DecidableEq, Inhabited

inductive DeclKind where
  /-- A base class as a part of the class derived from it. -/
  | superclass (name : NameId) (ty : TypeId) (body : DefId)
  | var (name : NameId) (ty : TypeId) (body : DefId)
  | function (flavor : FunctionFlavor) (name : NameId) (ty : TypeId) (parms : List DeclId)
      (body : DefId)
  /-- A class; its type is the kind of the type that it declares. -/
  | classType (name : NameId) (ty : TypeId) (body : DefId)
  | field (name : NameId) (ty : TypeId) (body : DefId)
  /-- A template over one declaration, with a constraint or without. -/
  | template (parms : List DeclId) (decl : DeclId) (constraint : Option ExprId)
  | concept (name : NameId) (parms : List DeclId) (body : DefId)
  | objectParm (name : NameId) (ty : TypeId)
  | valueParm (index : ParmIndex) (name : NameId) (ty : TypeId)
  | typeParm (index : ParmIndex) (name : NameId) (default : Option TypeId)
  | nameSpace (name : NameId) (members : List DeclId)
  deriving DecidableEq, Inhabited

/-- The sorts of declaration that diagnostics tell apart. -/
inductive DeclSort where
  | baseClass
  | variableDecl
  | function
  | method
  | classType
  | field
  | template
  | concept
  | parameter
  | valueParameter
  | typeParameter
  | nameSpace
  deriving DecidableEq, Inhabited

def DeclSort.text : DeclSort → String
  | .baseClass => "base class"
  | .variableDecl => "variable"
  | .function => "function"
  | .method => "method"
  | .classType => "class"
  | .field => "field"
  | .template => "template"
  | .concept => "concept"
  | .parameter => "parameter"
  | .valueParameter => "value parameter"
  | .typeParameter => "type parameter"
  | .nameSpace => "namespace"

namespace DeclKind

def sort : DeclKind → DeclSort
  | .superclass .. => .baseClass
  | .var .. => .variableDecl
  | .function .free .. => .function
  | .function .method .. => .method
  | .classType .. => .classType
  | .field .. => .field
  | .template .. => .template
  | .concept .. => .concept
  | .objectParm .. => .parameter
  | .valueParm .. => .valueParameter
  | .typeParm .. => .typeParameter
  | .nameSpace .. => .nameSpace

/-- The declared name; a template has none of its own. -/
def name? : DeclKind → Option NameId
  | .superclass name .. | .var name .. | .function _ name .. | .classType name .. | .field name ..
  | .concept name .. | .objectParm name .. | .valueParm _ name .. | .typeParm _ name ..
  | .nameSpace name .. => some name
  | .template .. => none

/-- The definition, for the kinds that have the shared layout. -/
def definition? : DeclKind → Option DefId
  | .superclass _ _ body | .var _ _ body | .function _ _ _ _ body | .classType _ _ body
  | .field _ _ body => some body
  | _ => none

/-- The declaration with another definition, for the kinds that can be defined
after they have been declared: functions, classes and concepts. -/
def define? (body : DefId) : DeclKind → Option DeclKind
  | .function flavor name ty parms _ => some (.function flavor name ty parms body)
  | .classType name ty _ => some (.classType name ty body)
  | .concept name parms _ => some (.concept name parms body)
  | _ => none

end DeclKind

end TermGraph
