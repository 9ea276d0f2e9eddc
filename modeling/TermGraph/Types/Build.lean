import TermGraph.Context
import TermGraph.Name.Build

/-!
# Building types

How types are made, and which of them are types of values.
-/

namespace TermGraph

/-!
## Requests for types

Every request for a type interns it, so asking twice gives the same handle.

Qualifiers add up instead of nesting: qualifying a qualified type gives the
one wrapper over the same base with the qualifiers of both, and qualifying by
nothing gives the type itself.  A class type is named by the class inside a
template, a type parameter's type by the parameter itself, and either has to
be declared as what it is.
-/

inductive TypeRequest where
  | void
  | bool
  | byte
  | integer (signed : Bool) (precision : Nat)
  /-- The plain signed integer type, of the width that the settings say. -/
  | int
  /-- The plain unsigned integer type, of the width that the settings say. -/
  | uint
  | float
  | auto
  | declauto
  | typeOfTypes
  /-- The type of a type parameter that is made up for it. -/
  | placeholder
  | decltype (expr : ExprId)
  /-- The type of a function with these parameter declarations. -/
  | function (parms : List DeclId) (ret : TypeId)
  /-- The type of a function with these parameter types. -/
  | functionOf (params : List TypeId) (ret : TypeId)
  | qualified (ty : TypeId) (quals : Qualifiers)
  | wrapped (wrapper : Wrapper) (ty : TypeId)
  | array (elem : TypeId) (extent : ExprId)
  | dynarray (elem : TypeId) (extent : ExprId)
  | typename (parm : DeclId)
  | synthetic (decl : DeclId)
  | user (decl : DeclId)
  | union (decl : DeclId)
  | enum (decl : DeclId)
  /-- The type that a declaration gives to expressions. -/
  | declared (decl : DeclId)
  deriving DecidableEq, Inhabited

namespace TypeRequest

/-- The type with the qualifier for constants. -/
def const (ty : TypeId) : TypeRequest := .qualified ty .justConst

/-- The type with the qualifier for volatile objects. -/
def volatile (ty : TypeId) : TypeRequest := .qualified ty .justVolatile

end TypeRequest

/-- The type without its qualifiers, and the qualifiers. -/
def Context.splitQualifiers (cx : Context) (ty : TypeId) : Except Fault (TypeId × Qualifiers) := do
  match ← cx.type ty with
  | .qualified base quals => return (base, quals)
  | _ => return (ty, .none)

/-- The type of the parameter that a declaration declares. -/
def Arena.parameterType (a : Arena) (d : DeclId) : Except Fault TypeId := do
  match ← a.decl d with
  | .objectParm _ ty => return ty
  | other => .error (.violated (.notObjectParameter other.sort))

namespace Build

/-- The type qualified by a set of qualifiers. -/
def qualifiedType (ty : TypeId) (quals : Qualifiers) : Build TypeId := do
  if quals.isEmpty then return ty
  else
    let (base, held) ← read fun cx => cx.splitQualifiers ty
    internType (.qualified base (held.union quals))

/-- The type of a function with these parameter declarations. -/
def functionType (parms : List DeclId) (ret : TypeId) : Build TypeId := do
  let params ← read fun cx => parms.mapM cx.arena.parameterType
  internType (.function params ret)

/-- The type that a type parameter stands for. -/
def typenameType (parm : DeclId) : Build TypeId := do
  match ← decl parm with
  | .typeParm .. => internType (.typename parm)
  | other => violation (.expectedDecl .typeParameter other.sort)

/-- A type unlike any other of the context: that of a type parameter which is
made up for it. -/
def placeholderType : Build TypeId := do
  let name ← placeholderName
  let parm ← pushDecl (.typeParm ⟨0, 0⟩ name none)
  typenameType parm

/-- The type that a class declares; one template around the class is looked
through. -/
def userType (d : DeclId) : Build TypeId := do
  let target ← read fun cx => cx.arena.parameterized d
  match ← decl target with
  | .classType .. => internType (.user target)
  | other => violation (.expectedDecl .classType other.sort)

/-- The type that a declaration gives to expressions: that of objects, fields
and functions is the type they were declared with, that of a class is the
class type, a type parameter is a type and a concept a truth value.  Templates
are looked through. -/
def declaredType (d : DeclId) : Build TypeId := do
  let (core, kind) ← read fun cx => cx.arena.core d
  match kind with
  | .superclass _ ty _ | .var _ ty _ | .function _ _ ty _ _ | .field _ ty _ | .objectParm _ ty
  | .valueParm _ _ ty => return ty
  | .classType .. => userType core
  | .typeParm .. => return .type
  | .concept .. => return .bool
  | .template .. | .nameSpace .. => violation .untypedNamespace

/-- The plain integer type, of the width that the settings say. -/
def plainInteger (signed : Bool) : Build TypeId := do
  internType (.integer signed (← get).config.intPrecision)

end Build

def TypeRequest.perform : TypeRequest → Build TypeId
  | .void => return .void
  | .bool => return .bool
  | .byte => Build.internType .byte
  | .integer signed precision => Build.internType (.integer signed precision)
  | .int => Build.plainInteger true
  | .uint => Build.plainInteger false
  | .float => Build.internType .float
  | .auto => Build.internType .auto
  | .declauto => Build.internType .declauto
  | .typeOfTypes => return .type
  | .placeholder => Build.placeholderType
  | .decltype _ => Build.unsupported "decltype-type"
  | .function parms ret => Build.functionType parms ret
  | .functionOf params ret => Build.internType (.function params ret)
  | .qualified ty quals => Build.qualifiedType ty quals
  | .wrapped wrapper ty => Build.internType (.wrapped wrapper ty)
  | .array .. => Build.unsupported "array-type"
  | .dynarray .. => Build.unsupported "dynarray-type"
  | .typename parm => Build.typenameType parm
  | .synthetic d => Build.internType (.synthetic d)
  | .user d => Build.userType d
  | .union d => Build.internType (.union d)
  | .enum d => Build.internType (.enum d)
  | .declared d => Build.declaredType d

end TermGraph

namespace TermGraph.Context

/-!
## Value types

A value type is one whose values can be stored, copied and compared.
Functions and references are not.  Qualifiers, parameter passing modes and
packs do not change the category of the type they wrap, and a type that is
still to be deduced has none.
-/

/-- Whether a type under fewer than `steps` wrappers is a value type. -/
def isValueTypeWithin (cx : Context) : Nat → TypeId → Except Fault Bool
  | 0, _ => .error .cyclic
  | steps + 1, ty => do
    match ← cx.type ty with
    | .void | .boolean | .byte | .integer .. | .float | .wrapped .pointer _ | .array ..
    | .wrapped .slice _ | .dynarray .. | .user _ | .union _ | .enum _ | .typeOfTypes
    | .synthetic _ => return true
    | .function .. | .wrapped .reference _ => return false
    | .qualified inner _ | .wrapped .input inner | .wrapped .output inner
    | .wrapped .mutable inner | .wrapped .consume inner | .wrapped .forward inner
    | .wrapped .pack inner => cx.isValueTypeWithin steps inner
    | kind@.auto | kind@.declauto | kind@(.typename _) | kind@(.decltype _) =>
      .error (.violated (.uncategorized kind))

/-- Whether a type is a value type.  A type is under fewer wrappers than there
are types. -/
def isValueType (cx : Context) (ty : TypeId) : Except Fault Bool :=
  cx.isValueTypeWithin (cx.types.size + 1) ty

end TermGraph.Context
