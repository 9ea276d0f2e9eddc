import TermGraph.Context

/-!
# Building names

How names are made, and how they are written in diagnostics, which a request for
a name may need when it is refused.
-/

namespace TermGraph.Context

/-!
## Spelling names

How names are written in diagnostics.  An identifier is its spelling; a
template or concept applied to arguments shows how many there are; a qualified
name shows its scope, and one in the global namespace begins with two colons.

Spelling one name may need the spelling of others, of the template it applies
or of the scope it is in, and these were made before it.
-/

/-- The spelling of a name that leads through fewer than `steps` others. -/
def spellWithin (cx : Context) : Nat → NameId → Except Fault String
  | 0, _ => .error .cyclic
  | steps + 1, n => do
    match ← cx.arena.name n with
    | .simple sym => cx.symbols.lookup sym
    | .placeholder k => return s!"__{k}"
    | .operator op => return s!"operator{op.spelling}"
    | .destructor _ => return "~<type>"
    | .template d args | .concept d args =>
      let base ← cx.spellWithin steps (← cx.arena.declName d)
      return s!"{base}<{args.length} args>"
    | .qualified scope name =>
      let inner ← cx.spellWithin steps name
      if scope = .globalNamespace then return s!"::{inner}"
      else
        let outer ← cx.spellWithin steps (← cx.arena.declName scope)
        return s!"{outer}::{inner}"
    | .global => return "::"

/-- The spelling of a name.  Names that spell one another without end apart,
spelling one leads through fewer others than there are names. -/
def spell (cx : Context) (n : NameId) : Except Fault String :=
  cx.spellWithin (cx.arena.names.size + 1) n

/-- The spelling of a declaration's name, with a stand-in for a declaration
that was given none. -/
def spellDecl (cx : Context) (d : DeclId) : Except Fault String := do
  let name ← cx.arena.declName d
  if name.isValid then cx.spell name else return "<anonymous>"

end TermGraph.Context

namespace TermGraph

/-!
## Requests for names

Every request for a name stores a new one, the name of the global namespace
apart, which is shared.
-/

inductive NameRequest where
  /-- An identifier of a spelling. -/
  | identifier (s : String)
  /-- An identifier of a spelling that has a symbol already. -/
  | ofSymbol (sym : Symbol)
  /-- A name unlike any other of the context. -/
  | placeholder
  | operator (op : Operator)
  | destructor (ty : TypeId)
  | templateId (template : DeclId) (args : List Term)
  | conceptId (concept : DeclId) (args : List Term)
  | qualified (scope : DeclId) (name : NameId)
  | global
  deriving DecidableEq, Inhabited

namespace Build

/-- A name unlike any other of the context. -/
def placeholderName : Build NameId := do
  pushName (.placeholder (← freshPlaceholder))

/-- Refuse a declaration that is not of the sort wanted, by its name. -/
def doesNotName {α : Type} (d : DeclId) (wanted : DeclSort) : Build α := do
  mistake (.doesNotName (← read fun cx => cx.spellDecl d) wanted)

def templateId (d : DeclId) (args : List Term) : Build NameId := do
  match ← decl d with
  | .template .. => pushName (.template d args)
  | _ => doesNotName d .template

def conceptId (d : DeclId) (args : List Term) : Build NameId := do
  match ← decl d with
  | .concept .. => pushName (.concept d args)
  | _ => doesNotName d .concept

end Build

def NameRequest.perform : NameRequest → Build NameId
  | .identifier s => do Build.pushName (.simple (← Build.symbol s))
  | .ofSymbol sym => Build.pushName (.simple sym)
  | .placeholder => Build.placeholderName
  | .operator op => Build.pushName (.operator op)
  | .destructor _ => Build.unsupported "destructor-id"
  | .templateId d args => Build.templateId d args
  | .conceptId d args => Build.conceptId d args
  | .qualified scope name => Build.pushName (.qualified scope name)
  | .global => return .global

end TermGraph
