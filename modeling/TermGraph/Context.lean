import TermGraph.Fault
import TermGraph.Table
import TermGraph.Text.Basic

/-!
# Contexts

What a term graph is built in: the settings, all tables together, and the
primitive constructions that read and change them.
-/

namespace TermGraph

/-!
## Settings

What the target machine decides about types.  The width of the two plain
integer types can be set through an environment variable; every value that is
not one of the five widths is ignored.
-/

structure Config where
  intPrecision : Nat
  /-- How many types a graph is expected to hold. -/
  typeTableCapacity : Nat
  deriving DecidableEq, Inhabited

namespace Config

/-- The settings when nothing is set. -/
def standard : Config := ⟨32, 256⟩

/-- The variable that sets the width of the plain integer types. -/
def intPrecisionVariable : String := "TENON_INT_PRECISION"

/-- The widths that can be set. -/
def widths : List Nat := [8, 16, 32, 64, 128]

/-- The width that a setting asks for: one of the widths, with blanks around it. -/
def width? (setting : String) : Option Nat :=
  (Text.number? (Text.trim setting.toList)).filter widths.contains

/-- The settings that an environment asks for. -/
def ofLookup (lookup : String → Option String) : Config :=
  match (lookup intPrecisionVariable).bind width? with
  | some width => { standard with intPrecision := width }
  | none => standard

end Config

/-!
## Contexts and constructions

A context owns every table of one term graph: the spellings, the arena, the
types and the constraints, and the number of the next name it makes up.
Contexts share nothing, so handles of one mean nothing in another.

A construction is a `Build`: it reads and changes the context and may fail.
A failure does not undo what was done before it, so the context after a failed
construction is part of the answer.  The few primitive constructions are
defined here: reading (`Build.read`), storing a node (`Build.push…`) and
interning.  The others are put together from them.
-/

/-- The tables of one term graph. -/
structure Context where
  config : Config
  symbols : SymbolTable
  arena : Arena
  types : TypeTable
  constraints : ConstraintTable
  /-- The number of the next name that is made up. -/
  nextPlaceholder : Nat

namespace Context

/-- The context that holds only what every graph starts with. -/
def create (config : Config) (digest : List Nat → UInt64) : Context where
  config := config
  symbols := .fresh
  arena := .fresh
  types := .fresh
  constraints := .fresh digest
  nextPlaceholder := 0

def ofConfig (config : Config) : Context := create config ConstraintTable.polynomialDigest

instance : Inhabited Context := ⟨ofConfig .standard⟩

def type (cx : Context) (ty : TypeId) : Except Fault TypeKind := cx.types.kind ty

def constraint (cx : Context) (c : ConsId) : Except Fault ConstraintKind := cx.constraints.kind c

/-- The diagnostic text of a context: how much it holds. -/
def text (cx : Context) : String :=
  s!"Context \x7b types: {cx.types.size}, constraints: {cx.constraints.size}, " ++
    s!"exprs: {cx.arena.exprs.size}, decls: {cx.arena.decls.size}, .. \x7d"

/-- The diagnostic text of a context that several users share.  While one of
them has it locked nothing of it is shown. -/
def sharedText (cx : Context) (locked : Bool) : String :=
  if locked then "SharedContext(<locked>)" else s!"SharedContext({cx.text})"

end Context

/-- A construction: it may change the context and it may fail, and what it
changed before it failed stays changed. -/
abbrev Build := ExceptT Failure (StateM Context)

namespace Build

variable {α : Type}

def runOn (b : Build α) (cx : Context) : Except Failure α × Context := b cx

def read (look : Context → Except Fault α) : Build α := fun cx => ((look cx).mapError .broken, cx)

def change (step : Context → α × Context) : Build α := fun cx =>
  let (answer, cx') := step cx
  (.ok answer, cx')

/-- The program being built is wrong. -/
def mistake (m : Mistake) : Build α := throw (.refused (.semantic m))

/-- The program being built uses something that is not supported yet. -/
def unsupported (feature : String) : Build α := throw (.refused (.unsupported feature))

/-- The request makes no sense. -/
def violation (rule : Violation) : Build α := throw (.broken (.violated rule))

def symbol (s : String) : Build Symbol := change fun cx =>
  let (sym, symbols) := cx.symbols.intern s
  (sym, { cx with symbols })

def pushName (kind : NameKind) : Build NameId := change fun cx =>
  let (id, arena) := cx.arena.pushName kind
  (id, { cx with arena })

def pushExpr (kind : ExprKind) (ty : TypeId) : Build ExprId := change fun cx =>
  let (id, arena) := cx.arena.pushExpr kind ty
  (id, { cx with arena })

def pushStmt (kind : StmtKind) : Build StmtId := change fun cx =>
  let (id, arena) := cx.arena.pushStmt kind
  (id, { cx with arena })

def pushDecl (kind : DeclKind) : Build DeclId := change fun cx =>
  let (id, arena) := cx.arena.pushDecl kind
  (id, { cx with arena })

def pushDef (kind : DefKind) : Build DefId := change fun cx =>
  let (id, arena) := cx.arena.pushDef kind
  (id, { cx with arena })

def pushReq (kind : ReqKind) : Build ReqId := change fun cx =>
  let (id, arena) := cx.arena.pushReq kind
  (id, { cx with arena })

def setDecl (d : DeclId) (kind : DeclKind) : Build Unit := fun cx =>
  match cx.arena.setDecl d kind with
  | .ok arena => (.ok (), { cx with arena })
  | .error fault => (.error (.broken fault), cx)

/-- The type of a structure. -/
def internType (kind : TypeKind) : Build TypeId := change fun cx =>
  let (id, types) := cx.types.intern kind
  (id, { cx with types })

/-- The constraint of a structure.  If comparing structures fails, nothing is
changed. -/
def internConstraint (kind : ConstraintKind) : Build ConsId := fun cx =>
  match cx.constraints.intern cx.arena kind with
  | .ok (id, constraints) => (.ok id, { cx with constraints })
  | .error fault => (.error (.broken fault), cx)

/-- A number that no name made up before has. -/
def freshPlaceholder : Build Nat := change fun cx =>
  (cx.nextPlaceholder, { cx with nextPlaceholder := cx.nextPlaceholder + 1 })

def type (ty : TypeId) : Build TypeKind := read fun cx => cx.type ty

def decl (d : DeclId) : Build DeclKind := read fun cx => cx.arena.decl d

end Build

end TermGraph
