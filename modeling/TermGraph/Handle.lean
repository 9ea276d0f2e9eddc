/-!
# Handles

Every node of a term graph lives in a table and is named by its position
there.  There are eight tables, so there are eight kinds of position, and a
`Handle c` is a position in the table of category `c`: a handle of one
category can never be used to look into the table of another.

Two handles are equal exactly when they name the same node; nothing about the
node itself is compared.  One handle of each category, `Handle.invalid`, is
set aside to say "no node", and a few nodes that every graph starts with have
handles of their own (`NameId.global`, `TypeId.bool`, `DefId.deleted`, …).
-/

namespace TermGraph

/-- The tables that a term graph is made of. -/
inductive Category where
  | name
  | type
  | expr
  | stmt
  | decl
  | definition
  | requirement
  | constraint
  deriving DecidableEq, Inhabited

/-- What a handle of the category is called in diagnostics. -/
def Category.handleLabel : Category → String
  | .name => "NameId"
  | .type => "TypeId"
  | .expr => "ExprId"
  | .stmt => "StmtId"
  | .decl => "DeclId"
  | .definition => "DefId"
  | .requirement => "ReqId"
  | .constraint => "ConsId"

/-- A position in the table of category `c`. -/
structure Handle (c : Category) where
  index : Nat
  deriving DecidableEq, Inhabited

namespace Handle

variable {c : Category}

/-- The largest position a table can have; it is set aside for "no node". -/
def noIndex : Nat := 4294967295

/-- The handle that names no node. -/
def invalid : Handle c := ⟨noIndex⟩

/-- A handle is valid when it is not the one set aside. -/
def isValid (h : Handle c) : Bool := h.index != noIndex

/-- Equal positions in the table of one category are the same handle. -/
theorem index_inj {g h : Handle c} : g.index = h.index ↔ g = h :=
  ⟨fun e => by cases g; cases h; cases e; rfl, congrArg index⟩

/-- Lists of handles with equal positions throughout are equal. -/
theorem map_index_inj {gs hs : List (Handle c)} : gs.map index = hs.map index ↔ gs = hs :=
  List.map_inj_right fun _ _ => index_inj.mp

/-- The diagnostic text of a handle: its label and its position. -/
def text (h : Handle c) : String :=
  if h.isValid then s!"{c.handleLabel}({h.index})" else s!"{c.handleLabel}::INVALID"

end Handle

/-- A name as written. -/
abbrev NameId := Handle .name
/-- An interned type. -/
abbrev TypeId := Handle .type
abbrev ExprId := Handle .expr
abbrev StmtId := Handle .stmt
abbrev DeclId := Handle .decl
abbrev DefId := Handle .definition
abbrev ReqId := Handle .requirement
/-- An interned constraint. -/
abbrev ConsId := Handle .constraint

/-- The name of the global namespace, present in every graph. -/
def NameId.global : NameId := ⟨0⟩

/-- The type without values. -/
def TypeId.void : TypeId := ⟨0⟩
/-- The type of truth values. -/
def TypeId.bool : TypeId := ⟨1⟩
/-- The type of types. -/
def TypeId.type : TypeId := ⟨2⟩

/-- The global namespace, present in every graph. -/
def DeclId.globalNamespace : DeclId := ⟨0⟩

/-- The definition shared by everything not defined yet. -/
def DefId.empty : DefId := ⟨0⟩
/-- The definition shared by everything deleted. -/
def DefId.deleted : DefId := ⟨1⟩
/-- The definition shared by everything defaulted. -/
def DefId.defaulted : DefId := ⟨2⟩

/-- Whether a definition is one of the three shared ones. -/
def DefId.isSentinel (d : DefId) : Bool := d.index ≤ DefId.defaulted.index

end TermGraph
