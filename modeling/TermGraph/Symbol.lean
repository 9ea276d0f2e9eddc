import TermGraph.Fault
import TermGraph.Interner

/-!
# Symbols

Spellings are interned: a `Symbol` stands for a spelling and two symbols are
equal exactly when their spellings are.  The empty spelling is in every table
from the start, as symbol 0.
-/

namespace TermGraph

/-- An interned spelling. -/
structure Symbol where
  index : Nat
  deriving DecidableEq, Inhabited

def Symbol.empty : Symbol := ⟨0⟩

/-- Symbols with equal numbers are the same symbol. -/
theorem Symbol.index_inj {s t : Symbol} : s.index = t.index ↔ s = t :=
  ⟨fun e => by cases s; cases t; cases e; rfl, congrArg index⟩

def Symbol.text (s : Symbol) : String := s!"Symbol({s.index})"

/-- The spellings seen so far. -/
structure SymbolTable where
  spellings : Interner String

namespace SymbolTable

def fresh : SymbolTable := ⟨(Interner.empty.intern "").2⟩

instance : Inhabited SymbolTable := ⟨fresh⟩

/-- The symbol of a spelling, given to it now if it has none. -/
def intern (t : SymbolTable) (s : String) : Symbol × SymbolTable :=
  (⟨(t.spellings.intern s).1⟩, ⟨(t.spellings.intern s).2⟩)

/-- The symbol of a spelling, if it has one. -/
def get? (t : SymbolTable) (s : String) : Option Symbol := (t.spellings.find? s).map Symbol.mk

def lookup (t : SymbolTable) (sym : Symbol) : Except Fault String :=
  fetch t.spellings.entries sym.index

/-- How many spellings there are, the empty one included. -/
def size (t : SymbolTable) : Nat := t.spellings.size

/-- Whether nothing but the empty spelling has been seen. -/
def isEmpty (t : SymbolTable) : Bool := t.size ≤ 1

/-- The diagnostic text of a table: how many spellings it holds. -/
def text (t : SymbolTable) : String := s!"SymbolTable \x7b len: {t.size} \x7d"

end SymbolTable

end TermGraph
