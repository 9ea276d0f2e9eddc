import TermGraph.Symbol
import TermGraph.Node

/-!
# Names

The structure of a name as it is written in a declaration or an id-expression.
Names are per-occurrence nodes: the same identifier written twice is two names
with one symbol.
-/

namespace TermGraph

/-- The operators that a program can define for its own types. -/
inductive Operator where
  | add | sub | mul | div | rem
  | bitAnd | bitOr | bitXor | bitNot
  | lsh | rsh
  | eq | ne | lt | gt | le | ge
  | and | or | not
  | assign | call | index
  deriving DecidableEq, Inhabited

namespace Operator

def all : List Operator :=
  [.add, .sub, .mul, .div, .rem, .bitAnd, .bitOr, .bitXor, .bitNot, .lsh, .rsh,
    .eq, .ne, .lt, .gt, .le, .ge, .and, .or, .not, .assign, .call, .index]

/-- An operator as it is written. -/
def spelling : Operator → String
  | .add => "+" | .sub => "-" | .mul => "*" | .div => "/" | .rem => "%"
  | .bitAnd => "&" | .bitOr => "|" | .bitXor => "^" | .bitNot => "~"
  | .lsh => "<<" | .rsh => ">>"
  | .eq => "==" | .ne => "!=" | .lt => "<" | .gt => ">" | .le => "<=" | .ge => ">="
  | .and => "&&" | .or => "||" | .not => "!"
  | .assign => "=" | .call => "()" | .index => "[]"

/-- A number for each operator, its place in `all`. -/
def toNat : Operator → Nat
  | .add => 0 | .sub => 1 | .mul => 2 | .div => 3 | .rem => 4
  | .bitAnd => 5 | .bitOr => 6 | .bitXor => 7 | .bitNot => 8
  | .lsh => 9 | .rsh => 10
  | .eq => 11 | .ne => 12 | .lt => 13 | .gt => 14 | .le => 15 | .ge => 16
  | .and => 17 | .or => 18 | .not => 19
  | .assign => 20 | .call => 21 | .index => 22

/-- At its number an operator stands in the list of all. -/
theorem all_toNat (o : Operator) : all[o.toNat]? = some o := by
  cases o <;> rfl

/-- Operators have different numbers. -/
theorem toNat_inj {o p : Operator} : o.toNat = p.toNat ↔ o = p :=
  ⟨fun e => Option.some.inj (by rw [← all_toNat o, e, all_toNat]), congrArg toNat⟩

end Operator

inductive NameKind where
  | simple (sym : Symbol)
  /-- A name the compiler made up. -/
  | placeholder (n : Nat)
  /-- The name of an operator function. -/
  | operator (op : Operator)
  /-- The name of the destructor of a type. -/
  | destructor (ty : TypeId)
  | template (template : DeclId) (args : List Term)
  | concept (concept : DeclId) (args : List Term)
  /-- A name looked up in a scope. -/
  | qualified (scope : DeclId) (name : NameId)
  /-- The name of the global namespace. -/
  | global
  deriving DecidableEq, Inhabited

/-- The spelling of an identifier. -/
def NameKind.symbol? : NameKind → Option Symbol
  | .simple sym => some sym
  | _ => none

end TermGraph
