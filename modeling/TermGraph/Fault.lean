import TermGraph.Decl.Basic
import TermGraph.Types.Basic

/-!
# Faults and failures

How a request comes to fail.  It makes no sense to begin with (`Fault`), or it
makes sense and is refused (`BuildError`).
-/

namespace TermGraph

/-!
## Faults

A fault is not an answer to a mistake in the program that is being built; it
says that a request made no sense to begin with.  Either a handle led outside
its table, or the request broke a rule of the term model that every caller has
to keep.  The wording of each is `Fault.message`.

Walks through the graph count their steps down from a bound that no walk
through a graph without cycles can reach; a walk that gets there is on a cycle
and ends with `Fault.cyclic`.
-/

/-- The rules of the term model that a request can break. -/
inductive Violation where
  /-- Another sort of declaration is needed here. -/
  | expectedDecl (wanted found : DeclSort)
  /-- Only object parameters are parameters of functions. -/
  | notObjectParameter (found : DeclSort)
  /-- Namespaces are of no type. -/
  | untypedNamespace
  /-- Only functions, classes and concepts are defined after their declaration. -/
  | notDefinable (found : DeclSort)
  /-- Parameters, templates and namespaces have no definition. -/
  | undefined (found : DeclSort)
  /-- A type still to be deduced belongs to no category. -/
  | uncategorized (kind : TypeKind)
  /-- A requires-clause needs a template header to stand on. -/
  | headlessConstraint
  | stated (what : String)
  deriving DecidableEq, Inhabited

/-- Why a request made no sense. -/
inductive Fault where
  /-- No entry of a table of this length has this index. -/
  | outOfBounds (len index : Nat)
  | violated (rule : Violation)
  /-- A walk came to no end. -/
  | cyclic
  deriving DecidableEq, Inhabited

/-- What diagnostics call a type that is to be deduced. -/
def TypeKind.placeholderText : TypeKind → String
  | .declauto => "Declauto"
  | .typename decl => s!"Typename({decl.text})"
  | .decltype expr => s!"Decltype({expr.text})"
  | _ => "Auto"

def Violation.message : Violation → String
  | .expectedDecl wanted found => s!"expected a {wanted.text} declaration, found a {found.text}"
  | .notObjectParameter found => s!"function parameter is a {found.text}, not an object parameter"
  | .untypedNamespace => "a namespace has no type"
  | .notDefinable found => s!"cannot attach a definition to a {found.text}"
  | .undefined found => s!"a {found.text} has no definition"
  | .uncategorized kind => s!"cannot categorize placeholder type {kind.placeholderText}"
  | .headlessConstraint => "requires-clause without a template header"
  | .stated what => what

def Fault.message : Fault → String
  | .outOfBounds len index => s!"index out of bounds: the len is {len} but the index is {index}"
  | .violated rule => s!"internal invariant violated: {rule.message}"
  | .cyclic => "the node contains itself"

/-- The entry of a table at an index, if the table reaches that far. -/
def fetch {α : Type} (table : Array α) (index : Nat) : Except Fault α :=
  match table[index]? with
  | some entry => .ok entry
  | none => .error (.outOfBounds table.size index)

/-- Fetching finds an entry exactly where the table has one. -/
theorem fetch_eq_ok {α : Type} {table : Array α} {index : Nat} {entry : α} :
    fetch table index = .ok entry ↔ table[index]? = some entry := by
  unfold fetch
  split <;> simp_all

/-- Fetching fails exactly past the end of the table. -/
theorem fetch_eq_error {α : Type} {table : Array α} {index : Nat} {fault : Fault} :
    fetch table index = .error fault ↔
      table.size ≤ index ∧ fault = .outOfBounds table.size index := by
  unfold fetch
  by_cases inside : index < table.size
  · simp [inside, Nat.not_le_of_lt inside]
  · simp [Nat.le_of_not_lt inside, eq_comm]

/-!
## Failures

A request for a new node ends in one of three ways: it succeeds, it is refused
because the program being built is wrong or uses something not supported yet
(`BuildError`), or it makes no sense (`Fault`).  A refusal is an ordinary
answer: it is reported and the work goes on.
-/

/-- The mistakes in a program that are noticed while it is built. -/
inductive Mistake where
  /-- A declaration is used as a sort that it is not. -/
  | doesNotName (spelled : String) (wanted : DeclSort)
  /-- Only objects, parameters and free functions can be referred to. -/
  | notReferable (spelled : String) (found : DeclSort)
  /-- Only fields and methods are members. -/
  | notMember (spelled : String) (found : DeclSort)
  | notCallable
  /-- A function is called with the right number of arguments. -/
  | wrongArity (expected given : Nat)
  | stated (message : String)
  deriving DecidableEq, Inhabited

def Mistake.message : Mistake → String
  | .doesNotName spelled wanted => s!"'{spelled}' does not name a {wanted.text}"
  | .notReferable spelled found => s!"'{spelled}' is a {found.text}, not an object or function"
  | .notMember spelled found => s!"'{spelled}' is a {found.text}, not a member"
  | .notCallable => "called object is not a function"
  | .wrongArity expected given => s!"function takes {expected} arguments but {given} were given"
  | .stated message => message

/-- Why a request was refused. -/
inductive BuildError where
  | semantic (mistake : Mistake)
  /-- The program may be right, but what it uses is not supported yet. -/
  | unsupported (feature : String)
  deriving DecidableEq, Inhabited

namespace BuildError

def message : BuildError → String
  | .semantic mistake => mistake.message
  | .unsupported feature => s!"unimplemented feature: {feature}"

/-- Whether something unsupported is to blame. -/
def isUnsupported : BuildError → Bool
  | .unsupported _ => true
  | .semantic _ => false

end BuildError

/-- Why a request did not succeed. -/
inductive Failure where
  | refused (error : BuildError)
  | broken (fault : Fault)
  deriving DecidableEq, Inhabited

def Failure.message : Failure → String
  | .refused error => error.message
  | .broken fault => fault.message

end TermGraph
