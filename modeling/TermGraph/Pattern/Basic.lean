import TermGraph.Pattern.CharClass
import TermGraph.Text.Alphanumeric

/-!
# Well-formed patterns

A pattern is a sequence of atoms, classes and groups, each perhaps repeated,
with bars between alternatives.  A group may switch flags, for itself or for
what follows in the group around it, and may be named; no two groups have the
same name, and groups that look ahead or behind are not known.  Whatever needs
closing braces is not well formed either, because patterns stand in braces and
the first one ends them.

What is well formed is what the documented syntax of the regular expressions
admits that `EnvFilter` takes for the values of fields.
`Pattern.isWellFormed` goes through a pattern once and keeps the groups that are
still open.  A pattern nested too deep is refused.
-/

namespace TermGraph.Pattern

/-- A part of a sequence: how deep it is nested and whether it can be repeated. -/
structure Item where
  depth : Nat
  repeatable : Bool
  deriving DecidableEq, Inhabited

/-- The depth of parts side by side; a single one is no deeper for it. -/
def depthTogether : List Nat → Nat
  | [] => 0
  | [d] => d
  | ds => ds.foldl max 0 + 1

/-- What has been read of a group. -/
structure Sequence where
  /-- The depths of the alternatives before the last bar. -/
  alternatives : List Nat
  /-- The items behind the last bar, the last one first. -/
  items : List Item
  deriving DecidableEq, Inhabited

namespace Sequence

def empty : Sequence := ⟨[], []⟩

def add (s : Sequence) (i : Item) : Sequence := { s with items := i :: s.items }

/-- The depth of the items behind the last bar. -/
def lastDepth (s : Sequence) : Nat := depthTogether (s.items.map Item.depth)

def bar (s : Sequence) : Sequence := ⟨s.lastDepth :: s.alternatives, []⟩

def depth (s : Sequence) : Nat := depthTogether (s.lastDepth :: s.alternatives)

/-- The sequence with its last item repeated, if it can be. -/
def repeated? (s : Sequence) : Option Sequence :=
  match s.items with
  | i :: rest => if i.repeatable then some { s with items := ⟨i.depth + 1, true⟩ :: rest } else none
  | [] => none

end Sequence

/-- What a parenthesis begins. -/
inductive Opening where
  | flags (m : Mode)
  /-- A group, perhaps with a name. -/
  | group (m : Mode) (name : Option (List Char))
  deriving DecidableEq, Inhabited

/-- A name up to the sign that ends it, and what is left behind that.  It begins
with a letter or an underscore; numbers, points and brackets may follow. -/
def groupName? (cs : List Char) : Option (List Char × List Char) :=
  let name := cs.takeWhile (· != '>')
  match name, cs.drop name.length with
  | first :: more, _ :: rest =>
    if (first == '_' || Text.isAlphabetic first) &&
        more.all fun c => Text.isAlphanumeric c || ['_', '.', '[', ']'].contains c then
      some (name, rest)
    else none
  | _, _ => none

/-- What a parenthesis begins, and what is left behind it. -/
def opening? (m : Mode) (cs : List Char) : Option (Opening × List Char) :=
  match m.skip cs with
  | '?' :: '=' :: _ | '?' :: '!' :: _ | '?' :: '<' :: '=' :: _ | '?' :: '<' :: '!' :: _ => none
  | '?' :: 'P' :: '<' :: rest | '?' :: '<' :: rest =>
    (groupName? rest).map fun (name, rest) => (.group m (some name), rest)
  | '?' :: rest =>
    match Mode.switches? [] false false rest with
    | some (flags, ':' :: rest) => some (.group (m.switchAll flags) none, rest)
    | some (flag :: flags, _ :: rest) => some (.flags (m.switchAll (flag :: flags)), rest)
    | _ => none
  | rest => some (.group m none, rest)

/-- An atom outside of brackets, and what is left behind it. -/
def atom? (m : Mode) : List Char → Option (Atom × List Char)
  | [] => none
  | '\\' :: rest => escape? m rest
  | '.' :: rest => some (.any, rest)
  | '^' :: rest | '$' :: rest => some (.anchor, rest)
  | c :: rest => some (.literal c false, rest)

/-- Go through a pattern: the depth of the whole.  `outer` holds the groups that
are open, each with the mode to go back to, and `names` the names used.  Every
step takes a character, so `steps` need not be more than there are. -/
def read (names : List (List Char)) :
    Nat → Mode → List (Mode × Sequence) → Sequence → List Char → Option Nat
  | 0, _, _, _, _ => none
  | steps + 1, m, outer, s, cs =>
    match m.skip cs with
    | [] => if outer.isEmpty then some s.depth else none
    | '(' :: rest =>
      match opening? m rest with
      | none => none
      | some (.flags m', rest) => read names steps m' outer (s.add ⟨0, false⟩) rest
      | some (.group m' none, rest) => read names steps m' ((m, s) :: outer) .empty rest
      | some (.group m' (some name), rest) =>
        if names.contains name then none
        else read (name :: names) steps m' ((m, s) :: outer) .empty rest
    | ')' :: rest =>
      match outer with
      | [] => none
      | (m', s') :: outer => read names steps m' outer (s'.add ⟨s.depth + 1, true⟩) rest
    | '|' :: rest => read names steps m outer s.bar rest
    | '[' :: rest =>
      (characterClass? m rest).bind fun (depth, rest) =>
        read names steps m outer (s.add ⟨depth, true⟩) rest
    | '\x7b' :: _ => none
    | '*' :: rest | '+' :: rest | '?' :: rest =>
      s.repeated?.bind fun s =>
        read names steps m outer s (if rest.head? == some '?' then rest.drop 1 else rest)
    | rest =>
      (atom? m rest).bind fun (atom, rest) =>
        if atom.isAdmissible m then read names steps m outer (s.add ⟨0, true⟩) rest else none

/-- How deep a pattern may be nested. -/
def depthLimit : Nat := 250

/-- Whether a pattern is well formed. -/
def isWellFormed (cs : List Char) : Bool :=
  match read [] (cs.length + 1) .initial [] .empty cs with
  | some depth => depth ≤ depthLimit
  | none => false

end TermGraph.Pattern
