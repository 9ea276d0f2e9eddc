import TermGraph.Pattern.Atom

/-!
# Character classes

A class in brackets lists characters, ranges and other classes, may be negated,
and may be put together from such lists by set operations, the earlier ones
first.  A closing bracket in the first place and minus signs in front stand for
themselves.

Where a pattern is about bytes a class must hold no byte beyond ASCII, since
such a byte is no character.  All members of a list keep to that, and so does
what set operations make of them, so a class is admissible unless it is negated.
A mode that ignores case has no characters to list.

All this is the documented syntax of classes in the same regular expressions.
-/

namespace TermGraph.Pattern

/-- A class that is being read, with the depths of the sets in it. -/
structure OpenClass where
  negated : Bool
  /-- Nothing but minus signs has been read yet. -/
  opening : Bool
  /-- The depth of the set to the left of the last operation. -/
  left : Option Nat
  /-- How many members the list has that is being read. -/
  members : Nat
  /-- The greatest depth of these members. -/
  deepest : Nat
  deriving DecidableEq, Inhabited

namespace OpenClass

/-- A class of which nothing but the negation has been read. -/
def start (negated : Bool) : OpenClass := ⟨negated, true, none, 0, 0⟩

def add (k : OpenClass) (depth : Nat) : OpenClass :=
  { k with members := k.members + 1, deepest := max k.deepest depth }

/-- The depth of the list that is being read; of a single member it is no more. -/
def listDepth (k : OpenClass) : Nat := if k.members ≤ 1 then k.deepest else k.deepest + 1

/-- The depth of all that has been read. -/
def depth (k : OpenClass) : Nat :=
  match k.left with
  | none => k.listDepth
  | some left => max left k.listDepth + 1

/-- The class behind a set operation. -/
def operate (k : OpenClass) : OpenClass :=
  { k with left := some k.depth, members := 0, deepest := 0 }

/-- The depth of the class when it is closed, if it is admissible. -/
def close? (m : Mode) (k : OpenClass) : Option Nat :=
  if !m.unicode && k.negated then none else some (k.depth + 1)

end OpenClass

/-- Whether an atom is admissible as a member of a class. -/
def Atom.isMember (m : Mode) : Atom → Bool
  | .literal c _ => if m.unicode then !m.caseless else c.toNat < 128
  | .shorthand negated => !m.unicode && !negated
  | _ => false

/-- Whether two atoms make a range that is admissible as a member of a class. -/
def isRange (m : Mode) : Atom → Atom → Bool
  | .literal a p, .literal b q =>
    a ≤ b && Atom.isMember m (.literal a p) && Atom.isMember m (.literal b q)
  | _, _ => false

def classNames : List String :=
  ["alnum", "alpha", "ascii", "blank", "cntrl", "digit", "graph", "lower", "print", "punct",
    "space", "upper", "word", "xdigit"]

/-- A class by its name between colons and brackets: whether it is negated, and
what is left behind it. -/
def named? : List Char → Option (Bool × List Char)
  | ':' :: cs =>
    let negated := cs.head? == some '^'
    let cs := if negated then cs.drop 1 else cs
    let name := cs.takeWhile (· != ':')
    match cs.drop name.length with
    | ':' :: ']' :: rest =>
      if classNames.contains (String.ofList name) then some (negated, rest) else none
    | _ => none
  | _ => none

/-- An atom between brackets, and what is left behind it. -/
def classAtom? (m : Mode) : List Char → Option (Atom × List Char)
  | [] => none
  | '\\' :: rest => escape? m rest
  | c :: rest => some (.literal c false, rest)

/-- What is left behind a member that begins with an atom: the atom, or a range
from it to another one.  A minus sign in front of a closing bracket or of another
minus sign makes no range. -/
def member? (m : Mode) (cs : List Char) : Option (List Char) :=
  (classAtom? m cs).bind fun (first, rest) =>
    match m.skip rest with
    | '-' :: behind =>
      if m.peek? behind == some ']' || m.peek? behind == some '-' then
        if first.isMember m then some ('-' :: behind) else none
      else
        (classAtom? m (m.skip behind)).bind fun (last, rest) =>
          if isRange m first last then some rest else none
    | rest => if first.isMember m then some rest else none

/-- A class that begins behind an opening bracket. -/
def openClass (m : Mode) (cs : List Char) : OpenClass × List Char :=
  match m.skip cs with
  | '^' :: rest => (.start true, rest)
  | rest => (.start false, rest)

/-- Read classes in brackets up to the end of the outermost: its depth and what
is left behind it.  Every step takes a character, so `steps` need not be more
than there are. -/
def readClass (m : Mode) : Nat → List OpenClass → OpenClass → List Char → Option (Nat × List Char)
  | 0, _, _, _ => none
  | steps + 1, outer, k, cs =>
    let add (k : OpenClass) (rest : List Char) := readClass m steps outer (k.add 0) rest
    let k' := { k with opening := false }
    match m.skip cs with
    | [] => none
    | '-' :: rest =>
      if k.opening then if Atom.isMember m (.literal '-' false) then add k rest else none
      else
        match rest with
        | '-' :: rest => readClass m steps outer k'.operate rest
        | _ => (member? m ('-' :: rest)).bind (add k')
    | ']' :: rest =>
      if k.opening && k.members == 0 then
        if Atom.isMember m (.literal ']' false) then add k' rest else none
      else
        (k.close? m).bind fun depth =>
          match outer with
          | [] => some (depth, rest)
          | around :: outer => readClass m steps outer (around.add depth) rest
    | '[' :: rest =>
      match named? rest with
      | some (negated, rest) =>
        if if m.unicode then m.caseless else negated then none else add k' rest
      | none =>
        let (inner, rest) := openClass m rest
        readClass m steps (k' :: outer) inner rest
    | '&' :: '&' :: rest | '~' :: '~' :: rest => readClass m steps outer k'.operate rest
    | rest => (member? m rest).bind (add k')

/-- Read the class behind an opening bracket: its depth and what is left behind
it. -/
def characterClass? (m : Mode) (cs : List Char) : Option (Nat × List Char) :=
  let (k, rest) := openClass m cs
  readClass m (rest.length + 1) [] k rest

end TermGraph.Pattern
