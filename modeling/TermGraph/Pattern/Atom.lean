import TermGraph.Text.Basic

/-!
# Atoms of patterns

Fields of directives may be compared with patterns.  These follow the documented
syntax of the regular expressions that `EnvFilter` admits for the values of
fields, without the tables of characters, which it is built without.
-/

namespace TermGraph.Pattern

/-!
## Modes

Texts can be compared with patterns, regular expressions in the usual notation.
The modules here decide whether a pattern is well formed; what it matches is
not their subject.

How a part of a pattern is read depends on flags, which can be switched inside
the pattern.  Of the seven flags three matter for whether a pattern is well
formed: ignoring case, reading characters and not bytes, and skipping blanks and
comments (`Mode`).
-/

structure Mode where
  /-- Upper and lower case letters are not told apart. -/
  caseless : Bool
  /-- The pattern is about characters; otherwise it is about bytes. -/
  unicode : Bool
  /-- Blanks and comments between the parts are skipped. -/
  spaced : Bool
  deriving DecidableEq, Inhabited

namespace Mode

/-- The flags in force where a pattern begins. -/
def initial : Mode := ⟨false, true, false⟩

/-- What comes behind blanks and comments.  A comment goes up to the end of its
line, and `comment` says whether one has begun. -/
def skipSpace (comment : Bool) : List Char → List Char
  | [] => []
  | c :: rest =>
    if comment then skipSpace (c != '\n') rest
    else if Text.isBlank c then skipSpace false rest
    else if c == '#' then skipSpace true rest
    else c :: rest

def skip (m : Mode) (cs : List Char) : List Char := if m.spaced then skipSpace false cs else cs

/-- The next character that counts, by a look ahead which takes a comment to end
with the blanks behind its mark. -/
def peek? (m : Mode) (cs : List Char) : Option Char :=
  if m.spaced then
    match cs.dropWhile Text.isBlank with
    | '#' :: rest => (rest.dropWhile Text.isBlank).head?
    | rest => rest.head?
  else cs.head?

def letters : List Char := ['i', 'm', 's', 'U', 'u', 'R', 'x']

/-- The mode with a flag switched. -/
def switch (m : Mode) (letter : Char) (on : Bool) : Mode :=
  match letter with
  | 'i' => { m with caseless := on }
  | 'u' => { m with unicode := on }
  | 'x' => { m with spaced := on }
  | _ => m

/-- The flags that are switched, up to the colon or parenthesis that ends them,
and what is left from there on.  Those behind a minus sign are switched off;
there may be one such sign, with a flag behind it, and each flag may be named
once. -/
def switches? (seen : List Char) (off dangling : Bool) :
    List Char → Option (List (Char × Bool) × List Char)
  | [] => none
  | c :: rest =>
    if c == ':' || c == ')' then if dangling then none else some ([], c :: rest)
    else if c == '-' then if off then none else switches? seen true true rest
    else if letters.contains c && !seen.contains c then
      (switches? (c :: seen) off false rest).map fun (more, rest) => ((c, !off) :: more, rest)
    else none

/-- The mode after flags have been switched. -/
def switchAll (m : Mode) (flags : List (Char × Bool)) : Mode :=
  flags.foldl (fun m flag => m.switch flag.1 flag.2) m

end Mode

/-!
## Atoms

The smallest parts of a pattern: characters, classes written in short, and
assertions about a place.  An atom is admissible only in some modes, because no
tables of characters are kept: a mode that ignores case has no pairs of letters
to go by, and classes of characters written in short cannot be told.  Where a
pattern is about bytes it must not match what is no text.
-/

inductive Atom where
  /-- A character, perhaps written as a byte. -/
  | literal (c : Char) (asByte : Bool)
  /-- Digits, blanks or word characters, or all others. -/
  | shorthand (negated : Bool)
  | any
  /-- The begin or the end of a line or of the text. -/
  | anchor
  /-- A place that is the begin or the end of a word, or one that is not. -/
  | wordBoundary
  deriving DecidableEq, Inhabited

/-- Whether an atom can stand by itself. -/
def Atom.isAdmissible (m : Mode) : Atom → Bool
  | .literal c asByte => if m.unicode then !m.caseless else !(asByte && 128 ≤ c.toNat)
  | .shorthand negated => !m.unicode && !negated
  | .any => m.unicode
  | .anchor => true
  | .wordBoundary => !m.unicode

/-- The value of a hexadecimal digit. -/
def hexDigit? (c : Char) : Option Nat :=
  if c.isDigit then some (c.toNat - 48)
  else if 'a' ≤ c ∧ c ≤ 'f' then some (c.toNat - 87)
  else if 'A' ≤ c ∧ c ≤ 'F' then some (c.toNat - 55)
  else none

/-- The number written with a fixed number of hexadecimal digits, continuing a
value, and what is left behind it. -/
def hexNumber? (m : Mode) : Nat → Nat → List Char → Option (Nat × List Char)
  | 0, value, cs => some (value, cs)
  | digits + 1, value, cs =>
    match m.skip cs with
    | [] => none
    | c :: rest => (hexDigit? c).bind fun d => hexNumber? m digits (16 * value + d) rest

/-- The character with a code point written in hexadecimal digits. -/
def hexLiteral? (m : Mode) (digits : Nat) (cs : List Char) : Option (Atom × List Char) :=
  (hexNumber? m digits 0 cs).bind fun (value, rest) =>
    if value.isValidChar then some (.literal (Char.ofNat value) (digits == 2), rest) else none

/-- The atom that a backslash begins, and what is left behind it.  Marks stand
for themselves; letters and digits have meanings of their own or none. -/
def escape? (m : Mode) : List Char → Option (Atom × List Char)
  | [] => none
  | c :: rest =>
    match c with
    | 'x' => hexLiteral? m 2 rest
    | 'u' => hexLiteral? m 4 rest
    | 'U' => hexLiteral? m 8 rest
    | 'd' | 's' | 'w' => some (.shorthand false, rest)
    | 'D' | 'S' | 'W' => some (.shorthand true, rest)
    | 'a' => some (.literal '\x07' false, rest)
    | 't' => some (.literal '\x09' false, rest)
    | 'n' => some (.literal '\x0a' false, rest)
    | 'v' => some (.literal '\x0b' false, rest)
    | 'f' => some (.literal '\x0c' false, rest)
    | 'r' => some (.literal '\x0d' false, rest)
    | 'A' | 'z' => some (.anchor, rest)
    | 'b' | 'B' | '<' | '>' => some (.wordBoundary, rest)
    | _ => if c.toNat < 128 && !c.isAlphanum then some (.literal c false, rest) else none

end TermGraph.Pattern
