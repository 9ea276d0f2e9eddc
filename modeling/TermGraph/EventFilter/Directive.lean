import TermGraph.Pattern.Basic
import TermGraph.Text.Alphanumeric
import TermGraph.Text.Basic

/-!
# Directives

What is written to set which events are logged.  The rules are those documented
for the directives of `EnvFilter` in the library tracing-subscriber, which the
program leaves the reading of them to.
-/

namespace TermGraph

/-!
## Levels of events

The five levels, and the words that say up to which of them events are logged.
-/

/-- The levels of events, the gravest first. -/
inductive Level where
  | error
  | warn
  | info
  | debug
  | trace
  deriving DecidableEq, Inhabited

namespace Level

def all : List Level := [.error, .warn, .info, .debug, .trace]

/-- How many levels are as grave or graver. -/
def rank : Level → Nat
  | .error => 1
  | .warn => 2
  | .info => 3
  | .debug => 4
  | .trace => 5

end Level

namespace EventFilter

/-- How many levels a word allows: none for off, otherwise up to the level
named.  Upper and lower case letters are not told apart, and the number itself
may stand for the word. -/
def levels? (word : List Char) : Option Nat :=
  match Text.number? word with
  | some n => if n ≤ Level.all.length then some n else none
  | none =>
    match String.ofList (word.map Char.toLower) with
    | "off" => some 0
    | "error" => some 1
    | "warn" => some 2
    | "info" => some 3
    | "debug" => some 4
    | "trace" => some 5
    | _ => none

/-- How many levels are allowed by what is written behind a target: all of them
if nothing is. -/
def levelsBehind? (level : List Char) : Option Nat :=
  if level.isEmpty then some Level.all.length else levels? level

end EventFilter

end TermGraph

namespace TermGraph.EventFilter

/-!
## Directives and their parts

A directive is a level, or a target with or without one.  Behind the target, or
in its place, brackets may stand, and in them a span, a field in braces, or
both.  A field is a name and may have a value, a number or a pattern.

A directive with a span, or with a value for its field, is only about what
happens in such spans, so it has nothing to say of an event outside of every
span.  All others are rules.  A field without a value does not confine a rule:
it only takes part in the choice among several.

The parts of a directive are found as if there were no blanks around it, but
they are cut out of it with the blanks.  So a blank in front moves every part,
and there is no level then, since what is cut out for it holds an equals sign.
-/

/-- A rule: for the targets that begin like this, the number of levels, the
gravest first, that are logged. -/
structure Rule where
  target : List Char
  /-- The name of a field, if the rule has one. -/
  field : Option (List Char)
  levels : Nat
  deriving DecidableEq, Inhabited

inductive Directive where
  /-- Which events of a target are logged. -/
  | rule (r : Rule)
  /-- Something about what happens in certain spans. -/
  | inSpans
  deriving DecidableEq, Inhabited

/-- The rule in a directive, if it is one. -/
def Directive.rule? : Directive → Option Rule
  | .rule r => some r
  | .inSpans => none

/-- A field: its name, and the value it is to have. -/
structure Field where
  name : List Char
  value : Option (List Char)
  deriving DecidableEq, Inhabited

namespace Field

/-- A field as written: behind an equals sign stands the value, which ends at
the next one. -/
def ofText (cs : List Char) : Field :=
  let name := cs.takeWhile (· != '=')
  match cs.drop name.length with
  | [] => ⟨name, none⟩
  | _ :: value => ⟨name, some (value.takeWhile (· != '='))⟩

/-- Whether something is known that could have the value. -/
def isUnderstood (field : Field) : Bool :=
  match field.value with
  | some value => Text.isNumeral value || Pattern.isWellFormed value
  | none => true

end Field

/-- What stands in the brackets of a directive, and what stands behind them. -/
structure Brackets where
  span : List Char
  /-- What stands between the braces, if there are any. -/
  field : Option (List Char)
  behind : List Char
  deriving DecidableEq, Inhabited

/-- Brackets as written, from behind the one that opens.  A span ends where they
close or braces open, and braces close only right before the brackets do. -/
def brackets? (cs : List Char) : Option Brackets :=
  let span := cs.takeWhile fun c => c != ']' && c != '\x7b'
  match cs.drop span.length with
  | ']' :: behind => some ⟨span, none, behind⟩
  | '\x7b' :: inside =>
    let field := inside.takeWhile (· != '\x7d')
    match inside.drop field.length with
    | '\x7d' :: ']' :: behind => if field.isEmpty then none else some ⟨span, some field, behind⟩
    | _ => none
  | _ => none

/-- What of a word stands behind as many bytes as a passage has. -/
def behind? (word passage : List Char) : Option (List Char) :=
  Text.dropBytes? (Text.byteSize passage) word

/-- What of a word stands behind as many bytes as one passage has, and takes as
many as another. -/
def piece? (word passage piece : List Char) : Option (List Char) :=
  (behind? word passage).bind (Text.takeBytes? (Text.byteSize piece))

/-- How many levels a word allows behind a passage: all of them if it ends
there, and otherwise an equals sign has to follow. -/
def levelsAfter? (word passage : List Char) : List Char → Option Nat
  | [] => some Level.all.length
  | '=' :: _ => (behind? word (passage ++ ['='])).bind levelsBehind?
  | _ => none

/-- A directive with brackets: the word, and the target and what is in and
behind the brackets, as they are without the blanks around it. -/
def bracketed? (word target : List Char) (inside : Brackets) : Option Directive := do
  let opened := target ++ '[' :: inside.span
  let target ← piece? word [] target
  match inside.field with
  | none =>
    let _ ← levelsAfter? word (opened ++ [']']) inside.behind
    some .inSpans
  | some written =>
    let opened := opened ++ ['\x7b']
    let levels ← levelsAfter? word (opened ++ written ++ ['\x7d', ']']) inside.behind
    let field := Field.ofText (← piece? word opened written)
    if !field.isUnderstood then none
    else if inside.span.isEmpty && field.value.isNone then
      some (.rule ⟨target, some field.name, levels⟩)
    else some .inSpans

/-- Whether a target can begin with a character: a letter, a digit, or one of
the marks that occur in the names of targets. -/
def startsTarget (c : Char) : Bool :=
  Text.isAlphanumeric c || c == '_' || c == '-' || c == ':'

/-- A directive as written.  A word alone is a level for every target if it can
be, and otherwise a target.  A target whose level is left out has all its
levels. -/
def directive? (word : List Char) : Option Directive :=
  let entry := Text.trim word
  if entry.head?.any fun c => startsTarget c || c == '[' then
    let target := entry.takeWhile fun c => c != '=' && c != '['
    match entry.drop target.length with
    | [] =>
      match levels? word with
      | some levels => some (.rule ⟨[], none, levels⟩)
      | none => some (.rule ⟨word, none, Level.all.length⟩)
    | '[' :: inside => (brackets? inside).bind (bracketed? word target)
    | behind => do
      let levels ← levelsAfter? word target behind
      some (.rule ⟨← piece? word [] target, none, levels⟩)
  else none

end TermGraph.EventFilter
