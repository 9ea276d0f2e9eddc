import TermGraph.EventFilter.Directive

/-!
# Which events are logged

Events have a target, the part of the program that reports them, and a level.
What is logged is set by a text of directives.  A rule among them allows all
events of its targets up to a level, those whose target begins with the rule's,
and of several rules for a target the one with the longest target decides.  A
target without a rule is silent.

A text that is nothing but a level is meant for the parts of this program
alone, and one without a directive for errors and warnings of every target.
Without a text nothing is logged.

Blanks around the whole text do not count, but blanks around one directive
belong to it: a level with a blank beside it is none, and a target with one is
not the target that was meant.

When nothing is logged and what a bare level is meant for are rules of the
program itself.  Otherwise the text is left to `EnvFilter` of the library
tracing-subscriber, whose documented rules are followed here: how directives
are read, which of them are rules, and which rule decides.
-/

namespace TermGraph.EventFilter

def ownTargets : List String := ["tenon_ir", "tenon_build", "tenon_value"]

def words : List Char → List (List Char)
  | [] => [[]]
  | c :: rest =>
    match words rest with
    | word :: more => if c = ',' then [] :: word :: more else (c :: word) :: more
    | [] => [[c]]

/-- The rules of a text.  If no directive is understood, warnings and errors of
every target are logged. -/
def ofText (text : String) : List Rule :=
  let cs := Text.trim text.toList
  let written :=
    if cs.isEmpty || cs.contains '=' || cs.contains ',' then words cs
    else ownTargets.map fun target => target.toList ++ '=' :: cs
  match written.filterMap directive? with
  | [] => [⟨[], none, 2⟩]
  | directives => directives.filterMap Directive.rule?

/-- Whether a rule gives way to a later one: to one with a longer target, and to
one with a target as long, unless it has a field and the other has none or one
whose name comes earlier. -/
def Rule.yieldsTo (a b : Rule) : Bool :=
  if a.target.length = b.target.length then
    match a.field, b.field with
    | none, _ => true
    | some _, none => false
    | some name, some other => !other.lex name fun c d => c.toNat < d.toNat
  else a.target.length < b.target.length

/-- The rule for a target, of those that fit it. -/
def ruleFor? (rules : List Rule) (target : List Char) : Option Rule :=
  rules.foldl (fun best rule =>
    if rule.target.isPrefixOf target then
      match best with
      | some b => if b.yieldsTo rule then some rule else best
      | none => some rule
    else best) none

/-- Whether an event is logged, when the text of directives is the given one. -/
def isEnabled (text : Option String) (target : String) (level : Level) : Bool :=
  match text with
  | none => false
  | some text =>
    match ruleFor? (ofText text) target.toList with
    | some rule => level.rank ≤ rule.levels
    | none => false

end TermGraph.EventFilter
