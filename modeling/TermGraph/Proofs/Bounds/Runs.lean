import TermGraph.Proofs.Bounds.Requests

/-!
# Proper runs stay inside the tables

Nothing checks a handle when it is passed, and nothing checks it again when a
node that holds it is read much later.  That a run never leaves the tables is
therefore a property of all the tables together, and every command has to
restore it, those that fail halfway too.

A run is proper when its handles had been issued (`Workspace.Proper`), and its
symbols are proper when they had been given to spellings
(`Workspace.ProperSymbols`).  Such a run goes through whole contexts only
(`Workspace.step_whole`), and so all that a command of it can fault for is that
a rule of the term model was broken (`Workspace.run_inside`).
-/

namespace TermGraph

namespace Workspace

/-- Every symbol passed in the run had been given to a spelling when it was
passed. -/
def ProperSymbols (w : Workspace) : List Command → Prop
  | [] => True
  | command :: rest =>
    (∀ sym ∈ command.symbols, w.context.HasSymbol sym) ∧ (w.step command).2.ProperSymbols rest

instance decidableProperSymbols (w : Workspace) :
    (commands : List Command) → Decidable (w.ProperSymbols commands)
  | [] => .isTrue trivial
  | command :: rest =>
    have := (w.step command).2.decidableProperSymbols rest
    inferInstanceAs (Decidable (_ ∧ _))

/-- The later symbols have to be proper where the earlier commands have led. -/
theorem properSymbols_append {w : Workspace} {before after : List Command} :
    w.ProperSymbols (before ++ after) ↔
      w.ProperSymbols before ∧ (w.run before).2.ProperSymbols after := by
  induction before generalizing w with
  | nil => simp [ProperSymbols, run]
  | cons command rest ih => simp only [List.cons_append, ProperSymbols, ih, and_assoc, run]

/-- **One command.**  With issued handles and symbols it keeps the context whole,
and it faults only by breaking a rule. -/
theorem step_whole {w : Workspace} (hw : w.Sound) (hcx : w.context.Whole) (command : Command)
    (h : w.context.AllIssued command.handles)
    (hsymbols : ∀ sym ∈ command.symbols, w.context.HasSymbol sym) :
    (w.step command).2.context.Whole ∧
      ∀ fault, (w.step command).1 = .error (.broken fault) → fault.BreaksRule := by
  obtain ⟨_, hgrows, _⟩ := step_sound hw command h
  cases command with
  | ask request =>
    have hclean := request.perform_steady h hsymbols hcx
    exact ⟨hcx.grows hgrows hclean.spelled, hclean.faults⟩
  | header place request =>
    have hclean := request.perform_steady (w.pending place) hcx
    exact ⟨hcx.grows hgrows hclean.spelled, hclean.faults⟩

/-- A run of proper commands keeps the context whole, by induction on the
commands. -/
theorem run_whole {w : Workspace} (hw : w.Sound) (hcx : w.context.Whole) {commands : List Command}
    (h : w.Proper commands) (hsymbols : w.ProperSymbols commands) :
    (w.run commands).2.context.Whole ∧
      ∀ fault, .error (.broken fault) ∈ (w.run commands).1 → fault.BreaksRule := by
  induction commands generalizing w with
  | nil => exact ⟨hcx, nofun⟩
  | cons command rest ih =>
    obtain ⟨hissued, hrest⟩ := h
    obtain ⟨hspelled, hrestSymbols⟩ := hsymbols
    obtain ⟨hsound, _, _⟩ := step_sound hw command hissued
    obtain ⟨hwhole, hfault⟩ := step_whole hw hcx command hissued hspelled
    obtain ⟨hwhole', hfault'⟩ := ih hsound hwhole hrest hrestSymbols
    refine ⟨hwhole', fun fault hmem => ?_⟩
    have hanswers : .error (.broken fault) = (w.step command).1 ∨
        .error (.broken fault) ∈ ((w.step command).2.run rest).1 := List.mem_cons.mp hmem
    rcases hanswers with hfirst | hlater
    · exact hfault fault hfirst.symm
    · exact hfault' fault hlater

/-- What a proper run reaches is whole. -/
theorem whole_reached {config : Config} {digest : List Nat → UInt64} {commands : List Command}
    (h : (start config digest).Proper commands)
    (hsymbols : (start config digest).ProperSymbols commands) :
    (reached config digest commands).context.Whole :=
  (run_whole (sound_start config digest) (Context.whole_create config digest) h hsymbols).1

/-- **Runs inside the tables.**  After a run that passed only issued handles and
symbols, every handle in a table and in a pending header has been issued and
every symbol in a name has a spelling; and no command of the run faulted but by
breaking a rule of the term model, so none led outside a table. -/
theorem run_inside (config : Config) (digest : List Nat → UInt64) (commands : List Command)
    (h : (start config digest).Proper commands)
    (hsymbols : (start config digest).ProperSymbols commands) :
    (reached config digest commands).context.Closed ∧
    (∀ place header, (reached config digest commands).pending place = some header →
      (reached config digest commands).context.AllIssued header.handles) ∧
    (∀ n sym, (reached config digest commands).context.arena.name n = .ok (.simple sym) →
      ∃ s, (reached config digest commands).context.symbols.lookup sym = .ok s) ∧
    ∀ fault, .error (.broken fault) ∈ ((start config digest).run commands).1 →
      ∃ rule, fault = .violated rule := by
  have hstart := sound_start config digest
  obtain ⟨hsound, _⟩ := run_sound hstart h
  obtain ⟨hwhole, hfault⟩ := run_whole hstart (Context.whole_create config digest) h hsymbols
  refine ⟨hsound.closed, hsound.pending, ?_, ?_⟩
  · intro n sym hn
    exact (hwhole.spelled n sym hn).exists_spelling
  · intro fault hmem
    have hrule := hfault fault hmem
    cases fault with
    | violated rule => exact ⟨rule, rfl⟩
    | outOfBounds | cyclic => cases hrule

/-- A run that declares a variable of a spelled name under a template, takes it
for a concept, which is refused by its name, and asks for the category of a type
that has none. -/
def refusedRun : List Command :=
  [.ask (.intern "x"), .ask (.name (.ofSymbol ⟨1⟩)), .ask (.decl (.var ⟨1⟩ .bool none)),
    .header 0 (.start []), .header 0 (.templatize ⟨1⟩), .ask (.expr (.check ⟨2⟩ [])),
    .ask (.type .auto), .ask (.query (.isValueType ⟨3⟩))]

/-- The declaration is spelled for the message, and the one fault is that a rule
was broken. -/
theorem run_inside_refusedRun :
    (start .standard ConstraintTable.polynomialDigest).Proper refusedRun ∧
      (start .standard ConstraintTable.polynomialDigest).ProperSymbols refusedRun ∧
      ((start .standard ConstraintTable.polynomialDigest).run refusedRun).1[5]?
        = some (.error (.refused (.semantic (.doesNotName "x" .concept)))) ∧
      ∀ fault, .error (.broken fault) ∈
          ((start .standard ConstraintTable.polynomialDigest).run refusedRun).1 →
        ∃ rule, fault = .violated rule := by
  have hproper : (start .standard ConstraintTable.polynomialDigest).Proper refusedRun := by
    decide +kernel
  have hsymbols : (start .standard ConstraintTable.polynomialDigest).ProperSymbols refusedRun := by
    decide +kernel
  obtain ⟨_, _, _, hfaults⟩ := run_inside _ _ _ hproper hsymbols
  exact ⟨hproper, hsymbols, by decide +kernel, hfaults⟩

end Workspace

end TermGraph
