import TermGraph.Proofs.Outcome.Steps

/-!
# Every stored type is formed

What the table of types promises is put there by five different requests and
relied on by one line of code: to take the qualifiers off a type, one layer of
them is taken off and no more.

The effects of commands fit, so a type is stored only where some request forms
it, and a linking stores no type at all (`Context.Formed.keeps`).  So after any
run every stored type is formed, whatever handles were passed and whichever
commands failed (`Workspace.formed_reached`).
-/

namespace TermGraph

/-- Every effect keeps the stored types formed: one that fits stores such types
only, and linking stores none. -/
theorem Context.Formed.keeps : Effect.Keeps Context.Formed where
  fitting cx effect hcx hfits := by
    refine hcx.apply fun kind heffect => ?_
    subst heffect
    exact hfits
  linking cx d body hcx := hcx.apply fun _ heffect => by cases heffect

namespace Workspace

/-- Every stored type is formed, whatever was asked for. -/
theorem formed_reached (config : Config) (digest : List Nat → UInt64) (commands : List Command) :
    (reached config digest commands).context.Formed :=
  Context.Formed.keeps.reached config digest (Context.formed_create config digest) commands

/-- **Formed types.**  After any run every stored type is formed.  So taking the
qualifiers off a stored type leaves a type without qualifiers, and asking for
that type with the qualifiers taken off gives the type back and changes
nothing. -/
theorem types_formed {config : Config} {digest : List Nat → UInt64} {commands : List Command}
    {ty : TypeId} {kind : TypeKind}
    (hty : (reached config digest commands).context.type ty = .ok kind) :
    (reached config digest commands).context.FormedAt ty kind ∧
      ∃ base quals,
        (reached config digest commands).step (.ask (.query (.split ty)))
          = (.ok (.split base quals), reached config digest commands) ∧
        (reached config digest commands).context.IsBare base ∧
        (reached config digest commands).step (.ask (.type (.qualified base quals)))
          = (.ok (.node .type ty), reached config digest commands) := by
  have hformed := formed_reached config digest commands
  obtain ⟨base, quals, hsplit, hbare, hagain⟩ := hformed.requalify hty
  refine ⟨hformed ty kind hty, base, quals, ?_, hbare, ?_⟩
  · have hanswer : (Query.split ty).answer (reached config digest commands).context
        = .ok (.split base quals) := by
      rw [Query.answer, hsplit]
      rfl
    rw [step_ask, Request.perform, Build.runOn_read, hanswer]
    rfl
  · have hperform : (TypeRequest.qualified base quals).perform.runOn
        (reached config digest commands).context
          = (.ok ty, (reached config digest commands).context) := hagain
    rw [step_ask, Request.perform, Build.runOn_map, hperform]
    rfl

/-- A run that declares a class and a template around it, asks for the class
type by the template, qualifies it twice, asks for the type of a class that is
none, and then defines the class. -/
def classRun : List Command :=
  [.ask (.decl (.ordinaryClass .global)), .ask (.decl (.template [] ⟨0⟩)),
    .ask (.type (.user ⟨1⟩)), .ask (.type (.qualified ⟨3⟩ .justConst)),
    .ask (.type (.user ⟨7⟩)), .ask (.type (.qualified ⟨4⟩ .justVolatile)),
    .ask (.link (.define ⟨1⟩ (.classBody [])))]

/-- The type qualified twice has one layer of qualifiers, around the class type. -/
theorem types_formed_classRun :
    (reached .standard ConstraintTable.polynomialDigest classRun).context.type ⟨5⟩
        = .ok (.qualified ⟨3⟩ ⟨true, true⟩) ∧
      (reached .standard ConstraintTable.polynomialDigest classRun).context.IsBare ⟨3⟩ := by
  have hty : (reached .standard ConstraintTable.polynomialDigest classRun).context.type ⟨5⟩
      = .ok (.qualified ⟨3⟩ ⟨true, true⟩) := by
    decide +kernel
  obtain ⟨⟨_, _, hbare⟩, _⟩ := types_formed hty
  exact ⟨hty, hbare⟩

end Workspace

end TermGraph
