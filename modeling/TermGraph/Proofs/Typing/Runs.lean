import TermGraph.Proofs.Outcome.Steps

/-!
# Every expression is well-typed

No request takes the type of a compound expression from outside, so every
expression in an arena is of the type that it was stored with
(`Context.WellTyped`).  The argument is the usual one.  An effect adds at most
one expression, which is of its type when it is added, and whatever was of
some type before is of that type afterwards (`Context.HasType.later`).  So
every effect keeps the arena well-typed, and therefore every run, whatever
handles are passed in it.
-/

namespace TermGraph

/-- Every expression is of the type that it is stored with. -/
def Context.WellTyped (cx : Context) : Prop :=
  ∀ e x, cx.arena.expr e = .ok x → cx.HasType x.ty x.kind

namespace Context.WellTyped

variable {cx : Context}

/-- A context that nothing was asked of yet has no expressions. -/
theorem create (config : Config) (digest : List Nat → UInt64) :
    (Context.create config digest).WellTyped := by
  intro e x h
  cases fetch_eq_ok.mp h

/-- An effect keeps expressions well-typed if the expression that it adds is. -/
theorem apply (hcx : cx.WellTyped) {effect : Effect}
    (hnew : ∀ kind ty, effect = .expr kind ty → cx.HasType ty kind) :
    (effect.apply cx).WellTyped := by
  intro e x h
  have hle := effect.precedes_apply cx
  rcases Effect.expr_apply h with hold | heffect
  · exact (hcx e x hold).later hle
  · exact (hnew x.kind x.ty heffect).later hle

/-- Every effect keeps expressions well-typed: one that fits adds an expression
of its type, and linking adds none. -/
theorem keeps : Effect.Keeps Context.WellTyped where
  fitting cx effect hcx hfits := by
    refine hcx.apply fun kind ty heffect => ?_
    subst heffect
    exact hfits
  linking cx d body hcx := hcx.apply fun _ _ heffect => by cases heffect

end Context.WellTyped

namespace Workspace

/-- Every stored expression is well typed, whatever was asked for. -/
theorem wellTyped_reached (config : Config) (digest : List Nat → UInt64)
    (commands : List Command) : (reached config digest commands).context.WellTyped :=
  Context.WellTyped.keeps.reached config digest (.create config digest) commands

/-- **Well-typed expressions.**  After any run every expression is of the type
that it is stored with, and however the run goes on it stays as it is and of
that type. -/
theorem expr_hasType {config : Config} {digest : List Nat → UInt64} {commands : List Command}
    {e : ExprId} {x : Expr}
    (hx : (reached config digest commands).context.arena.expr e = .ok x) (rest : List Command) :
    (reached config digest (commands ++ rest)).context.arena.expr e = .ok x ∧
      (reached config digest (commands ++ rest)).context.HasType x.ty x.kind := by
  have hle := reached_precedes config digest commands rest
  exact ⟨hle.arena.expr hx, (wellTyped_reached config digest commands e x hx).later hle⟩

/-- A run that declares a function of one truth value, calls it, and only then
defines it. -/
def calledRun : List Command :=
  [.ask (.decl (.objectParm .global .bool)),
    .ask (.decl (.function .free .global [⟨1⟩] .void none)), .ask (.expr (.boolean true)),
    .ask (.expr (.callDecl ⟨2⟩ [⟨0⟩])), .ask (.link (.define ⟨2⟩ (.expression ⟨0⟩)))]

/-- The call is of the type that the function returns, also after the function
has been defined. -/
theorem expr_hasType_calledRun :
    (reached .standard ConstraintTable.polynomialDigest (calledRun.take 4)).context.arena.expr ⟨2⟩
        = .ok ⟨.void, .call ⟨1⟩ [⟨0⟩]⟩ ∧
      (reached .standard ConstraintTable.polynomialDigest calledRun).context.HasType
        .void (.call ⟨1⟩ [⟨0⟩]) := by
  have hx : (reached .standard ConstraintTable.polynomialDigest
      (calledRun.take 4)).context.arena.expr ⟨2⟩ = .ok ⟨.void, .call ⟨1⟩ [⟨0⟩]⟩ := by
    rfl
  exact ⟨hx, (expr_hasType hx (calledRun.drop 4)).2⟩

end Workspace

end TermGraph
