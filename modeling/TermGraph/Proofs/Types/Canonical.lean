import TermGraph.Proofs.Stability
import TermGraph.Proofs.Types.Unfolding

/-!
# Types are unique

Comparing the handles of two types is comparing the types: after any proper
run two handles are equal exactly when the trees they unfold to are equal, and
every handle does unfold (`Workspace.types_unique`).  The three predefined
types are at the handles set aside for them and nowhere else, and asking again
for a type that was answered before answers the same handle and changes
nothing.

One request is meant to be different: the type of a made-up type parameter is
a new one each time (`Workspace.placeholder_type_anew`).
-/

namespace TermGraph

open Build

namespace Workspace

variable {config : Config} {digest : List Nat → UInt64} {commands : List Command}

/-- After a proper run every issued type has a tree. -/
theorem exists_tree (h : (start config digest).Proper commands) {a : TypeId}
    (ha : (reached config digest commands).context.Issued a) :
    ∃ s, (reached config digest commands).context.types.tree a = some s := by
  obtain ⟨_, hgrows⟩ := run_sound (sound_start config digest) h
  have hgrounded := hgrows.grounded (Context.grounded_create config digest)
  exact Option.isSome_iff_exists.mp (hgrounded.tree_isSome ha)

/-- Two issued types are one exactly when their trees are equal. -/
theorem eq_iff_tree (h : (start config digest).Proper commands) {a b : TypeId}
    (ha : (reached config digest commands).context.Issued a)
    (hb : (reached config digest commands).context.Issued b) :
    ∃ s t, (reached config digest commands).context.types.tree a = some s ∧
      (reached config digest commands).context.types.tree b = some t ∧ (a = b ↔ s = t) := by
  obtain ⟨s, hs⟩ := exists_tree h ha
  obtain ⟨t, ht⟩ := exists_tree h hb
  have hiff : a = b ↔ s = t := by
    rw [← TypeTable.tree_eq_some_iff ht, hs, Option.some.injEq]
  exact ⟨s, t, hs, ht, hiff⟩

/-- A predefined type unfolds to itself for ever. -/
theorem tree_predefined (h : (start config digest).Proper commands) (a : TypeId) {kind : TypeKind}
    (ha : TypeTable.fresh.kinds.entries[a.index]? = some kind) {s : TypeTree}
    (hs : ∀ part, kind.expand part = some s) :
    (reached config digest commands).context.types.tree a = some s := by
  have hle := (run_sound (sound_start config digest) h).2.precedes
  have hstored := fetch_eq_ok.mp (fetch_later hle.types (fetch_eq_ok.mpr ha))
  have hlt : a.index < (reached config digest commands).context.types.size :=
    (Array.getElem?_eq_some_iff.mp hstored).1
  obtain ⟨depth, hdepth⟩ : ∃ n, (reached config digest commands).context.types.size = n + 1 :=
    ⟨_, (Nat.succ_pred_eq_of_pos (by omega)).symm⟩
  rw [TypeTable.tree, hdepth, TypeTable.treeWithin]
  simpa [reached, hstored] using hs _

/-- Asking again for a type that was answered. -/
theorem step_type_again {w : Workspace} (hw : w.Sound) {request : TypeRequest}
    (hrequest : request ≠ .placeholder) (hissued : w.context.AllIssued request.handles)
    {ty : TypeId} (hanswer : (w.step (.ask (.type request))).1 = .ok (.node .type ty))
    {later : Workspace}
    (hle : (w.step (.ask (.type request))).2.context.Precedes later.context) :
    later.step (.ask (.type request)) = (.ok (.node .type ty), later) := by
  obtain ⟨_, hgrows, _⟩ := step_sound hw (.ask (.type request)) hissued
  rcases hrun : request.perform.runOn w.context with ⟨_ | found, cx'⟩
  · simp [step, Request.perform, runOn_map, hrun, Except.map] at hanswer
  · simp only [step, Request.perform, runOn_map, hrun, Except.map] at hanswer hle hgrows
    cases hanswer
    have hagain := TypeRequest.perform_repeats hrequest ty cx' later.context hrun
      (hgrows.precedes.trans hle) hle
    simp only [step, Request.perform, runOn_map, hagain, Except.map]

/-- **Types are unique.**  After any proper run two issued types are one
exactly when they unfold to the same tree.  A type request that was answered
in the run answers the same type again and changes nothing.  The type without
values, the type of truth values and the type of types are at their handles,
and no other handle unfolds to any of them. -/
theorem types_unique (config : Config) (digest : List Nat → UInt64) (commands : List Command)
    (h : (start config digest).Proper commands) :
    (∀ a b : TypeId, (reached config digest commands).context.Issued a →
      (reached config digest commands).context.Issued b →
        ∃ s t, (reached config digest commands).context.types.tree a = some s ∧
          (reached config digest commands).context.types.tree b = some t ∧ (a = b ↔ s = t)) ∧
    (∀ before request after ty, commands = before ++ .ask (.type request) :: after →
      request ≠ .placeholder →
      ((reached config digest before).step (.ask (.type request))).1 = .ok (.node .type ty) →
        (reached config digest commands).step (.ask (.type request))
          = (.ok (.node .type ty), reached config digest commands)) ∧
    (∀ a : TypeId,
      ((reached config digest commands).context.types.tree a = some .void ↔ a = .void) ∧
      ((reached config digest commands).context.types.tree a = some .boolean ↔ a = .bool) ∧
      ((reached config digest commands).context.types.tree a = some .typeOfTypes ↔ a = .type)) := by
  refine ⟨?_, ?_, ?_⟩
  · intro a b ha hb
    exact eq_iff_tree h ha hb
  · intro before request after ty hsplit hrequest hanswer
    subst hsplit
    obtain ⟨hbefore, hissued, _⟩ := proper_append.mp h
    obtain ⟨hsound, _⟩ := run_sound (sound_start config digest) hbefore
    have hlater := step_precedes_reached h
    exact step_type_again hsound hrequest hissued hanswer hlater
  · intro a
    have hvoid := tree_predefined h .void (by rw [TypeTable.entries_fresh]; rfl) fun _ => rfl
    have hbool := tree_predefined h .bool (by rw [TypeTable.entries_fresh]; rfl) fun _ => rfl
    have htype := tree_predefined h .type (by rw [TypeTable.entries_fresh]; rfl) fun _ => rfl
    exact ⟨TypeTable.tree_eq_some_iff hvoid, TypeTable.tree_eq_some_iff hbool,
      TypeTable.tree_eq_some_iff htype⟩

/-- A run that asks for a pointer, for its qualified form, for a function over
both, and for the pointer again. -/
def pointerRun : List Command :=
  [.ask (.type .byte), .ask (.type (.wrapped .pointer ⟨3⟩)),
    .ask (.type (.qualified ⟨4⟩ .justConst)),
    .ask (.type (.functionOf [⟨4⟩, ⟨5⟩] ⟨3⟩)), .ask (.type (.wrapped .pointer ⟨3⟩))]

/-- The pointer and its qualified form have different trees, and asking for
the pointer a third time answers the handle it had. -/
theorem types_unique_pointerRun :
    (start .standard ConstraintTable.polynomialDigest).Proper pointerRun ∧
      (∃ s t, (reached .standard ConstraintTable.polynomialDigest pointerRun).context.types.tree ⟨4⟩
          = some s ∧
        (reached .standard ConstraintTable.polynomialDigest pointerRun).context.types.tree ⟨5⟩
          = some t ∧ s ≠ t) ∧
      (reached .standard ConstraintTable.polynomialDigest pointerRun).step
          (.ask (.type (.wrapped .pointer ⟨3⟩)))
        = (.ok (.node .type ⟨4⟩),
            reached .standard ConstraintTable.polynomialDigest pointerRun) := by
  have hproper : (start .standard ConstraintTable.polynomialDigest).Proper pointerRun := by
    decide +kernel
  obtain ⟨htrees, hagain, _⟩ := types_unique _ _ _ hproper
  refine ⟨hproper, ?_, ?_⟩
  · obtain ⟨s, t, hs, ht, hst⟩ := htrees ⟨4⟩ ⟨5⟩ (by decide +kernel) (by decide +kernel)
    exact ⟨s, t, hs, ht, fun heq => absurd (hst.mpr heq) (by decide)⟩
  · exact hagain [.ask (.type .byte)] _ (pointerRun.drop 2) ⟨4⟩ rfl (by decide) rfl

/-- A request for a type need not answer the same type again: the type of a
made-up type parameter is another one each time. -/
theorem placeholder_type_anew :
    ¬ ∀ (config : Config) (digest : List Nat → UInt64) (before after : List Command)
      (request : TypeRequest) (ty : TypeId),
      (start config digest).Proper (before ++ .ask (.type request) :: after) →
      ((reached config digest before).step (.ask (.type request))).1 = .ok (.node .type ty) →
        ((reached config digest (before ++ .ask (.type request) :: after)).step
          (.ask (.type request))).1 = .ok (.node .type ty) := by
  intro h
  have hfirst : ((reached .standard ConstraintTable.polynomialDigest []).step
      (.ask (.type .placeholder))).1 = .ok (.node .type ⟨3⟩) := rfl
  have hsecond : ((reached .standard ConstraintTable.polynomialDigest
      [.ask (.type .placeholder)]).step (.ask (.type .placeholder))).1 = .ok (.node .type ⟨4⟩) := rfl
  have hsame := h .standard ConstraintTable.polynomialDigest [] [] .placeholder ⟨3⟩
    (by decide +kernel) hfirst
  rw [List.nil_append, hsecond] at hsame
  cases hsame

end Workspace

end TermGraph
