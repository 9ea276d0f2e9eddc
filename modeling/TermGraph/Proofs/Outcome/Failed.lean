import TermGraph.Proofs.Outcome.Steps

/-!
# Failing commands

A command that fails has changed nothing at all: not the tables, not the count
of made-up names, not the headers that are pending.  There are two exceptions,
and what they leave behind is known exactly (`Workspace.LeftBehind`).

* A definition that is built in order to be linked stays when there is nothing
  to link it to.  No declaration changes, so none is linked to it but those that
  had been given its handle while nothing was there.  On a closed context there
  are none (`Context.LeavesDefinition.unlinked`).
* The call of a declared function leaves the reference to the function, and
  perhaps the type of that reference, when the call itself is refused.

Nothing is asked of the handles in the command or of the run before it.
-/

namespace TermGraph

open Build

/-! ## What may be left behind -/

/-- One definition more.  No declaration changes, so each is linked to what it was
linked to before. -/
structure Context.LeavesDefinition (cx : Context) (kind : DefKind) (cx' : Context) : Prop where
  context : cx' = { cx with arena := { cx.arena with defs := cx.arena.defs.push kind } }
  decl : ∀ d, cx'.arena.decl d = cx.arena.decl d
  definitionOf : ∀ d, cx'.arena.definitionOf d = cx.arena.definitionOf d

/-- One expression more, which refers to the declaration, and at most one type
more, that of references to what was declared. -/
structure Context.LeavesReference (cx : Context) (d : DeclId) (callee : ExprId) (cx' : Context) :
    Prop where
  callee : callee.index = cx.arena.exprs.size
  context : ∃ types x, x.kind.referencedDecl? = some d ∧
    (types = cx.types ∨ ∃ declared, cx.arena.Declares d DeclKind.objectType? declared ∧
      types = (cx.types.intern (.wrapped .reference declared)).2) ∧
    cx' = { cx with types, arena := { cx.arena with exprs := cx.arena.exprs.push x } }
  types : cx'.types.size ≤ cx.types.size + 1

/-- What is left of the workspace by a command that fails. -/
def Workspace.LeftBehind (w : Workspace) (command : Command) (w' : Workspace) : Prop :=
  match command with
  | .ask (.link (.define _ kind)) =>
    match kind.shared? with
    | some _ => w' = w
    | none => w'.pending = w.pending ∧ w.context.LeavesDefinition kind w'.context
  | .ask (.expr (.callDecl d _)) =>
    match ((reference d).runOn w.context).1 with
    | .error _ => w' = w
    | .ok callee => w'.pending = w.pending ∧ w.context.LeavesReference d callee w'.context
  | _ => w' = w

/-! ## The two exceptions -/

/-- Interning adds at most one type. -/
theorem TypeTable.size_intern_le (t : TypeTable) (kind : TypeKind) :
    (t.intern kind).2.size ≤ t.size + 1 := by
  have hentries := t.kinds.entries_intern kind
  simp only [TypeTable.size, TypeTable.intern, Interner.size]
  rcases hentries with hsame | hpush
  · rw [hsame]
    exact Nat.le_succ _
  · have hsize : (t.kinds.intern kind).2.entries.size = t.kinds.entries.size + 1 := by
      rw [hpush, Array.size_push]
    exact Nat.le_of_eq hsize

/-- A definition that is built is linked to nothing by that. -/
theorem Context.leavesDefinition_after (cx : Context) (kind : DefKind) :
    cx.LeavesDefinition kind (cx.after [.definition kind]) where
  context := rfl
  decl _ := rfl
  definitionOf _ := rfl

/-- Where every handle in use has been issued, the definition that is left is
linked to nothing: its own handle was not in use. -/
theorem Context.LeavesDefinition.unlinked {cx cx' : Context} {kind : DefKind}
    (h : cx.LeavesDefinition kind cx') (hcx : cx.Closed) (d : DeclId) :
    cx'.arena.definitionOf d ≠ .ok ⟨cx.arena.defs.size⟩ := by
  rw [h.definitionOf]
  intro hlinked
  exact Nat.lt_irrefl _ (hcx.definitionOf hlinked)

/-- What a reference comes to, told by what is in the tables afterwards. -/
theorem Build.Refers.leavesReference {cx : Context} {d : DeclId} {callee : ExprId}
    {es : List Effect} (h : Refers cx d callee es) :
    cx.LeavesReference d callee (cx.after es) := by
  obtain ⟨hindex, types, kind, ty, rfl, htypes, _, hrefers⟩ := h
  rcases htypes with rfl | ⟨declared, hdeclared, rfl⟩
  · exact ⟨hindex, ⟨cx.types, ⟨ty, kind⟩, hrefers, .inl rfl, rfl⟩, Nat.le_succ _⟩
  · exact ⟨hindex, ⟨_, ⟨ty, kind⟩, hrefers, .inr ⟨declared, hdeclared, rfl⟩, rfl⟩,
      cx.types.size_intern_le _⟩

/-! ## Every failing command -/

namespace Workspace

variable {w : Workspace}

/-- An atomic request that fails leaves the workspace alone. -/
theorem step_of_atomic {request : Request} {failure : Failure} {post : Answer → List Effect → Prop}
    (h : request.perform.Atomic w.context post)
    (hfail : (w.step (.ask request)).1 = .error failure) : (w.step (.ask request)).2 = w := by
  rw [step_ask] at hfail ⊢
  rcases h with ⟨failure', hrun⟩ | ⟨answer, es, hrun, _⟩
  · rw [hrun]
  · rw [hrun] at hfail
    cases hfail

/-- Where no definition is built to be linked and no declared function is
called, nothing at all is left. -/
theorem leftBehind_of_eq {request : Request} {w' : Workspace} (hcall : request.callees = 0)
    (hasked : request.asked? = none) (h : w' = w) : w.LeftBehind (.ask request) w' := by
  cases request with
  | link request =>
    cases request with
    | attach | define => cases hasked
    | definitionOf d => exact h
  | expr request =>
    cases request with
    | callDecl => cases hcall
    | _ => exact h
  | _ => exact h

/-- An attempt to attach a definition that was there already leaves nothing. -/
theorem attach_leftBehind {d : DeclId} {body : DefId} {failure : Failure}
    (hfail : (w.step (.ask (.link (.attach d body)))).1 = .error failure) :
    (w.step (.ask (.link (.attach d body)))).2 = w := by
  have hatomic : (Request.link (.attach d body)).perform.Atomic w.context fun _ _ => True :=
    .map ((attach_perform_atomic w.context d body).mono fun _ _ _ => trivial)
  exact step_of_atomic hatomic hfail

/-- A definition that was built to be linked stays, unless it was a shared one. -/
theorem define_leftBehind {d : DeclId} {kind : DefKind} {failure : Failure}
    (hfail : (w.step (.ask (.link (.define d kind)))).1 = .error failure) :
    w.LeftBehind (.ask (.link (.define d kind))) (w.step (.ask (.link (.define d kind)))).2 := by
  obtain ⟨body, es, hdefines, h⟩ := define_attach_outcome w.context d kind
  rw [step_ask, Request.runOn_link] at hfail ⊢
  rcases h with ⟨failure', hrun⟩ | ⟨fs, hrun, _⟩
  · rw [hrun, LeftBehind]
    -- a shared definition was there already, any other has just been built
    cases hshared : kind.shared? with
    | some shared =>
      have hes : es = [] := by
        rw [Context.Defines, hshared] at hdefines
        exact hdefines.2
      rw [hes]
      rfl
    | none =>
      have hes : es = [.definition kind] := by
        rw [Context.Defines, hshared] at hdefines
        exact hdefines.2
      rw [hes]
      exact ⟨rfl, w.context.leavesDefinition_after kind⟩
  · rw [hrun] at hfail
    cases hfail

/-- The reference to a declared function stays when the call of it is refused. -/
theorem callDecl_leftBehind {d : DeclId} {args : List ExprId} {failure : Failure}
    (hfail : (w.step (.ask (.expr (.callDecl d args)))).1 = .error failure) :
    w.LeftBehind (.ask (.expr (.callDecl d args))) (w.step (.ask (.expr (.callDecl d args)))).2 := by
  rw [step_ask, Request.runOn_expr, ExprRequest.perform] at hfail ⊢
  rw [LeftBehind]
  rcases callDecl_outcome w.context d args with
    ⟨failure', href, hrun⟩ | ⟨callee, es, href, hrefers, ⟨failure', hrun⟩ | ⟨e, fs, hrun, _⟩⟩
  · rw [href, hrun]
  · rw [href, hrun]
    exact ⟨rfl, hrefers.leavesReference⟩
  · rw [hrun] at hfail
    cases hfail

/-- A header request fails only when there is no header to constrain. -/
theorem header_leftBehind {place : Nat} {request : HeaderRequest} {failure : Failure}
    (hfail : (w.step (.header place request)).1 = .error failure) :
    (w.step (.header place request)).2 = w := by
  cases request with
  | start | isPending | reset => cases hfail
  | templatize d =>
    cases hpending : w.pending place <;> simp only [step, HeaderRequest.perform, hpending] at hfail <;>
      cases hfail
  | constrain expr =>
    cases hpending : w.pending place with
    | some header =>
      simp only [step, HeaderRequest.perform, hpending] at hfail
      cases hfail
    | none =>
      simp only [step, HeaderRequest.perform, hpending]
      have hsame : (fun p => if p = place then none else w.pending p) = w.pending := by
        funext p
        by_cases hp : p = place
        · rw [if_pos hp, hp, hpending]
        · rw [if_neg hp]
      rw [hsame]
      rfl

/-- **Failing commands.**  Whatever handles are passed, a command that fails
leaves the workspace as it was, but for a definition that could not be linked
and for the reference to a function whose call was refused. -/
theorem step_leftBehind {command : Command} {failure : Failure}
    (hfail : (w.step command).1 = .error failure) :
    w.LeftBehind command (w.step command).2 := by
  cases command with
  | header place request => exact header_leftBehind hfail
  | ask request =>
    by_cases hcall : request.callees = 0
    · cases hasked : request.asked? with
      | none =>
        have hatomic : request.perform.Atomic w.context fun answer es =>
            request.Answered w.context answer es := request.perform_atomic hcall hasked
        exact leftBehind_of_eq hcall hasked (step_of_atomic hatomic hfail)
      | some d =>
        match request, hasked with
        | .link (.attach d body), _ => exact attach_leftBehind hfail
        | .link (.define d kind), _ => exact define_leftBehind hfail
    · match request, hcall with
      | .expr (.callDecl d args), _ => exact callDecl_leftBehind hfail

/-- A workspace with one variable, of the type of truth values. -/
def withVariable : Workspace :=
  reached .standard ConstraintTable.polynomialDigest [.ask (.decl (.var .global .bool none))]

/-- Calling the variable is refused, and leaves the reference to it and the
type of such references.  Defining it is refused too, and leaves a definition
that nothing is linked to. -/
theorem step_leftBehind_withVariable :
    (withVariable.step (.ask (.expr (.callDecl ⟨1⟩ [])))).1
        = .error (.refused (.semantic .notCallable)) ∧
      withVariable.LeftBehind (.ask (.expr (.callDecl ⟨1⟩ [])))
        (withVariable.step (.ask (.expr (.callDecl ⟨1⟩ [])))).2 ∧
      (withVariable.step (.ask (.expr (.callDecl ⟨1⟩ [])))).2.context.count .type
        = withVariable.context.count .type + 1 ∧
      (withVariable.step (.ask (.link (.function ⟨1⟩ ⟨0⟩)))).1
        = .error (.broken (.violated (.notDefinable .variableDecl))) ∧
      (withVariable.step (.ask (.link (.function ⟨1⟩ ⟨0⟩)))).2.context.arena.defs
        = withVariable.context.arena.defs.push (.function ⟨0⟩) ∧
      ∀ d, (withVariable.step (.ask (.link (.function ⟨1⟩ ⟨0⟩)))).2.context.arena.definitionOf d
        ≠ .ok ⟨withVariable.context.arena.defs.size⟩ := by
  have hcall : (withVariable.step (.ask (.expr (.callDecl ⟨1⟩ [])))).1
      = .error (.refused (.semantic .notCallable)) := rfl
  have hdefine : (withVariable.step (.ask (.link (.function ⟨1⟩ ⟨0⟩)))).1
      = .error (.broken (.violated (.notDefinable .variableDecl))) := rfl
  obtain ⟨_, hleft⟩ := step_leftBehind hdefine
  have hproper : (start .standard ConstraintTable.polynomialDigest).Proper
      [.ask (.decl (.var .global .bool none))] := by decide +kernel
  have hsound : withVariable.Sound := (run_sound (sound_start _ _) hproper).1
  refine ⟨hcall, step_leftBehind hcall, by decide +kernel, hdefine, ?_, hleft.unlinked hsound.closed⟩
  rw [hleft.context]

/-- A workspace with a concept that was declared with a definition that is not
there. -/
def withDanglingConcept : Workspace :=
  reached .standard ConstraintTable.polynomialDigest [.ask (.decl (.concept .global [] ⟨3⟩))]

/-- **A definition may be linked before it is there.**  Defining the global
namespace is refused.  The definition that this leaves is the one that the
concept was declared with. -/
theorem definition_linked_beforehand :
    (withDanglingConcept.step (.ask (.link (.function ⟨0⟩ ⟨0⟩)))).1
        = .error (.broken (.violated (.notDefinable .nameSpace))) ∧
      (withDanglingConcept.step (.ask (.link (.function ⟨0⟩ ⟨0⟩)))).2.context.arena.defs
        = withDanglingConcept.context.arena.defs.push (.function ⟨0⟩) ∧
      (withDanglingConcept.step (.ask (.link (.function ⟨0⟩ ⟨0⟩)))).2.context.arena.definitionOf ⟨1⟩
        = .ok ⟨withDanglingConcept.context.arena.defs.size⟩ :=
  ⟨rfl, rfl, rfl⟩

end Workspace

end TermGraph
