import TermGraph.Proofs.Types.Formed

/-!
# Layers around a type

A type is qualified and wrapped by one request after the other, each about the
type that the one before it was answered with.  In between anything else may
be asked of the workspace, so what is asked for first may by then be there or
not, and what was asked for may be asked for again.

`Workspace.layered` carries out such requests in turn, with commands of any
kind before each of them.  It ends in a state that some run reaches
(`Workspace.exists_run_of_layered`), so all that is known of runs is known of
it.

Two facts are used of single requests.  A structure that is stored has one
handle (`Context.type_inj`), and qualifying a type gives the one layer of all
its qualifiers around what it is without any (`Build.qualifiedType_sure`).
-/

namespace TermGraph

/-- What one request puts around a type. -/
inductive Layer where
  | qualifiers (quals : Qualifiers)
  | wrapping (wrapper : Wrapper)
  deriving DecidableEq, Inhabited

namespace Layer

/-- The request for the type with the layer around it. -/
def around (ty : TypeId) : Layer → TypeRequest
  | .qualifiers quals => .qualified ty quals
  | .wrapping wrapper => .wrapped wrapper ty

/-- The layers that do not change what values of the type are: qualifiers, the
parameter passing modes and packs. -/
def isTransparent : Layer → Bool
  | .qualifiers _ => true
  | .wrapping wrapper => wrapper.isTransparent

end Layer

/-- Put layers around a type in turn, after the commands given with each: the
type that comes of it and the workspace by then, if every request is answered
with a type. -/
def Workspace.layered (w : Workspace) (ty : TypeId) :
    List (List Command × Layer) → Option (TypeId × Workspace)
  | [] => some (ty, w)
  | (others, layer) :: rest =>
    match (w.run others).2.step (.ask (.type (layer.around ty))) with
    | (.ok (.node .type outer), w') => w'.layered outer rest
    | _ => none

/-! ## Structures in the table -/

namespace Context

variable {cx : Context}

/-- A structure has one handle. -/
theorem type_inj {ty ty' : TypeId} {kind : TypeKind} (h : cx.type ty = .ok kind)
    (h' : cx.type ty' = .ok kind) : ty = ty' :=
  Handle.index_inj.mp (Interner.eq_of_getElem? (fetch_eq_ok.mp h) (fetch_eq_ok.mp h'))

end Context

namespace Build

variable {cx : Context}

/-- **Qualifying.**  By nothing, it gives the type itself and stores nothing;
else the qualifiers are added to those that the type has, around what it is
without them. -/
theorem qualifiedType_sure {ty base : TypeId} {held quals : Qualifiers}
    (hsplit : cx.splitQualifiers ty = .ok (base, held)) :
    (qualifiedType ty quals).Sure cx fun outer es =>
      quals.isEmpty = true ∧ outer = ty ∧ es = [] ∨
        (cx.after es).type outer = .ok (.qualified base (held.union quals)) := by
  unfold qualifiedType
  cases hquals : quals.isEmpty with
  | true => exact .pure (.inl ⟨rfl, rfl, rfl⟩)
  | false =>
    rw [if_neg Bool.false_ne_true]
    obtain ⟨outer, es, hrun, hkind⟩ : (internType (.qualified base (held.union quals))).Sure cx
        fun outer es => (cx.after es).type outer = .ok (.qualified base (held.union quals)) :=
      .internType (cx.type_intern _)
    exact ⟨outer, es, (runOn_read_bind hsplit).trans hrun, .inr hkind⟩

end Build

/-! ## Layers in turn -/

namespace Workspace

variable {w : Workspace}

/-- How a query runs. -/
theorem step_query (w : Workspace) (q : Query) :
    w.step (.ask (.query q)) = ((q.answer w.context).mapError .broken, w) := rfl

/-- A layer that is put around goes on with the type that it gives. -/
theorem layered_cons {others : List Command} {layer : Layer} {ty outer : TypeId} {w' : Workspace}
    (h : (w.run others).2.step (.ask (.type (layer.around ty))) = (.ok (.node .type outer), w'))
    (rest : List (List Command × Layer)) :
    w.layered ty ((others, layer) :: rest) = w'.layered outer rest := by
  rw [layered, h]

/-- Layers in turn lead where some run leads. -/
theorem exists_run_of_layered {turns : List (List Command × Layer)} {ty outer : TypeId}
    {w' : Workspace} (h : w.layered ty turns = some (outer, w')) :
    ∃ commands, w' = (w.run commands).2 := by
  induction turns generalizing w ty with
  | nil =>
    cases h
    exact ⟨[], rfl⟩
  | cons turn rest ih =>
    obtain ⟨others, layer⟩ := turn
    rw [layered] at h
    split at h
    · next inner w₁ hstep =>
      obtain ⟨commands, hrun⟩ := ih h
      refine ⟨others ++ .ask (.type (layer.around ty)) :: commands, ?_⟩
      rw [hrun, run_append, run_cons, hstep]
    · cases h

end Workspace

end TermGraph
