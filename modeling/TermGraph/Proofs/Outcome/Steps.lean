import TermGraph.Proofs.Outcome.Requests
import TermGraph.Proofs.Runs

/-!
# What commands come to

Everything that one command can do, with whatever handles, is said here once
(`Workspace.step_does`).  The context is changed by effects that fit; then, if
the command was to link a definition and has succeeded, one linking follows
(`Workspace.linked?`).  A command that makes a node answers the handle of the
last one that it added, and a command that hands out a shared node has added
none.

Facts about runs without any condition on their handles come from this
statement and from what single effects do.
-/

namespace TermGraph

open Build

/-! ## What is made, shared and linked -/

/-- The category of the node that the request stores anew.  Types and
constraints are found again and so belong to none. -/
def Request.makes? : Request → Option Category
  | .name .global => none
  | .name _ => some .name
  | .expr _ => some .expr
  | .stmt _ => some .stmt
  | .decl _ => some .decl
  | .define kind | .link (.define _ kind) =>
    if kind.shared?.isSome then none else some .definition
  | .requirement _ => some .requirement
  | .intern _ | .type _ | .link _ | .constraint _ | .query _ => none

/-- The node that every request of this form is answered with. -/
def Request.shared? : Request → Option Answer
  | .name .global => some (.node .name NameId.global)
  | .define kind | .link (.define _ kind) => kind.shared?.map fun d => .node .definition d
  | _ => none

/-- How many nodes of the category of its answer the request stores before the
one that it answers: a called declaration is referred to first. -/
def Request.callees : Request → Nat
  | .expr (.callDecl _ _) => 1
  | _ => 0

/-- The declaration that the request wants a definition linked to. -/
def Request.asked? : Request → Option DeclId
  | .link (.attach d _) | .link (.define d _) => some d
  | _ => none

namespace Workspace

/-- The category of the node that the command stores anew. -/
def makes? (w : Workspace) : Command → Option Category
  | .ask request => request.makes?
  | .header place (.templatize _) => if (w.pending place).isSome then some .decl else none
  | .header _ _ => none

/-- The node that is handed out and not made: without a pending header a
declaration is handed back as it is. -/
def shared? (w : Workspace) : Command → Option Answer
  | .ask request => request.shared?
  | .header place (.templatize d) =>
    if (w.pending place).isSome then none else some (.node .decl d)
  | .header _ _ => none

/-- The slot that the command fills and what it puts there: a linking that
succeeds fills the slot of what the declaration stands for. -/
def linked? (w : Workspace) : Command → Option (DeclId × DefId)
  | .ask request =>
    match request.asked? with
    | none => none
    | some d =>
      match (w.step (.ask request)).1, w.context.arena.parameterized d with
      | .ok (.node .definition body), .ok target => some (target, body)
      | _, _ => none
  | .header _ _ => none

/-- Filling a slot, as an effect. -/
def linking (w : Workspace) (command : Command) : List Effect :=
  (w.linked? command).toList.map fun slot => .link slot.1 slot.2

end Workspace

/-- How many nodes of the category of its answer the command stores before the
one that it answers. -/
def Command.callees : Command → Nat
  | .ask request => request.callees
  | .header _ _ => 0

/-! ## Requests -/

/-- How a request to link runs: the answer names the definition. -/
theorem Request.runOn_link (request : LinkRequest) (cx : Context) :
    (Request.link request).perform.runOn cx =
      ((request.perform.runOn cx).1.map (Answer.node .definition), (request.perform.runOn cx).2) :=
  runOn_map _ _ _

/-- How a request for an expression runs. -/
theorem Request.runOn_expr (request : ExprRequest) (cx : Context) :
    (Request.expr request).perform.runOn cx =
      ((request.perform.runOn cx).1.map (Answer.node .expr), (request.perform.runOn cx).2) :=
  runOn_map _ _ _

/-- The answer names the node that was made, or the shared one that was asked
for. -/
structure Request.Answered (request : Request) (cx : Context) (answer : Answer)
    (es : List Effect) : Prop where
  fits : cx.Fitting es
  makes : ∀ c, request.makes? = some c →
    ∃ id : Handle c, answer = .node c id ∧ cx.Adds request.callees id es
  shares : ∀ node, request.shared? = some node → answer = node ∧ es = []

namespace Request

variable {cx : Context} {request : Request}

/-- A request that neither makes a node of its own nor shares one. -/
theorem Answered.plain {answer : Answer} {es : List Effect} (hmakes : request.makes? = none)
    (hshares : request.shared? = none) (h : cx.Fitting es) : request.Answered cx answer es where
  fits := h
  makes c hc := by
    rw [hmakes] at hc
    cases hc
  shares node hnode := by
    rw [hshares] at hnode
    cases hnode

/-- A request that makes one node. -/
theorem Answered.made {c : Category} {id : Handle c} {es : List Effect}
    (hmakes : request.makes? = some c) (hshares : request.shared? = none)
    (hcallees : request.callees = 0) (h : cx.Makes id es) :
    request.Answered cx (.node c id) es where
  fits := h.1
  makes d hd := by
    rw [hmakes] at hd
    cases hd
    exact ⟨id, rfl, hcallees ▸ h.2⟩
  shares node hnode := by
    rw [hshares] at hnode
    cases hnode

/-- A request that is answered with a shared node. -/
theorem Answered.handed {answer : Answer} (hmakes : request.makes? = none)
    (hshares : request.shared? = some answer) : request.Answered cx answer [] where
  fits := trivial
  makes c hc := by
    rw [hmakes] at hc
    cases hc
  shares node hnode := by
    rw [hshares] at hnode
    exact ⟨Option.some.inj hnode, rfl⟩

/-- A definition that is built, whether it is linked afterwards or not. -/
theorem Answered.defined {kind : DefKind} {body : DefId} {es : List Effect}
    (hmakes : request.makes? = if kind.shared?.isSome then none else some .definition)
    (hshares : request.shared? = kind.shared?.map fun d => .node .definition d)
    (hcallees : request.callees = 0) (h : cx.Defines kind body es) :
    request.Answered cx (.node .definition body) es := by
  unfold Context.Defines at h
  split at h
  · next shared hshared =>
    obtain ⟨rfl, rfl⟩ := h
    exact .handed (by rw [hmakes, hshared]; rfl) (by rw [hshares, hshared]; rfl)
  · next hshared =>
    obtain ⟨rfl, rfl⟩ := h
    exact .made (by rw [hmakes, hshared]; rfl) (by rw [hshares, hshared]; rfl) hcallees
      (.only rfl rfl trivial)

/-- Every request is atomic, unless it calls a declared function or links. -/
theorem perform_atomic (hcall : request.callees = 0) (hasked : request.asked? = none) :
    request.perform.Atomic cx fun answer es => request.Answered cx answer es := by
  cases request with
  | intern s => exact .map (.sure (.symbol (.plain rfl rfl ⟨trivial, trivial⟩)))
  | name request =>
    by_cases hglobal : request = .global
    · subst hglobal
      exact .map (.sure (.pure (.handed rfl rfl)))
    · have hmakes : (Request.name request).makes? = some .name := by cases request <;> trivial
      have hshares : (Request.name request).shared? = none := by cases request <;> trivial
      exact .map ((NameRequest.perform_atomic hglobal).mono fun _ _ h => .made hmakes hshares rfl h)
  | type request => exact .map (request.perform_atomic.mono fun _ _ h => .plain rfl rfl h)
  | expr request =>
    have hno : ∀ d args, request ≠ .callDecl d args := by
      rintro d args rfl
      cases hcall
    exact .map ((ExprRequest.perform_atomic hno).mono fun _ _ h => .made rfl rfl hcall h)
  | stmt kind => exact .map (.sure (.pushStmt (.made rfl rfl rfl (.only rfl rfl trivial))))
  | decl request => exact .map (request.perform_atomic.mono fun _ _ h => .made rfl rfl rfl h)
  | define kind => exact .map (.sure ((define_sure kind).mono fun _ _ h => .defined rfl rfl rfl h))
  | link request =>
    cases request with
    | attach | define => cases hasked
    | definitionOf d => exact .map (.read fun _ _ => .plain rfl rfl trivial)
  | requirement kind => exact .map (.sure (.pushReq (.made rfl rfl rfl (.only rfl rfl trivial))))
  | constraint kind => exact .map (.internConstraint fun _ => .plain rfl rfl ⟨trivial, trivial⟩)
  | query q => exact .read fun _ _ => .plain rfl rfl trivial

end Request

/-! ## Commands -/

namespace Workspace

variable {w : Workspace}

/-- The effects of a command before the linking, if there is one, and what
they say of its answer. -/
structure Does (w : Workspace) (command : Command) (es : List Effect) : Prop where
  fits : w.context.Fitting es
  context : (w.step command).2.context = w.context.after (es ++ w.linking command)
  makes : ∀ c, w.makes? command = some c → ∀ answer, (w.step command).1 = .ok answer →
    ∃ id : Handle c, answer = .node c id ∧ w.context.Adds command.callees id es
  shares : ∀ node, w.shared? command = some node →
    es = [] ∧ ∀ answer, (w.step command).1 = .ok answer → answer = node
  links : ∀ slot, w.linked? command = some slot →
    ∃ kind, w.context.arena.decl slot.1 = .ok kind ∧ (kind.define? slot.2).isSome

/-- A slot is filled by a request that asked for it and succeeded, and only in
a declaration that can be defined. -/
theorem linked?_eq_some {request : Request} {slot : DeclId × DefId} :
    w.linked? (.ask request) = some slot ↔ ∃ d, request.asked? = some d ∧
      (w.step (.ask request)).1 = .ok (.node .definition slot.2) ∧
      w.context.arena.parameterized d = .ok slot.1 := by
  constructor
  · intro h
    rw [linked?] at h
    split at h
    · cases h
    · next d hasked =>
      split at h
      · next body target hanswer htarget =>
        cases h
        exact ⟨d, hasked, hanswer, htarget⟩
      · cases h
  · rintro ⟨d, hasked, hanswer, htarget⟩
    simp only [linked?, hasked, hanswer, htarget]

/-- Where nothing is asked to be linked nothing is. -/
theorem linking_eq_nil {command : Command} (h : w.linked? command = none) :
    w.linking command = [] := by
  rw [linking, h]
  rfl

/-- Other requests link nothing. -/
theorem linked?_of_not_asked {request : Request} (h : request.asked? = none) :
    w.linked? (.ask request) = none := by
  rw [linked?, h]

/-- A command that asks runs the request on the context, and leaves pending
headers alone. -/
theorem step_ask (w : Workspace) (request : Request) :
    w.step (.ask request) =
      ((request.perform.runOn w.context).1, { w with context := (request.perform.runOn w.context).2 }) :=
  rfl

/-- A request for a node that is answered. -/
theorem step_node {request : Request} {c : Category} {b : Build (Handle c)} {id : Handle c}
    {cx : Context} (hrequest : request.perform = Answer.node c <$> b)
    (h : b.runOn w.context = (.ok id, cx)) :
    w.step (.ask request) = (.ok (.node c id), { w with context := cx }) := by
  rw [step_ask, hrequest, runOn_map, h]
  rfl

/-- A request for a node that fails. -/
theorem step_node_error {request : Request} {c : Category} {b : Build (Handle c)}
    {failure : Failure} {cx : Context} (hrequest : request.perform = Answer.node c <$> b)
    (h : b.runOn w.context = (.error failure, cx)) :
    w.step (.ask request) = (.error failure, { w with context := cx }) := by
  rw [step_ask, hrequest, runOn_map, h]
  rfl

/-- Where the answer is a failure no slot is filled. -/
theorem linked?_of_error {request : Request} {failure : Failure}
    (h : (w.step (.ask request)).1 = .error failure) : w.linked? (.ask request) = none := by
  cases hlinked : w.linked? (.ask request) with
  | none => rfl
  | some slot =>
    obtain ⟨d, _, hanswer, _⟩ := linked?_eq_some.mp hlinked
    rw [h] at hanswer
    cases hanswer

/-- A command that changes nothing and neither makes nor shares a node. -/
theorem Does.nothing {command : Command} (hmakes : w.makes? command = none)
    (hshares : w.shared? command = none) (hlinked : w.linked? command = none)
    (hcontext : (w.step command).2.context = w.context) : w.Does command [] := by
  refine ⟨trivial, ?_, fun c hc => ?_, fun node hnode => ?_, fun slot hslot => ?_⟩
  · rw [linking_eq_nil hlinked]
    exact hcontext
  · rw [hmakes] at hc
    cases hc
  · rw [hshares] at hnode
    cases hnode
  · rw [hlinked] at hslot
    cases hslot

/-- A request that failed after effects that fit. -/
theorem Does.failed {request : Request} {failure : Failure} {es : List Effect}
    (hrun : request.perform.runOn w.context = (.error failure, w.context.after es))
    (hfits : w.context.Fitting es) (hshares : ∀ node, request.shared? = some node → es = []) :
    w.Does (.ask request) es := by
  have herror : (w.step (.ask request)).1 = .error failure := by rw [step_ask, hrun]
  have hno : ∀ answer, (w.step (.ask request)).1 ≠ .ok answer := by
    intro answer hok
    rw [herror] at hok
    cases hok
  have hlinked : w.linked? (.ask request) = none := linked?_of_error herror
  refine ⟨hfits, ?_, fun c _ answer hok => (hno answer hok).elim, fun node hnode => ?_,
    fun slot hslot => ?_⟩
  · rw [linking_eq_nil hlinked, List.append_nil, step_ask, hrun]
  · exact ⟨hshares node hnode, fun answer hok => (hno answer hok).elim⟩
  · rw [hlinked] at hslot
    cases hslot

/-- A request that was answered. -/
theorem Does.answered {request : Request} {answer : Answer} {es : List Effect}
    (hrun : request.perform.runOn w.context =
      (.ok answer, w.context.after (es ++ w.linking (.ask request))))
    (h : request.Answered w.context answer es)
    (hlinks : ∀ slot, w.linked? (.ask request) = some slot →
      ∃ kind, w.context.arena.decl slot.1 = .ok kind ∧ (kind.define? slot.2).isSome) :
    w.Does (.ask request) es := by
  have hanswer : ∀ answer', (w.step (.ask request)).1 = .ok answer' → answer' = answer := by
    intro answer' hok
    rw [step_ask, hrun] at hok
    exact (Except.ok.inj hok).symm
  refine ⟨h.fits, by rw [step_ask, hrun], fun c hc answer' hok => ?_, fun node hnode => ?_,
    hlinks⟩
  · rw [hanswer answer' hok]
    exact h.makes c hc
  · obtain ⟨hsame, hes⟩ := h.shares node hnode
    exact ⟨hes, fun answer' hok => (hanswer answer' hok).trans hsame⟩

/-- An atomic request does nothing, or what its answer says. -/
theorem does_of_atomic {request : Request} (hasked : request.asked? = none)
    (h : request.perform.Atomic w.context fun answer es => request.Answered w.context answer es) :
    ∃ es, w.Does (.ask request) es := by
  have hlinked : w.linked? (.ask request) = none := linked?_of_not_asked hasked
  rcases h with ⟨failure, hrun⟩ | ⟨answer, es, hrun, hanswered⟩
  · exact ⟨[], .failed hrun trivial fun _ _ => rfl⟩
  · refine ⟨es, .answered ?_ hanswered fun slot hslot => ?_⟩
    · rw [linking_eq_nil hlinked, List.append_nil, hrun]
    · rw [hlinked] at hslot
      cases hslot

/-- A request to link, after the effects that build the definition. -/
theorem does_of_links {request : Request} {d : DeclId} {body : DefId} {es : List Effect}
    (hasked : request.asked? = some d)
    (hanswered : request.Answered w.context (.node .definition body) es)
    (h : (∃ failure, request.perform.runOn w.context = (.error failure, w.context.after es)) ∨
      ∃ fs, request.perform.runOn w.context =
          (.ok (.node .definition body), w.context.after (es ++ fs)) ∧
        Links w.context d body fs) :
    w.Does (.ask request) es := by
  rcases h with ⟨failure, hrun⟩ | ⟨fs, hrun, target, kind, htarget, hkind, hdef, rfl⟩
  · exact .failed hrun hanswered.fits fun node hnode => (hanswered.shares node hnode).2
  · have hlinked : w.linked? (.ask request) = some (target, body) :=
      linked?_eq_some.mpr ⟨d, hasked, by rw [step_ask, hrun], htarget⟩
    refine .answered ?_ hanswered fun slot hslot => ?_
    · rw [linking, hlinked]
      exact hrun
    · rw [hlinked] at hslot
      cases hslot
      exact ⟨kind, hkind, hdef⟩

/-- Attaching builds nothing and then links. -/
theorem attach_does (d : DeclId) (body : DefId) :
    ∃ es, w.Does (.ask (.link (.attach d body))) es := by
  have hanswered : (Request.link (.attach d body)).Answered w.context (.node .definition body) [] :=
    .plain rfl rfl trivial
  refine ⟨[], does_of_links rfl hanswered ?_⟩
  rcases attach_perform_atomic w.context d body with ⟨failure, hrun⟩ | ⟨_, fs, hrun, rfl, hlinks⟩
  · exact .inl ⟨failure, by rw [Request.runOn_link, hrun]; rfl⟩
  · exact .inr ⟨fs, by rw [Request.runOn_link, hrun]; rfl, hlinks⟩

/-- A definition is built, or is a shared one, and then linked. -/
theorem define_does (d : DeclId) (kind : DefKind) :
    ∃ es, w.Does (.ask (.link (.define d kind))) es := by
  obtain ⟨body, es, hdefines, h⟩ := define_attach_outcome w.context d kind
  refine ⟨es, does_of_links rfl (.defined rfl rfl rfl hdefines) ?_⟩
  rcases h with ⟨failure, hrun⟩ | ⟨fs, hrun, hlinks⟩
  · exact .inl ⟨failure, by rw [Request.runOn_link, hrun]; rfl⟩
  · exact .inr ⟨fs, by rw [Request.runOn_link, hrun]; rfl, hlinks⟩

/-- The call of a declared function stores the reference and then the call, and
links nothing. -/
theorem callDecl_does (d : DeclId) (args : List ExprId) :
    ∃ es, w.Does (.ask (.expr (.callDecl d args))) es := by
  have hlinking : w.linking (.ask (.expr (.callDecl d args))) = [] :=
    linking_eq_nil (linked?_of_not_asked rfl)
  have hperform : ∀ {answer cx}, (callDecl d args).runOn w.context = (answer, cx) →
      (Request.expr (.callDecl d args)).perform.runOn w.context
        = (answer.map (Answer.node .expr), cx) := by
    intro answer cx hrun
    rw [Request.runOn_expr, ExprRequest.perform, hrun]
  rcases callDecl_outcome w.context d args with
    ⟨failure, _, hrun⟩ | ⟨callee, es, _, hrefers, ⟨failure, hrun⟩ | ⟨e, fs, hrun, hcall⟩⟩
  · exact ⟨[], .failed (hperform hrun) trivial fun _ _ => rfl⟩
  · exact ⟨es, .failed (hperform hrun) hrefers.makes.1 nofun⟩
  · have hok := hperform hrun
    rw [← List.append_nil (es ++ fs), ← hlinking] at hok
    obtain ⟨hfits, hadds⟩ := hrefers.makes.next rfl hcall
    refine ⟨es ++ fs, .answered hok ⟨hfits, fun c hc => ?_, nofun⟩ nofun⟩
    cases hc
    exact ⟨e, rfl, hadds⟩

/-- A request about a header changes the context only by wrapping a pending
header around a declaration. -/
theorem header_does (place : Nat) (request : HeaderRequest) :
    ∃ es, w.Does (.header place request) es := by
  cases request with
  | start | isPending | reset => exact ⟨[], .nothing rfl rfl rfl rfl⟩
  | constrain expr =>
    refine ⟨[], .nothing rfl rfl rfl ?_⟩
    simp only [step, HeaderRequest.perform]
    cases w.pending place <;> rfl
  | templatize d =>
    cases hpending : w.pending place with
    | none =>
      have hstep : (w.step (.header place (.templatize d))).1 = .ok (.node .decl d) ∧
          (w.step (.header place (.templatize d))).2.context = w.context := by
        simp only [step, HeaderRequest.perform, hpending]
        exact ⟨rfl, rfl⟩
      refine ⟨[], trivial, hstep.2, fun c hc => ?_, fun node hnode => ⟨rfl, fun answer hok => ?_⟩,
        fun slot hslot => by cases hslot⟩
      · simp [makes?, hpending] at hc
      · rw [hstep.1] at hok
        simp only [shared?, hpending] at hnode
        cases hok
        cases hnode
        rfl
    | some header =>
      have hstep : (w.step (.header place (.templatize d))).1
            = .ok (.node .decl ⟨w.context.count .decl⟩) ∧
          (w.step (.header place (.templatize d))).2.context
            = w.context.after [.decl (.template header.parms d header.constraint)] := by
        simp only [step, HeaderRequest.perform, hpending]
        exact ⟨rfl, rfl⟩
      refine ⟨[.decl (.template header.parms d header.constraint)], ⟨trivial, trivial⟩, hstep.2,
        fun c hc answer hok => ?_, fun node hnode => ?_, fun slot hslot => by cases hslot⟩
      · simp only [makes?, hpending] at hc
        cases hc
        rw [hstep.1] at hok
        cases hok
        exact ⟨_, rfl, rfl, rfl⟩
      · simp [shared?, hpending] at hnode

/-- **One command.**  Effects that fit, then the linking if there is one. -/
theorem step_does (w : Workspace) (command : Command) : ∃ es, w.Does command es := by
  cases command with
  | header place request => exact header_does place request
  | ask request =>
    by_cases hcall : request.callees = 0
    · cases hasked : request.asked? with
      | none => exact does_of_atomic hasked (request.perform_atomic hcall hasked)
      | some d =>
        match request, hasked with
        | .link (.attach d body), _ => exact attach_does d body
        | .link (.define d kind), _ => exact define_does d kind
    · match request, hcall with
      | .expr (.callDecl d args), _ => exact callDecl_does d args

/-- Commands lead to later states, whatever handles they pass. -/
theorem step_precedes (w : Workspace) (command : Command) :
    w.context.Precedes (w.step command).2.context := by
  obtain ⟨es, h⟩ := w.step_does command
  rw [h.context]
  exact w.context.precedes_after _

/-- Runs lead to later states, whatever handles they pass. -/
theorem run_precedes (w : Workspace) (commands : List Command) :
    w.context.Precedes (w.run commands).2.context := by
  induction commands generalizing w with
  | nil => exact .refl _
  | cons command rest ih => exact (w.step_precedes command).trans (ih (w.step command).2)

/-- What a run has reached comes before what it reaches when it goes on. -/
theorem reached_precedes (config : Config) (digest : List Nat → UInt64)
    (commands rest : List Command) :
    (reached config digest commands).context.Precedes
      (reached config digest (commands ++ rest)).context := by
  rw [reached, reached, run_append]
  exact run_precedes _ rest

end Workspace

/-! ## What every effect keeps -/

/-- The property of contexts is kept by the effects that fit and by linking,
so by everything that commands do to a context. -/
structure Effect.Keeps (P : Context → Prop) : Prop where
  fitting : ∀ (cx : Context) (effect : Effect), P cx → effect.Fits cx → P (effect.apply cx)
  linking : ∀ (cx : Context) (d : DeclId) (body : DefId), P cx →
    P ((Effect.link d body).apply cx)

namespace Effect.Keeps

variable {P : Context → Prop}

/-- Effects in a row keep it when each of them does. -/
theorem after (h : Keeps P) {cx : Context} {es : List Effect} (hcx : P cx) (hes : cx.Fitting es) :
    P (cx.after es) := by
  induction es generalizing cx with
  | nil => exact hcx
  | cons effect rest ih =>
    obtain ⟨hfits, hrest⟩ := hes
    exact ih (h.fitting cx effect hcx hfits) hrest

/-- One command keeps what every effect keeps, whatever handles it passes. -/
theorem step (h : Keeps P) {w : Workspace} (hw : P w.context) (command : Command) :
    P (w.step command).2.context := by
  obtain ⟨es, hdoes⟩ := w.step_does command
  have hbuilt : P (w.context.after es) := h.after hw hdoes.fits
  rw [hdoes.context, Context.after_append, Workspace.linking]
  cases w.linked? command with
  | none => exact hbuilt
  | some slot => exact h.linking _ slot.1 slot.2 hbuilt

/-- So does a run, command by command. -/
theorem run (h : Keeps P) {w : Workspace} (hw : P w.context) (commands : List Command) :
    P (w.run commands).2.context := by
  induction commands generalizing w with
  | nil => exact hw
  | cons command rest ih => exact ih (h.step hw command)

/-- **What every effect keeps** holds after any run if it holds of a context
that nothing was asked of yet. -/
theorem reached (h : Keeps P) (config : Config) (digest : List Nat → UInt64)
    (hcreate : P (.create config digest)) (commands : List Command) :
    P (Workspace.reached config digest commands).context :=
  h.run hcreate commands

end Effect.Keeps

end TermGraph
