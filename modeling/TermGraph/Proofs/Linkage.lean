import TermGraph.Proofs.Outcome.Failed

/-!
# Definitions over whole runs

The slot in which a function, a class or a concept keeps its definition is the
one thing in a graph that is ever overwritten.  A command fills at most one
slot (`Workspace.fills?`), and a declaration is after the command what it was
before with that slot filled (`Workspace.step_decl`).

Over a run the slot therefore behaves like a register.  It is written by the
commands that link to it, whichever template they go through
(`Workspace.linkedTo`), it holds what was written last (`Workspace.run_decl`),
and before the first writing it holds what the declaration was created with.
-/

namespace TermGraph

open Build

/-! ## Slots -/

namespace DeclKind

/-- What is in the slot that linking fills, for the kinds that have one. -/
def slot? : DeclKind → Option DefId
  | .function _ _ _ _ body | .classType _ _ body | .concept _ _ body => some body
  | _ => none

/-- The declaration with a definition put into its slot, if there is a
definition and if there is a slot. -/
def filled (kind : DeclKind) (body? : Option DefId) : DeclKind :=
  (body?.bind fun body => kind.define? body).getD kind

/-- What has a slot is what can be defined. -/
theorem isSome_define? (body : DefId) (kind : DeclKind) :
    (kind.define? body).isSome = kind.slot?.isSome := by
  cases kind <;> rfl

/-- Of two definitions put into a slot the later one stays. -/
theorem filled_filled (kind : DeclKind) (first later : Option DefId) :
    (kind.filled first).filled later = kind.filled (later.or first) := by
  cases later with
  | none => rfl
  | some body =>
    cases first with
    | none => rfl
    | some old => cases kind <;> rfl

/-- A slot that was filled holds what it was filled with last, or what it held
first. -/
theorem slot?_filled {kind : DeclKind} {first : DefId} (h : kind.slot? = some first)
    (body? : Option DefId) : (kind.filled body?).slot? = some (body?.getD first) := by
  cases body? with
  | none => exact h
  | some body => cases kind <;> first | rfl | cases h

/-- What has no slot is not changed. -/
theorem filled_of_slot?_eq_none {kind : DeclKind} (h : kind.slot? = none) (body? : Option DefId) :
    kind.filled body? = kind := by
  cases body? with
  | none => rfl
  | some body => cases kind <;> first | rfl | cases h

end DeclKind

/-- The definition of a declaration is what is in the slot of what it stands
for. -/
theorem Arena.definitionOf_of_slot? {a : Arena} {d target : DeclId} {kind : DeclKind}
    {body : DefId} (htarget : a.parameterized d = .ok target) (hkind : a.decl target = .ok kind)
    (hslot : kind.slot? = some body) : a.definitionOf d = .ok body := by
  refine bind_eq_ok.mpr ⟨target, htarget, bind_eq_ok.mpr ⟨kind, hkind, ?_⟩⟩
  cases kind with
  | function | classType | concept =>
    cases hslot
    rfl
  | _ => cases hslot

/-! ## Declarations and effects -/

/-- A declaration after a linking to itself or to another one. -/
theorem Arena.decl_link (a : Arena) (target d : DeclId) (body : DefId) :
    (a.link target body).decl d
      = (fun kind => kind.filled (if target = d then some body else none)) <$> a.decl d := by
  have hsize : (a.link target body).decls.size = a.decls.size := Array.size_modify
  have hget : (a.link target body).decls[d.index]? = a.decls[d.index]?.map fun kind =>
      kind.filled (if target = d then some body else none) := by
    rw [Arena.link, Array.getElem?_modify]
    by_cases hd : target = d
    · subst hd
      rw [if_pos rfl, if_pos rfl]
      rfl
    · have hindex : target.index ≠ d.index := fun heq => hd (Handle.index_inj.mp heq)
      rw [if_neg hindex, if_neg hd]
      cases a.decls[d.index]? <;> rfl
  simp only [Arena.decl, fetch, hget, hsize]
  cases a.decls[d.index]? <;> rfl

/-- What a declaration stands for is not changed by linking. -/
theorem Arena.parameterized_link (a : Arena) (target d : DeclId) (body : DefId) :
    (a.link target body).parameterized d = a.parameterized d := by
  rw [Arena.parameterized, Arena.parameterized, Arena.decl_link]
  cases a.decl d with
  | error fault => rfl
  | ok kind =>
    by_cases hd : target = d
    · rw [if_pos hd]
      cases kind <;> rfl
    · rw [if_neg hd]
      rfl

/-- Linking changes the definition of no declaration that stands for another
one. -/
theorem Arena.definitionOf_link_of_ne {a : Arena} {target d : DeclId} {body : DefId}
    (h : a.parameterized d ≠ .ok target) :
    (a.link target body).definitionOf d = a.definitionOf d := by
  rw [Arena.definitionOf, Arena.definitionOf, Arena.parameterized_link]
  cases hother : a.parameterized d with
  | error fault => rfl
  | ok other =>
    have hne : target ≠ other := by
      rintro rfl
      exact h hother
    have hsame : (a.link target body).decl other = a.decl other := by
      rw [Arena.decl_link, if_neg hne]
      cases a.decl other <;> rfl
    show ((a.link target body).decl other >>= _) = (a.decl other >>= _)
    rw [hsame]

/-- An effect that fits leaves declarations as they are. -/
theorem Effect.Fits.decl_apply {cx : Context} {e : Effect} (hfits : e.Fits cx) {d : DeclId}
    {kind : DeclKind} (h : cx.arena.decl d = .ok kind) : (e.apply cx).arena.decl d = .ok kind := by
  cases e with
  | link target body => cases hfits
  | decl new =>
    have hlt : d.index < cx.arena.decls.size := lt_of_fetch h
    have hget := fetch_eq_ok.mp h
    apply fetch_eq_ok.mpr
    show (cx.arena.decls.push new)[d.index]? = some kind
    rw [Array.getElem?_push, if_neg (by omega), hget]
  | constraint new =>
    simp only [apply]
    split <;> exact h
  | _ => exact h

/-- Effects that fit leave a declaration alone, its definition included; linking
is not among them. -/
theorem Context.Fitting.decl_after {cx : Context} {es : List Effect} (hfits : cx.Fitting es)
    {d : DeclId} {kind : DeclKind} (h : cx.arena.decl d = .ok kind) :
    (cx.after es).arena.decl d = .ok kind := by
  induction es generalizing cx with
  | nil => exact h
  | cons e rest ih => exact ih hfits.2 (hfits.1.decl_apply h)

/-! ## What declarations are created with -/

/-- What is in the slot of the declaration that is asked for: the shared empty
definition, the one that the request brings along, or the one that is built for
it, which is the next. -/
def DeclRequest.slot? (cx : Context) : DeclRequest → Option DefId
  | .function _ _ _ _ none | .classType _ _ => some .empty
  | .function _ _ _ _ (some _) | .conceptOf _ _ _ => some ⟨cx.count .definition⟩
  | .concept _ _ body => some body
  | _ => none

/-- After the effects the declaration is there, with this in its slot. -/
def Context.Creates (cx : Context) (d : DeclId) (slot? : Option DefId) (es : List Effect) : Prop :=
  ∃ kind, (cx.after es).arena.decl d = .ok kind ∧ kind.slot? = slot?

namespace Build

variable {cx : Context} {kind : DeclKind} {slot? : Option DefId}

/-- A declaration stored after what it needs. -/
theorem pushDecl_creates (es : List Effect) (h : kind.slot? = slot?) :
    (pushDecl kind).Sure (cx.after es) fun d fs => cx.Creates d slot? (es ++ fs) := by
  refine .pushDecl ⟨kind, ?_, h⟩
  rw [Context.after_append]
  exact fetch_push_size _ _

/-- A declaration that needs nothing else is created by storing it. -/
theorem pushDecl_creates_alone (h : kind.slot? = slot?) :
    (pushDecl kind).Atomic cx fun d es => cx.Creates d slot? es :=
  .sure (pushDecl_creates [] h)

/-- The body of a function is the next definition, or the empty one. -/
theorem functionBody_sure (body : Option FunctionBody) :
    (functionBody body).Sure cx fun d _ =>
      d = match body with | none => .empty | some _ => ⟨cx.count .definition⟩ := by
  cases body with
  | none => exact .pure rfl
  | some body => cases body <;> exact .pushDef rfl

end Build

/-- A declaration that is asked for is created with the definition that the
request says. -/
theorem DeclRequest.perform_creates {cx : Context} (request : DeclRequest) :
    request.perform.Atomic cx fun d es => cx.Creates d (request.slot? cx) es := by
  cases request with
  | superclass | classType | template | concept | objectParm | valueParm | typeParm =>
    exact pushDecl_creates_alone rfl
  | var _ _ init | field _ _ init =>
    exact .sure (.bind ((initializer_spares init).mono fun _ es _ => pushDecl_creates es rfl))
  | function flavor name parms ret body =>
    refine .bind (functionType_atomic.mono fun ty es hty => .bind ?_)
    refine (functionBody_sure body).mono fun d fs hd => ?_
    -- the type of the function comes first, but it is no definition
    have hcount : (cx.after es).count .definition = cx.count .definition := by
      rw [Context.count_after rfl, (hty .definition).2, Nat.add_zero]
    have hslot : (DeclKind.function flavor name ty parms d).slot?
        = (DeclRequest.function flavor name parms ret body).slot? cx := by
      rw [hcount] at hd
      subst hd
      cases body <;> rfl
    have hpush : (pushDecl (.function flavor name ty parms d)).Sure (cx.after (es ++ fs)) _ :=
      pushDecl_creates (es ++ fs) hslot
    rw [Context.after_append] at hpush
    exact hpush.mono fun d gs hcreates => by rwa [← List.append_assoc]
  | conceptOf _ _ body =>
    refine .sure (.bind ((define_sure (.expression body)).mono fun d es hd => ?_))
    exact pushDecl_creates es (congrArg some hd.1)
  | nameSpace => exact .throw

/-! ## Commands that fill slots -/

namespace Workspace

variable {w : Workspace} {target : DeclId}

/-- The definition that the command puts into the slot of the declaration. -/
def fills? (w : Workspace) (command : Command) (target : DeclId) : Option DefId :=
  match w.linked? command with
  | some (filled, body) => if filled = target then some body else none
  | none => none

/-- A command fills the slot of a declaration when it links a definition to it. -/
theorem fills?_eq_some {command : Command} {body : DefId} :
    w.fills? command target = some body ↔ w.linked? command = some (target, body) := by
  unfold fills?
  cases hlinked : w.linked? command with
  | none => simp
  | some slot =>
    obtain ⟨filled, found⟩ := slot
    by_cases hfilled : filled = target <;> simp [hfilled]

/-- **One command.**  A declaration is what it was, with its slot filled if the
command fills it. -/
theorem step_decl {kind : DeclKind} (h : w.context.arena.decl target = .ok kind)
    (command : Command) :
    (w.step command).2.context.arena.decl target = .ok (kind.filled (w.fills? command target)) := by
  obtain ⟨es, hdoes⟩ := w.step_does command
  have hafter : (w.context.after es).arena.decl target = .ok kind := hdoes.fits.decl_after h
  rw [hdoes.context, Context.after_append, linking, fills?]
  cases w.linked? command with
  | none => exact hafter
  | some slot =>
    show ((w.context.after es).arena.link slot.1 slot.2).decl target = _
    rw [Arena.decl_link, hafter]
    rfl

/-- A slot is filled only in a declaration that is there and has one. -/
theorem slot?_of_fills? {command : Command} {body : DefId}
    (h : w.fills? command target = some body) :
    ∃ kind, w.context.arena.decl target = .ok kind ∧ kind.slot?.isSome := by
  obtain ⟨es, hdoes⟩ := w.step_does command
  obtain ⟨kind, hkind, hdef⟩ := hdoes.links _ (fills?_eq_some.mp h)
  exact ⟨kind, hkind, by rwa [← kind.isSome_define? body]⟩

/-! ## Runs -/

/-- The definitions that the run puts into the slot of the declaration, in
order. -/
def linkedTo (target : DeclId) : Workspace → List Command → List DefId
  | _, [] => []
  | w, command :: rest => (w.fills? command target).toList ++ linkedTo target (w.step command).2 rest

/-- What a run links is what its parts link, in order. -/
theorem linkedTo_append (w : Workspace) (before after : List Command) :
    linkedTo target w (before ++ after)
      = linkedTo target w before ++ linkedTo target (w.run before).2 after := by
  induction before generalizing w with
  | nil => rfl
  | cons command rest ih =>
    simp only [List.cons_append, linkedTo, ih, List.append_assoc, run]

/-- **Runs.**  A declaration is what it was, with what the run linked to it
last in its slot. -/
theorem run_decl {kind : DeclKind} (h : w.context.arena.decl target = .ok kind)
    (commands : List Command) :
    (w.run commands).2.context.arena.decl target
      = .ok (kind.filled (linkedTo target w commands).getLast?) := by
  induction commands generalizing w kind with
  | nil => exact h
  | cons command rest ih =>
    have hrest := ih (step_decl h command)
    rw [DeclKind.filled_filled] at hrest
    have hlast : (linkedTo target w (command :: rest)).getLast?
        = (linkedTo target (w.step command).2 rest).getLast?.or (w.fills? command target) := by
      rw [linkedTo, List.getLast?_append]
      cases w.fills? command target <;> rfl
    rw [hlast]
    exact hrest

/-- Nothing is linked to a declaration that is not there yet. -/
theorem fills?_of_not_issued (h : ¬ w.context.Issued target) (command : Command) :
    w.fills? command target = none := by
  cases hfills : w.fills? command target with
  | none => rfl
  | some body =>
    obtain ⟨kind, hkind, _⟩ := slot?_of_fills? hfills
    exact absurd (Context.issued_of_decl hkind) h

/-- Nothing was linked in the run to what is not there after it. -/
theorem linkedTo_of_not_issued {commands : List Command}
    (h : ¬ (w.run commands).2.context.Issued target) : linkedTo target w commands = [] := by
  induction commands generalizing w with
  | nil => rfl
  | cons command rest ih =>
    have hnow : ¬ w.context.Issued target := fun hissued =>
      h (hissued.later (w.run_precedes (command :: rest)))
    have hrest : linkedTo target (w.step command).2 rest = [] := ih h
    rw [linkedTo, fills?_of_not_issued hnow, hrest]
    rfl

/-- What is there after a run and was not there before has come with one of its
commands. -/
theorem exists_step_of_issued {c : Category} {id : Handle c} {commands : List Command}
    (hbefore : ¬ w.context.Issued id) (hafter : (w.run commands).2.context.Issued id) :
    ∃ before command after, commands = before ++ command :: after ∧
      ¬ (w.run before).2.context.Issued id ∧
      (w.run (before ++ [command])).2.context.Issued id := by
  induction commands generalizing w with
  | nil => exact absurd hafter hbefore
  | cons command rest ih =>
    by_cases hstep : (w.step command).2.context.Issued id
    · exact ⟨[], command, rest, rfl, hbefore, hstep⟩
    · obtain ⟨before, next, after, rfl, hnot, hissued⟩ := ih hstep hafter
      exact ⟨command :: before, next, after, rfl, hnot, hissued⟩

/-- What is new after a request for a declaration has what the request says in
its slot. -/
theorem slot?_of_step_decl {request : DeclRequest} {kind : DeclKind}
    (hnew : ¬ w.context.Issued target)
    (hkind : (w.step (.ask (.decl request))).2.context.arena.decl target = .ok kind) :
    kind.slot? = request.slot? w.context := by
  have hstep : w.step (.ask (.decl request)) =
      ((request.perform.runOn w.context).1.map (Answer.node .decl),
        { w with context := (request.perform.runOn w.context).2 }) := by
    rw [step_ask, Request.perform, runOn_map]
  have hcreates : request.perform.Atomic w.context fun d es =>
      w.context.Creates d (request.slot? w.context) es := request.perform_creates
  rcases hcreates with ⟨failure, hrun⟩ | ⟨d, es, hrun, found, hfound, hslot⟩
  · rw [hstep, hrun] at hkind
    exact absurd (Context.issued_of_decl hkind) hnew
  · rw [hrun] at hstep
    -- one declaration is new, so it is the one answered
    obtain ⟨fs, hdoes⟩ := w.step_does (.ask (.decl request))
    obtain ⟨id, hid, hindex, hpushed⟩ := hdoes.makes .decl rfl (.node .decl d) (by rw [hstep]; rfl)
    have hcount : (w.step (.ask (.decl request))).2.context.count .decl
        = w.context.count .decl + 1 := by
      rw [hdoes.context, linking_eq_nil (linked?_of_not_asked rfl), List.append_nil,
        Context.count_after rfl, hpushed]
      rfl
    have hsame : target = d := by
      cases hid
      have hlt : target.index < (w.step (.ask (.decl request))).2.context.count .decl :=
        Context.issued_of_decl hkind
      have hge : w.context.count .decl ≤ target.index := Nat.le_of_not_lt hnew
      have hcallees : (Command.ask (.decl request)).callees = 0 := rfl
      exact Handle.index_inj.mp (by omega)
    rw [hstep, hsame] at hkind
    obtain rfl : found = kind := Except.ok.inj (hfound.symm.trans hkind)
    exact hslot

/-- The declaration was created in the run, by a command after which this was
in its slot; if a declaration was asked for, that is what the request said. -/
def CreatedWith (config : Config) (digest : List Nat → UInt64) (commands : List Command)
    (target : DeclId) (first : DefId) : Prop :=
  ∃ before command after kind, commands = before ++ command :: after ∧
    ¬ (reached config digest before).context.Issued target ∧
    (reached config digest (before ++ [command])).context.arena.decl target = .ok kind ∧
    kind.slot? = some first ∧
    ∀ request, command = .ask (.decl request) →
      request.slot? (reached config digest before).context = some first

/-- No slot is there from the start. -/
theorem slot?_start {config : Config} {digest : List Nat → UInt64} {kind : DeclKind}
    (h : (start config digest).context.arena.decl target = .ok kind) : kind.slot? = none := by
  have hget : #[DeclKind.nameSpace .global []][target.index]? = some kind := fetch_eq_ok.mp h
  obtain ⟨hlt, hkind⟩ := Array.getElem?_eq_some_iff.mp hget
  have hzero : target.index = 0 := Nat.lt_one_iff.mp hlt
  subst hkind
  simp [hzero, DeclKind.slot?]

/-- A slot holds what the run linked to it last, or what it was created
with. -/
theorem slot?_reached {config : Config} {digest : List Nat → UInt64} {commands : List Command}
    {kind : DeclKind} (hkind : (reached config digest commands).context.arena.decl target = .ok kind)
    (hslot : kind.slot?.isSome) :
    ∃ first, CreatedWith config digest commands target first ∧
      kind.slot? = some ((linkedTo target (start config digest) commands).getLast?.getD first) := by
  have hnew : ¬ (start config digest).context.Issued target := by
    intro hissued
    obtain ⟨kind₀, hkind₀⟩ := exists_fetch hissued
    have hnone := slot?_start hkind₀
    have hsame := run_decl hkind₀ commands
    rw [DeclKind.filled_of_slot?_eq_none hnone, ← reached, hkind] at hsame
    cases hsame
    rw [hnone] at hslot
    cases hslot
  have hissued : (reached config digest commands).context.Issued target :=
    Context.issued_of_decl hkind
  obtain ⟨before, command, after, rfl, hnot, hcreated⟩ := exists_step_of_issued hnew hissued
  obtain ⟨kind₁, hkind₁⟩ := exists_fetch hcreated
  -- before its creation nothing was linked to the declaration
  have hlinked : linkedTo target (start config digest) (before ++ command :: after)
      = linkedTo target (reached config digest (before ++ [command])) after := by
    have hbefore := linkedTo_of_not_issued hnot
    have hcommand := fills?_of_not_issued hnot command
    rw [linkedTo_append, hbefore, linkedTo, hcommand, reached, run_append]
    rfl
  -- and from then on its slot is known
  have hlater := run_decl hkind₁ after
  rw [← run_append, ← List.append_cons, ← reached, hkind] at hlater
  cases hlater
  cases hfirst : kind₁.slot? with
  | none =>
    rw [DeclKind.filled_of_slot?_eq_none hfirst, hfirst] at hslot
    cases hslot
  | some first =>
    refine ⟨first, ⟨before, command, after, kind₁, rfl, hnot, hkind₁, hfirst, ?_⟩, ?_⟩
    · rintro request rfl
      rw [run_append] at hkind₁
      rw [reached, ← slot?_of_step_decl hnot hkind₁, hfirst]
    · rw [DeclKind.slot?_filled hfirst, hlinked]
      rfl

/-! ## Linking one definition -/

/-- Nothing can be linked to the declaration: it is not there, or it stands for
something that is not there or has no slot. -/
def Unlinkable (w : Workspace) (d : DeclId) : Prop :=
  ¬ w.context.Issued d ∨ ∃ target, w.context.arena.parameterized d = .ok target ∧
    (¬ w.context.Issued target ∨
      ∃ kind, w.context.arena.decl target = .ok kind ∧ kind.slot? = none)

/-- What can be linked to has a slot. -/
theorem slot?_of_not_unlinkable {d : DeclId} (h : ¬ w.Unlinkable d) :
    ∃ target kind, w.context.arena.parameterized d = .ok target ∧
      w.context.arena.decl target = .ok kind ∧ kind.slot?.isSome := by
  have hd : w.context.Issued d := Decidable.not_not.mp fun hno => h (.inl hno)
  obtain ⟨kind, hkind⟩ := exists_fetch hd
  obtain ⟨target, htarget⟩ : ∃ target, w.context.arena.parameterized d = .ok target := by
    have hread : w.context.arena.decl d = .ok kind := hkind
    rw [Arena.parameterized, hread]
    cases kind <;> exact ⟨_, rfl⟩
  have hissued : w.context.Issued target :=
    Decidable.not_not.mp fun hno => h (.inr ⟨target, htarget, .inl hno⟩)
  obtain ⟨found, hfound⟩ := exists_fetch hissued
  refine ⟨target, found, htarget, hfound, ?_⟩
  cases hslot : found.slot? with
  | none => exact (h (.inr ⟨target, htarget, .inr ⟨found, hfound, hslot⟩⟩)).elim
  | some body => rfl

/-- What is there and has a slot can be linked to. -/
theorem not_unlinkable {d : DeclId} {kind : DeclKind}
    (htarget : w.context.arena.parameterized d = .ok target)
    (hkind : w.context.arena.decl target = .ok kind) (hslot : kind.slot?.isSome) :
    ¬ w.Unlinkable d := by
  rintro (hno | ⟨other, hother, hno⟩)
  · obtain ⟨found, hfound, _⟩ := bind_eq_ok.mp htarget
    exact hno (Context.issued_of_decl hfound)
  · obtain rfl : target = other := Except.ok.inj (htarget.symm.trans hother)
    rcases hno with hno | ⟨found, hfound, hnone⟩
    · exact hno (Context.issued_of_decl hkind)
    · obtain rfl : kind = found := Except.ok.inj (hkind.symm.trans hfound)
      rw [hnone] at hslot
      cases hslot

/-- Where there is a slot, linking fills it and answers. -/
theorem attach_eq_ok {d : DeclId} {kind : DeclKind}
    (htarget : w.context.arena.parameterized d = .ok target)
    (hkind : w.context.arena.decl target = .ok kind) (hslot : kind.slot?.isSome) (body : DefId) :
    w.step (.ask (.link (.attach d body)))
      = (.ok (.node .definition body),
          { w with context := { w.context with arena := w.context.arena.link target body } }) := by
  obtain ⟨defined, hdef⟩ : ∃ defined, kind.define? body = some defined := by
    rw [← Option.isSome_iff_exists, kind.isSome_define? body]
    exact hslot
  have hset := Arena.setDecl_eq_link hkind hdef
  have hattach : (attach d body).runOn w.context
      = (.ok (), { w.context with arena := w.context.arena.link target body }) := by
    rw [attach, runOn_read_bind htarget, Build.decl, runOn_read_bind hkind, hdef]
    simp only [runOn, Build.setDecl, hset]
  have hperform : (LinkRequest.attach d body).perform.runOn w.context
      = (.ok body, { w.context with arena := w.context.arena.link target body }) := by
    rw [LinkRequest.perform, runOn_bind, hattach]
    rfl
  rw [step_ask, Request.runOn_link, hperform]
  rfl

/-- Where there is no slot, linking fails. -/
theorem attach_eq_error {d : DeclId} (h : w.Unlinkable d) (body : DefId) :
    ∃ failure, (w.step (.ask (.link (.attach d body)))).1 = .error failure := by
  rcases attach_perform_atomic w.context d body with
    ⟨failure, hrun⟩ | ⟨_, _, _, _, target, kind, htarget, hkind, hdef, _⟩
  · refine ⟨failure, ?_⟩
    rw [step_ask, Request.runOn_link, hrun]
    rfl
  · rw [kind.isSome_define? body] at hdef
    exact absurd h (not_unlinkable htarget hkind hdef)

/-- **Linking a definition.**  It fails exactly where nothing can be linked,
and then the workspace is as it was; otherwise no declaration that stands for
something else has another definition afterwards. -/
theorem attach_outcome (w : Workspace) (d : DeclId) (body : DefId) :
    (w.Unlinkable d ∧ (w.step (.ask (.link (.attach d body)))).2 = w ∧
      ∃ failure, (w.step (.ask (.link (.attach d body)))).1 = .error failure) ∨
    (¬ w.Unlinkable d ∧ (w.step (.ask (.link (.attach d body)))).1 = .ok (.node .definition body) ∧
      ∀ other, w.context.arena.parameterized other ≠ w.context.arena.parameterized d →
        (w.step (.ask (.link (.attach d body)))).2.context.arena.definitionOf other
          = w.context.arena.definitionOf other) := by
  by_cases hno : w.Unlinkable d
  · obtain ⟨failure, hanswer⟩ := attach_eq_error hno body
    exact .inl ⟨hno, attach_leftBehind hanswer, failure, hanswer⟩
  · obtain ⟨target, kind, htarget, hkind, hslot⟩ := slot?_of_not_unlinkable hno
    rw [attach_eq_ok htarget hkind hslot body]
    refine .inr ⟨hno, rfl, fun other hother => ?_⟩
    rw [htarget] at hother
    exact Arena.definitionOf_link_of_ne hother

/-- **The definition linked last.**  After any run a function, a class or a
concept, seen directly or through a template, has the definition that the run
linked to it last, or the one that it was created with if there is none.
Linking fails exactly where there is nothing to link to, and changes nothing
then; where it succeeds it leaves the definitions of all other declarations. -/
theorem definitionOf_reached (config : Config) (digest : List Nat → UInt64)
    (commands : List Command) :
    (∀ d target kind, (reached config digest commands).context.arena.parameterized d = .ok target →
      (reached config digest commands).context.arena.decl target = .ok kind →
      kind.slot?.isSome → ∃ first, CreatedWith config digest commands target first ∧
        (reached config digest commands).context.arena.definitionOf d
          = .ok ((linkedTo target (start config digest) commands).getLast?.getD first)) ∧
    ∀ d body,
      ((reached config digest commands).Unlinkable d ∧
        ((reached config digest commands).step (.ask (.link (.attach d body)))).2
          = reached config digest commands ∧
        ∃ failure, ((reached config digest commands).step (.ask (.link (.attach d body)))).1
          = .error failure) ∨
      (¬ (reached config digest commands).Unlinkable d ∧
        ((reached config digest commands).step (.ask (.link (.attach d body)))).1
          = .ok (.node .definition body) ∧
        ∀ other, (reached config digest commands).context.arena.parameterized other
            ≠ (reached config digest commands).context.arena.parameterized d →
          ((reached config digest commands).step
              (.ask (.link (.attach d body)))).2.context.arena.definitionOf other
            = (reached config digest commands).context.arena.definitionOf other) := by
  refine ⟨fun d target kind htarget hkind hslot => ?_, fun d body => attach_outcome _ d body⟩
  obtain ⟨first, hfirst, hlast⟩ := slot?_reached hkind hslot
  exact ⟨first, hfirst, Arena.definitionOf_of_slot? htarget hkind hlast⟩

/-- A run that declares a function, wraps a template around it, defines it
through the template, fails to define the global namespace, and then deletes
the function. -/
def redefinedRun : List Command :=
  [.ask (.decl (.function .free .global [] .void none)), .ask (.decl (.template [] ⟨1⟩)),
    .ask (.expr (.boolean true)), .ask (.link (.define ⟨2⟩ (.expression ⟨0⟩))),
    .ask (.link (.define .globalNamespace (.expression ⟨0⟩))), .ask (.link (.attach ⟨1⟩ .deleted))]

/-- The function is first what it was defined as through the template, and then
deleted; the template says so too. -/
theorem definitionOf_reached_redefinedRun :
    linkedTo ⟨1⟩ (start .standard ConstraintTable.polynomialDigest) redefinedRun
        = [⟨3⟩, .deleted] ∧
      ∃ first, CreatedWith .standard ConstraintTable.polynomialDigest redefinedRun ⟨1⟩ first ∧
        (reached .standard ConstraintTable.polynomialDigest redefinedRun).context.arena.definitionOf
            ⟨2⟩
          = .ok ((linkedTo ⟨1⟩ (start .standard ConstraintTable.polynomialDigest)
              redefinedRun).getLast?.getD first) := by
  have hlinked : linkedTo ⟨1⟩ (start .standard ConstraintTable.polynomialDigest) redefinedRun
      = [⟨3⟩, .deleted] := by
    rfl
  have htarget : (reached .standard ConstraintTable.polynomialDigest
      redefinedRun).context.arena.parameterized ⟨2⟩ = .ok ⟨1⟩ := rfl
  have hkind : (reached .standard ConstraintTable.polynomialDigest
      redefinedRun).context.arena.decl ⟨1⟩
        = .ok (.function .free .global ⟨3⟩ [] .deleted) := rfl
  obtain ⟨hlast, _⟩ := definitionOf_reached .standard ConstraintTable.polynomialDigest redefinedRun
  exact ⟨hlinked, hlast ⟨2⟩ ⟨1⟩ _ htarget hkind rfl⟩

end Workspace

end TermGraph
