import TermGraph.Proofs.Outcome.Steps
import TermGraph.Proofs.Walks

/-!
# Seeing through templates

A template stands around a declaration, which may be a template itself.  Some
requests see through all of them, some through one, and some through none.  Up
to one template the three agree wherever they should, so it takes two to tell
them apart.

`a.Around n d b kind` says that `n` templates, each directly in the one before
it, lead from `d` to `b`, which is none.  The three ways of looking are then
three lemmas about `n`: all templates are seen through whatever `n` is
(`Around.core`), one of them gets to `b` if there is no more than one
(`Around.standsFor`) and to a template if there are more
(`Around.standsFor_template`), and the declaration itself is a template unless
there is none (`Around.decl_template`).

What a request for a reference comes to is said once for each of the three
outcomes that it has (`Build.reference_object` and its fellows), in terms of
the declaration that it gets to; the statements about templates are read off
these.
-/

namespace TermGraph

/-- That many templates, each wrapping the next, stand around a declaration of
that kind which is no template. -/
inductive Arena.Around (a : Arena) : Nat → DeclId → DeclId → DeclKind → Prop
  | bare {b : DeclId} {kind : DeclKind} (h : a.decl b = .ok kind)
      (hplain : ∀ parms inner constraint, kind ≠ .template parms inner constraint) :
      a.Around 0 b b kind
  | template {n : Nat} {d inner b : DeclId} {kind : DeclKind} {parms : List DeclId}
      {constraint : Option ExprId} (h : a.decl d = .ok (.template parms inner constraint))
      (hinner : a.Around n inner b kind) : a.Around (n + 1) d b kind

/-- How a request fails that is refused with a mistake about a name: if the
name can not be spelled, by that. -/
def Context.refusal (cx : Context) (n : NameId) (mistake : String → Mistake) : Failure :=
  match cx.spell n with
  | .ok spelled => .refused (.semantic (mistake spelled))
  | .error fault => .broken fault

/-- The expression with another declaration that it refers to. -/
def ExprKind.redirect (d : DeclId) : ExprKind → ExprKind
  | .object name _ => .object name d
  | .function name _ => .function name d
  | .field obj name _ => .field obj name d
  | .method obj name _ => .method obj name d
  | kind => kind

/-! ## Three ways of looking -/

namespace Arena.Around

variable {a : Arena} {n m : Nat} {d b b' : DeclId} {kind kind' : DeclKind}

/-- What the templates wrap is stored. -/
theorem decl (h : a.Around n d b kind) : a.decl b = .ok kind := by
  induction h with
  | bare hb _ => exact hb
  | template _ _ ih => exact ih

/-- What the templates wrap is no template itself. -/
theorem ne_template (h : a.Around n d b kind) (parms : List DeclId) (inner : DeclId)
    (constraint : Option ExprId) : kind ≠ .template parms inner constraint := by
  induction h with
  | bare _ hplain => exact hplain parms inner constraint
  | template _ _ ih => exact ih

/-- No template stands between what the templates wrap and itself. -/
theorem self (h : a.Around n d b kind) : a.Around 0 b b kind := .bare h.decl h.ne_template

/-- What is no template has a name. -/
theorem exists_name (h : a.Around n d b kind) : ∃ name, kind.name? = some name := by
  cases kind with
  | template parms inner constraint => exact (h.ne_template parms inner constraint rfl).elim
  | _ => exact ⟨_, rfl⟩

/-- There is one way to go. -/
theorem unique (h : a.Around n d b kind) (h' : a.Around m d b' kind') : n = m ∧ b = b' := by
  induction h generalizing m with
  | bare hb hplain =>
    cases h' with
    | bare _ _ => exact ⟨rfl, rfl⟩
    | template hd _ => exact (hplain _ _ _ (Except.ok.inj (hb.symm.trans hd))).elim
  | template hd _ ih =>
    cases h' with
    | bare hb hplain => exact (hplain _ _ _ (Except.ok.inj (hb.symm.trans hd))).elim
    | template hd' hinner' =>
      cases Except.ok.inj (hd.symm.trans hd')
      obtain ⟨rfl, rfl⟩ := ih hinner'
      exact ⟨rfl, rfl⟩

/-- **There are fewer templates around a declaration than declarations.** -/
theorem lt_size (h : a.Around n d b kind) : n < a.decls.size := by
  refine lt_size_of_deep (fun n d => ∃ b kind, a.Around n d b kind) ?_ ?_ ?_ ⟨b, kind, h⟩
  · rintro n d ⟨b, kind, haround⟩
    cases haround with
    | bare hread _ | template hread _ => exact lt_of_fetch hread
  · rintro n d ⟨b, kind, haround⟩
    cases haround with
    | template _ hbelow => exact ⟨_, _, _, hbelow⟩
  · rintro m n d ⟨b, kind, haround⟩ ⟨b', kind', haround'⟩
    exact (haround.unique haround').1

/-- **All templates are seen through**, however many there are. -/
theorem core (h : a.Around n d b kind) : a.core d = .ok (b, kind) := by
  have hwithin : ∀ steps, n < steps → a.coreWithin steps d = .ok (b, kind) := by
    induction h with
    | bare hb hplain =>
      intro steps hsteps
      obtain ⟨steps, rfl⟩ : ∃ k, steps = k + 1 := ⟨steps - 1, by omega⟩
      exact coreWithin_of_ne_template hb hplain
    | template hd _ ih =>
      intro steps hsteps
      obtain ⟨steps, rfl⟩ : ∃ k, steps = k + 1 := ⟨steps - 1, by omega⟩
      rw [coreWithin, hd]
      exact ih steps (by omega)
  exact hwithin _ (Nat.lt_succ_of_lt h.lt_size)

/-- The name of a declaration is that of what its templates wrap, however many
there are. -/
theorem declName (h : a.Around n d b kind) {name : NameId} (hname : kind.name? = some name) :
    a.declName d = .ok name := by
  rw [Arena.declName, h.core]
  show Except.ok (kind.name?.getD .invalid) = _
  rw [hname]
  rfl

/-- **One template is seen through**, so what the templates wrap is got to if
there is at most one. -/
theorem parameterized (h : a.Around n d b kind) (hn : n ≤ 1) : a.parameterized d = .ok b := by
  have hself : ∀ {b}, a.Around 0 b b kind → a.parameterized b = .ok b := by
    intro b hb
    rw [Arena.parameterized, hb.decl]
    cases kind with
    | template parms inner constraint => exact (hb.ne_template parms inner constraint rfl).elim
    | _ => rfl
  cases h with
  | bare hb hplain => exact hself (.bare hb hplain)
  | template hd hinner =>
    obtain ⟨rfl⟩ : _ = 0 := Nat.le_zero.mp (Nat.le_of_succ_le_succ hn)
    cases hinner with
    | bare hb hplain =>
      rw [Arena.parameterized, hd]
      rfl

/-- What is got to by seeing through one template is under one or under none. -/
theorem of_parameterized (hb : a.decl b = .ok kind)
    (hplain : ∀ parms inner constraint, kind ≠ .template parms inner constraint)
    (hd : a.parameterized d = .ok b) : ∃ n, n ≤ 1 ∧ a.Around n d b kind := by
  obtain ⟨found, hfound, hd⟩ := bind_eq_ok.mp hd
  cases found with
  | template parms inner constraint =>
    cases hd
    exact ⟨1, Nat.le_refl 1, .template hfound (.bare hb hplain)⟩
  | _ =>
    cases hd
    exact ⟨0, Nat.zero_le 1, .bare hb hplain⟩

/-- Under one template or none a declaration stands for what is wrapped. -/
theorem standsFor (h : a.Around n d b kind) (hn : n ≤ 1) : a.StandsFor d kind :=
  ⟨b, h.parameterized hn, h.decl⟩

/-- Of two templates the outer one is seen through and the inner one is not. -/
theorem standsFor_template (h : a.Around n d b kind) (hn : 2 ≤ n) :
    ∃ parms inner constraint, a.StandsFor d (.template parms inner constraint) := by
  cases h with
  | bare => omega
  | template hd hinner =>
    cases hinner with
    | bare => omega
    | template hinner _ =>
      refine ⟨_, _, _, _, ?_, hinner⟩
      rw [Arena.parameterized, hd]
      rfl

/-- **Looked at as it is** a declaration is a template if any is around it. -/
theorem decl_template (h : a.Around n d b kind) (hn : 1 ≤ n) :
    ∃ parms inner constraint, a.decl d = .ok (.template parms inner constraint) := by
  cases h with
  | bare => omega
  | template hd _ => exact ⟨_, _, _, hd⟩

end Arena.Around

/-! ## References -/

namespace Build

variable {cx : Context} {d : DeclId} {name : NameId} {kind : DeclKind} {ty : TypeId}

/-- Refusing by a name. -/
theorem refuse_run {α : Type} (cx : Context) (name : NameId) (m : String → Mistake) :
    (do mistake (m (← read fun cx => cx.spell name)) : Build α).runOn cx
      = (.error (cx.refusal name m), cx) := by
  rw [runOn_bind, runOn_read, Context.refusal]
  cases cx.spell name <;> rfl

section Look

variable (hname : cx.arena.declName d = .ok name) (hkind : cx.arena.StandsFor d kind)

include hname hkind

/-- Looking at the name of a declaration and at what it stands for. -/
theorem runOn_look {α : Type} {f : NameId → DeclKind → Build α} :
    (do
      let name ← read fun cx => cx.arena.declName d
      f name (← decl (← read fun cx => cx.arena.parameterized d))).runOn cx
      = (f name kind).runOn cx := by
  obtain ⟨target, htarget, hkind⟩ := hkind
  refine (runOn_read_bind hname).trans ((runOn_read_bind htarget).trans ?_)
  exact runOn_read_bind hkind

/-- A reference to an object is of a type of references to what was declared. -/
theorem reference_object (hty : kind.objectType? = some ty) :
    (reference d).runOn cx = (.ok ⟨cx.count .expr⟩,
      cx.after [.type (.wrapped .reference ty),
        .expr (.object name d) (cx.types.intern (.wrapped .reference ty)).1]) := by
  refine (runOn_look hname hkind).trans ?_
  cases kind with
  | var | objectParm | valueParm =>
    cases hty
    rfl
  | _ => cases hty

/-- A reference to a free function is of the type of the function. -/
theorem reference_function (hty : kind.functionType? .free = some ty) :
    (reference d).runOn cx
      = (.ok ⟨cx.count .expr⟩, cx.after [.expr (.function name d) ty]) := by
  refine (runOn_look hname hkind).trans ?_
  cases kind with
  | function flavor =>
    cases flavor <;> cases hty
    rfl
  | _ => cases hty

/-- Nothing else can be referred to. -/
theorem reference_refused (hobject : kind.objectType? = none)
    (hfunction : kind.functionType? .free = none) :
    (reference d).runOn cx
      = (.error (cx.refusal name fun spelled => .notReferable spelled kind.sort), cx) := by
  refine (runOn_look hname hkind).trans ?_
  cases kind with
  | var | objectParm | valueParm => cases hobject
  | function flavor =>
    cases flavor with
    | free => cases hfunction
    | method => exact refuse_run cx name _
  | _ => exact refuse_run cx name _

/-- A field of an object is of a type of references to what was declared. -/
theorem memberReference_field (obj : ExprId) (hty : kind.fieldType? = some ty) :
    (memberReference obj d).runOn cx = (.ok ⟨cx.count .expr⟩,
      cx.after [.type (.wrapped .reference ty),
        .expr (.field obj name d) (cx.types.intern (.wrapped .reference ty)).1]) := by
  refine (runOn_look hname hkind).trans ?_
  cases kind with
  | field =>
    cases hty
    rfl
  | _ => cases hty

/-- A method of an object is of the type of the method. -/
theorem memberReference_method (obj : ExprId) (hty : kind.functionType? .method = some ty) :
    (memberReference obj d).runOn cx
      = (.ok ⟨cx.count .expr⟩, cx.after [.expr (.method obj name d) ty]) := by
  refine (runOn_look hname hkind).trans ?_
  cases kind with
  | function flavor =>
    cases flavor <;> cases hty
    rfl
  | _ => cases hty

/-- Nothing else is a member. -/
theorem memberReference_refused (obj : ExprId) (hfield : kind.fieldType? = none)
    (hmethod : kind.functionType? .method = none) :
    (memberReference obj d).runOn cx
      = (.error (cx.refusal name fun spelled => .notMember spelled kind.sort), cx) := by
  refine (runOn_look hname hkind).trans ?_
  cases kind with
  | field => cases hfield
  | function flavor =>
    cases flavor with
    | free => exact refuse_run cx name _
    | method => cases hmethod
  | _ => exact refuse_run cx name _

end Look

/-! ## Requests that look at the declaration itself -/

/-- Two readings that come to the same are gone on from in the same way. -/
theorem runOn_read_congr {α β : Type} {look look' : Context → Except Fault α} {f : α → Build β}
    (h : look cx = look' cx) : (read look >>= f).runOn cx = (read look' >>= f).runOn cx := by
  rw [runOn_bind, runOn_bind, runOn_read, runOn_read, h]

/-- A request that goes on or is refused, by what it finds, is answered exactly
where it goes on. -/
theorem isOk_of_guarded {α β : Type} {look : Context → Except Fault α} {f : α → Build β} {x : α}
    {p : Prop} (hlook : look cx = .ok x) (hyes : p → (f x).Sure cx fun _ _ => True)
    (hno : ¬ p → (f x).Atomic cx fun _ _ => False) :
    (∃ y, ((read look >>= f).runOn cx).1 = .ok y) ↔ p := by
  rw [runOn_read_bind hlook]
  constructor
  · rintro ⟨y, hy⟩
    by_contra hp
    rcases hno hp with ⟨failure, hrun⟩ | ⟨_, _, _, hfalse⟩
    · rw [hrun] at hy
      cases hy
    · exact hfalse
  · intro hp
    obtain ⟨y, _, hrun, _⟩ := hyes hp
    exact ⟨y, by rw [hrun]⟩

/-- A check is made of a concept and of nothing else. -/
theorem check_isOk (hkind : cx.arena.decl d = .ok kind) (args : List Term) :
    (∃ e, ((check d args).runOn cx).1 = .ok e) ↔
      ∃ name parms body, kind = .concept name parms body := by
  refine isOk_of_guarded hkind ?_ fun hno => ?_
  · rintro ⟨name, parms, body, rfl⟩
    exact .pushExpr trivial
  · split
    · exact (hno ⟨_, _, _, rfl⟩).elim
    · exact .read_bind fun _ _ => .read_bind fun _ _ => .throw

/-- A concept is named with arguments, and nothing else is as a concept. -/
theorem conceptId_isOk (hkind : cx.arena.decl d = .ok kind) (args : List Term) :
    (∃ n, ((conceptId d args).runOn cx).1 = .ok n) ↔
      ∃ name parms body, kind = .concept name parms body := by
  refine isOk_of_guarded hkind ?_ fun hno => ?_
  · rintro ⟨name, parms, body, rfl⟩
    exact .pushName trivial
  · split
    · exact (hno ⟨_, _, _, rfl⟩).elim
    · exact doesNotName_atomic

/-- A template is named with arguments, and nothing else is as a template. -/
theorem templateId_isOk (hkind : cx.arena.decl d = .ok kind) (args : List Term) :
    (∃ n, ((templateId d args).runOn cx).1 = .ok n) ↔
      ∃ parms inner constraint, kind = .template parms inner constraint := by
  refine isOk_of_guarded hkind ?_ fun hno => ?_
  · rintro ⟨parms, inner, constraint, rfl⟩
    exact .pushName trivial
  · split
    · exact (hno ⟨_, _, _, rfl⟩).elim
    · exact doesNotName_atomic

end Build

/-! ## Commands -/

namespace Workspace

variable {w : Workspace} {n : Nat} {d b : DeclId} {name : NameId} {kind : DeclKind}

/-- Requests for nodes that are built alike come to the same. -/
theorem step_node_congr {request request' : Request} {c : Category} {x y : Build (Handle c)}
    (hrequest : request.perform = Answer.node c <$> x)
    (hrequest' : request'.perform = Answer.node c <$> y)
    (h : x.runOn w.context = y.runOn w.context) :
    w.step (.ask request) = w.step (.ask request') := by
  rw [step_ask, step_ask, hrequest, hrequest', Build.runOn_map, Build.runOn_map, h]

/-- Requests for references to `d` and to `b` come to the same: both fail in the
same way and change nothing, or both are answered with a new expression of the
same type after the same effects, but that the one keeps `d` where the other
has `b`. -/
def ReferAlike (w : Workspace) (d b : DeclId) (request : DeclId → ExprRequest) : Prop :=
  (∃ failure, w.step (.ask (.expr (request d))) = (.error failure, w) ∧
      w.step (.ask (.expr (request b))) = (.error failure, w)) ∨
    ∃ e types kind ty, kind.referencedDecl? = some b ∧
      w.step (.ask (.expr (request b))) = (.ok (.node .expr e),
        { w with context := w.context.after (types ++ [.expr kind ty]) }) ∧
      w.step (.ask (.expr (request d))) = (.ok (.node .expr e),
        { w with context := w.context.after (types ++ [.expr (kind.redirect d) ty]) })

/-- What acts on a declaration acts in the same way on another: linking fills
the same slot or fails in the same way, the same definition is told, the same
class type is given, and references are alike. -/
structure ActsAs (w : Workspace) (d b : DeclId) : Prop where
  attach : ∀ body, w.step (.ask (.link (.attach d body))) = w.step (.ask (.link (.attach b body)))
  definitionOf :
    w.step (.ask (.link (.definitionOf d))) = w.step (.ask (.link (.definitionOf b)))
  userType : w.step (.ask (.type (.user d))) = w.step (.ask (.type (.user b)))
  reference : w.ReferAlike d b .reference
  memberReference : ∀ obj, w.ReferAlike d b (.memberReference obj)

/-- What acts on a declaration is refused, because a template is found, and
leaves the workspace as it was. -/
structure RefusesTemplate (w : Workspace) (d : DeclId) (name : NameId) : Prop where
  attach : ∀ body, w.step (.ask (.link (.attach d body)))
    = (.error (.broken (.violated (.notDefinable .template))), w)
  definitionOf : w.step (.ask (.link (.definitionOf d)))
    = (.error (.broken (.violated (.undefined .template))), w)
  userType : w.step (.ask (.type (.user d)))
    = (.error (.broken (.violated (.expectedDecl .classType .template))), w)
  reference : w.step (.ask (.expr (.reference d)))
    = (.error (w.context.refusal name fun spelled => .notReferable spelled .template), w)
  memberReference : ∀ obj, w.step (.ask (.expr (.memberReference obj d)))
    = (.error (w.context.refusal name fun spelled => .notMember spelled .template), w)

/-- A reference finds the same declaration either way, and mentions the one it was
asked with. -/
theorem reference_alike (h : w.context.arena.Around n d b kind) (hn : n ≤ 1) :
    w.ReferAlike d b .reference := by
  obtain ⟨name, hname⟩ := h.exists_name
  have hself : 0 ≤ 1 := Nat.zero_le 1
  -- the same lemma says what becomes of either request
  cases hobject : kind.objectType? with
  | some ty =>
    have hrun {x : DeclId} {m : Nat} (hx : w.context.arena.Around m x b kind) (hm : m ≤ 1) :=
      Build.reference_object (hx.declName hname) (hx.standsFor hm) hobject
    exact .inr ⟨_, [_], _, _, rfl, step_node rfl (hrun h.self hself), step_node rfl (hrun h hn)⟩
  | none =>
    cases hfunction : kind.functionType? .free with
    | some ty =>
      have hrun {x : DeclId} {m : Nat} (hx : w.context.arena.Around m x b kind) (hm : m ≤ 1) :=
        Build.reference_function (hx.declName hname) (hx.standsFor hm) hfunction
      exact .inr ⟨_, [], _, _, rfl, step_node rfl (hrun h.self hself), step_node rfl (hrun h hn)⟩
    | none =>
      have hrun {x : DeclId} {m : Nat} (hx : w.context.arena.Around m x b kind) (hm : m ≤ 1) :=
        Build.reference_refused (hx.declName hname) (hx.standsFor hm) hobject hfunction
      exact .inl ⟨_, step_node_error rfl (hrun h hn), step_node_error rfl (hrun h.self hself)⟩

/-- So does a reference to a member. -/
theorem memberReference_alike (h : w.context.arena.Around n d b kind) (hn : n ≤ 1) (obj : ExprId) :
    w.ReferAlike d b (.memberReference obj) := by
  obtain ⟨name, hname⟩ := h.exists_name
  have hself : 0 ≤ 1 := Nat.zero_le 1
  cases hfield : kind.fieldType? with
  | some ty =>
    have hrun {x : DeclId} {m : Nat} (hx : w.context.arena.Around m x b kind) (hm : m ≤ 1) :=
      Build.memberReference_field (hx.declName hname) (hx.standsFor hm) obj hfield
    exact .inr ⟨_, [_], _, _, rfl, step_node rfl (hrun h.self hself), step_node rfl (hrun h hn)⟩
  | none =>
    cases hmethod : kind.functionType? .method with
    | some ty =>
      have hrun {x : DeclId} {m : Nat} (hx : w.context.arena.Around m x b kind) (hm : m ≤ 1) :=
        Build.memberReference_method (hx.declName hname) (hx.standsFor hm) obj hmethod
      exact .inr ⟨_, [], _, _, rfl, step_node rfl (hrun h.self hself), step_node rfl (hrun h hn)⟩
    | none =>
      have hrun {x : DeclId} {m : Nat} (hx : w.context.arena.Around m x b kind) (hm : m ≤ 1) :=
        Build.memberReference_refused (hx.declName hname) (hx.standsFor hm) obj hfield hmethod
      exact .inl ⟨_, step_node_error rfl (hrun h hn), step_node_error rfl (hrun h.self hself)⟩

/-- A definition goes into the same slot either way. -/
theorem attach_alike (h : w.context.arena.Around n d b kind) (hn : n ≤ 1) (body : DefId) :
    w.step (.ask (.link (.attach d body))) = w.step (.ask (.link (.attach b body))) := by
  have htarget := (h.parameterized hn).trans (h.self.parameterized (Nat.zero_le 1)).symm
  have hattach : (Build.attach d body).runOn w.context = (Build.attach b body).runOn w.context :=
    Build.runOn_read_congr htarget
  refine step_node_congr rfl rfl ?_
  rw [LinkRequest.perform, LinkRequest.perform, Build.runOn_bind, Build.runOn_bind, hattach]

/-- **Up to one template** makes no difference to what acts on a declaration. -/
theorem actsAs_of_around (h : w.context.arena.Around n d b kind) (hn : n ≤ 1) : w.ActsAs d b where
  attach := attach_alike h hn
  definitionOf := by
    have htarget := (h.parameterized hn).trans (h.self.parameterized (Nat.zero_le 1)).symm
    refine step_node_congr rfl rfl ?_
    rw [LinkRequest.perform, LinkRequest.perform, Build.runOn_read, Build.runOn_read,
      Arena.definitionOf, Arena.definitionOf, htarget]
  userType := by
    have htarget := (h.parameterized hn).trans (h.self.parameterized (Nat.zero_le 1)).symm
    exact step_node_congr rfl rfl (Build.runOn_read_congr htarget)
  reference := reference_alike h hn
  memberReference := memberReference_alike h hn

/-- **Two templates** are too many for what acts on a declaration. -/
theorem refusesTemplate_of_around (h : w.context.arena.Around n d b kind) (hn : 2 ≤ n)
    (hname : kind.name? = some name) : w.RefusesTemplate d name := by
  obtain ⟨parms, inner, constraint, hstands⟩ := h.standsFor_template hn
  have ⟨target, htarget, htemplate⟩ := hstands
  have hdecl := h.declName hname
  refine ⟨fun body => ?_, ?_, ?_, ?_, fun obj => ?_⟩
  · have hattach : (Build.attach d body).runOn w.context
        = (.error (.broken (.violated (.notDefinable .template))), w.context) := by
      refine (Build.runOn_read_bind htarget).trans ?_
      exact (Build.runOn_read_bind htemplate).trans rfl
    refine step_node_error rfl ?_
    rw [LinkRequest.perform, Build.runOn_bind, hattach]
  · refine step_node_error rfl ?_
    rw [LinkRequest.perform, Build.runOn_read, Arena.definitionOf, htarget]
    show ((w.context.arena.decl target >>= _).mapError Failure.broken, w.context) = _
    rw [htemplate]
    rfl
  · refine step_node_error rfl ((Build.runOn_read_bind htarget).trans ?_)
    exact (Build.runOn_read_bind htemplate).trans rfl
  · exact step_node_error rfl (Build.reference_refused hdecl hstands rfl rfl)
  · exact step_node_error rfl (Build.memberReference_refused hdecl hstands obj rfl rfl)

/-- The request is answered. -/
def Answers (w : Workspace) (request : Request) : Prop :=
  ∃ answer, (w.step (.ask request)).1 = .ok answer

/-- A request for a node is answered when the node is built. -/
theorem answers_iff {request : Request} {c : Category} {b : Build (Handle c)}
    (hrequest : request.perform = Answer.node c <$> b) :
    w.Answers request ↔ ∃ id, (b.runOn w.context).1 = .ok id := by
  rw [Answers, step_ask, hrequest, Build.runOn_map]
  cases (b.runOn w.context).1 with
  | error failure => simp [Except.map]
  | ok id => simp [Except.map]

/-- How far requests see through the `n` templates that stand around `b` up to
`d`: all the way for the name and the type, through one of them for what acts
on a declaration, and not at all for checks and for names with arguments. -/
structure SeesThrough (w : Workspace) (n : Nat) (d b : DeclId) (kind : DeclKind) (name : NameId) :
    Prop where
  declName : w.step (.ask (.query (.declName d))) = (.ok (.node .name name), w)
  sameName : w.step (.ask (.query (.declName d))) = w.step (.ask (.query (.declName b)))
  declaredType : w.step (.ask (.type (.declared d))) = w.step (.ask (.type (.declared b)))
  actsAs : n ≤ 1 → w.ActsAs d b
  refuses : 2 ≤ n → w.RefusesTemplate d name
  check : ∀ args, w.Answers (.expr (.check d args)) ↔
    n = 0 ∧ ∃ conceptName parms body, kind = .concept conceptName parms body
  conceptId : ∀ args, w.Answers (.name (.conceptId d args)) ↔
    n = 0 ∧ ∃ conceptName parms body, kind = .concept conceptName parms body
  templateId : ∀ args, w.Answers (.name (.templateId d args)) ↔ 1 ≤ n

/-- Whether the declaration itself is a concept. -/
theorem isConcept_iff (h : w.context.arena.Around n d b kind) {found : DeclKind}
    (hfound : w.context.arena.decl d = .ok found) :
    (∃ name parms body, found = .concept name parms body) ↔
      n = 0 ∧ ∃ name parms body, kind = .concept name parms body := by
  cases h with
  | bare hb _ =>
    obtain rfl := Except.ok.inj (hfound.symm.trans hb)
    simp
  | template hd _ =>
    obtain rfl := Except.ok.inj (hfound.symm.trans hd)
    simp

/-- **How far templates are seen through.**  In every workspace, for every
number of templates around a declaration that is none. -/
theorem sees_through (h : w.context.arena.Around n d b kind) :
    ∃ name, kind.name? = some name ∧ w.SeesThrough n d b kind name := by
  obtain ⟨name, hname⟩ := h.exists_name
  have hstep {x : DeclId} {m : Nat} (hx : w.context.arena.Around m x b kind) :
      w.step (.ask (.query (.declName x))) = (.ok (.node .name name), w) := by
    rw [step_ask, Request.perform, Build.runOn_read, Query.answer, hx.declName hname]
    rfl
  obtain ⟨found, hfound⟩ : ∃ found, w.context.arena.decl d = .ok found := by
    cases h with
    | bare hread _ | template hread _ => exact ⟨_, hread⟩
  have hcore : w.context.arena.core d = w.context.arena.core b := h.core.trans h.self.core.symm
  refine ⟨name, hname, hstep h, ?_,
    step_node_congr rfl rfl (Build.runOn_read_congr hcore), actsAs_of_around h,
    fun hn => refusesTemplate_of_around h hn hname, fun args => ?_, fun args => ?_, fun args => ?_⟩
  · rw [hstep h, hstep h.self]
  · rw [answers_iff (b := Build.check d args) rfl, Build.check_isOk hfound, isConcept_iff h hfound]
  · rw [answers_iff (b := Build.conceptId d args) rfl, Build.conceptId_isOk hfound,
      isConcept_iff h hfound]
  · rw [answers_iff (b := Build.templateId d args) rfl, Build.templateId_isOk hfound]
    constructor
    · rintro ⟨parms, inner, constraint, rfl⟩
      cases h with
      | bare hread hplain =>
        exact (hplain _ _ _ (Except.ok.inj (hread.symm.trans hfound))).elim
      | template => omega
    · intro hn
      obtain ⟨parms, inner, constraint, htemplate⟩ := h.decl_template hn
      exact ⟨parms, inner, constraint, Except.ok.inj (hfound.symm.trans htemplate)⟩

/-- A run that declares a function and two templates, one around the other. -/
def nestedRun : List Command :=
  [.ask (.name (.identifier "f")), .ask (.decl (.function .free ⟨1⟩ [] .bool none)),
    .ask (.decl (.template [] ⟨1⟩)), .ask (.decl (.template [] ⟨2⟩))]

/-- The inner template acts as the function, and the outer one does not. -/
theorem sees_through_nestedRun :
    (reached .standard ConstraintTable.polynomialDigest nestedRun).context.arena.Around 1 ⟨2⟩ ⟨1⟩
        (.function .free ⟨1⟩ ⟨3⟩ [] .empty) ∧
      (reached .standard ConstraintTable.polynomialDigest nestedRun).ActsAs ⟨2⟩ ⟨1⟩ ∧
      (reached .standard ConstraintTable.polynomialDigest nestedRun).context.arena.Around 2 ⟨3⟩ ⟨1⟩
        (.function .free ⟨1⟩ ⟨3⟩ [] .empty) ∧
      (reached .standard ConstraintTable.polynomialDigest nestedRun).RefusesTemplate ⟨3⟩ ⟨1⟩ := by
  have hinner : (reached .standard ConstraintTable.polynomialDigest nestedRun).context.arena.Around
      1 ⟨2⟩ ⟨1⟩ (.function .free ⟨1⟩ ⟨3⟩ [] .empty) :=
    .template rfl (.bare rfl nofun)
  have houter : (reached .standard ConstraintTable.polynomialDigest nestedRun).context.arena.Around
      2 ⟨3⟩ ⟨1⟩ (.function .free ⟨1⟩ ⟨3⟩ [] .empty) :=
    .template rfl hinner
  obtain ⟨name, hname, hsees⟩ := sees_through hinner
  obtain ⟨name', hname', hsees'⟩ := sees_through houter
  cases hname'
  exact ⟨hinner, hsees.actsAs (by decide), houter, hsees'.refuses (by decide)⟩

end Workspace

end TermGraph
