import TermGraph.Proofs.Acyclic
import TermGraph.Proofs.Bounds.Reading
import TermGraph.Proofs.Templates

/-!
# Declarations without a name

A declaration is given the invalid name when it has none.  Five requests look
at a declaration and refuse it, by its name, when it is of the wrong sort
(`DeclUse`).  The two that name a template or a concept with arguments ask
first whether there is a name and write a stand-in if there is none; the other
three spell the name as it is, and so they fault where they should refuse.

Asking first is not enough either: a name that is there may be spelled through
one that is not, where it applies a template around an anonymous declaration to
arguments or is looked up in an anonymous scope.  The way to a missing name may
be of any length, so it is told by `Context.SpellsThrough`.

Nothing is assumed of the context but that the handles in its names and
declarations lead somewhere, the names of anonymous declarations apart
(`Context.Intact`).  It may have been built in any order, even so that
something contains itself.
-/

namespace TermGraph

open Context Relation

/-! ## Lost names -/

namespace Context

variable {cx : Context} {d : DeclId} {n m : NameId}

/-- A name that is missing is spelled for the name. -/
def Lost (cx : Context) (n : NameId) : Prop :=
  ∃ m, ReflTransGen cx.SpellsThrough n m ∧ ¬ cx.Issued m

/-- Some template wraps itself, or some name is spelled through itself. -/
def Circular (cx : Context) : Prop :=
  (∃ d, TransGen cx.arena.Wraps d d) ∨ ∃ n, TransGen cx.SpellsThrough n n

/-- What is spelled in so many steps is there, and all that it is spelled
through is spelled in fewer. -/
theorem spells_of_spellWithin {steps : Nat} {s : String} (h : cx.spellWithin (steps + 1) n = .ok s) :
    cx.Issued n ∧ ∀ m, cx.SpellsThrough n m → ∃ s', cx.spellWithin steps m = .ok s' := by
  obtain ⟨kind, hkind, h⟩ := bind_eq_ok.mp h
  refine ⟨lt_of_fetch hkind, fun m hm => ?_⟩
  have hsame {other : NameKind} (hother : cx.arena.name n = .ok other) : kind = other :=
    Except.ok.inj (hkind.symm.trans hother)
  cases hm with
  | @applied other d hn hd hm =>
    obtain rfl := hsame hn
    cases kind with
    | template found args | concept found args =>
      obtain rfl : found = d := Option.some.inj hd
      obtain ⟨m', hm', h⟩ := bind_eq_ok.mp h
      obtain rfl := Except.ok.inj (hm'.symm.trans hm)
      obtain ⟨base, hbase, _⟩ := bind_eq_ok.mp h
      exact ⟨base, hbase⟩
    | _ => cases hd
  | scope hn hscope hm =>
    obtain rfl := hsame hn
    obtain ⟨inner, _, h⟩ := bind_eq_ok.mp h
    rw [if_neg hscope] at h
    obtain ⟨m', hm', h⟩ := bind_eq_ok.mp h
    obtain rfl := Except.ok.inj (hm'.symm.trans hm)
    obtain ⟨outer, houter, _⟩ := bind_eq_ok.mp h
    exact ⟨outer, houter⟩
  | member hn =>
    obtain rfl := hsame hn
    obtain ⟨inner, hinner, _⟩ := bind_eq_ok.mp h
    exact ⟨inner, hinner⟩

/-- **A name that is spelled is not lost.** -/
theorem not_lost_of_spellWithin {steps : Nat} {s : String} (h : cx.spellWithin steps n = .ok s) :
    ¬ cx.Lost n := by
  induction steps generalizing n s with
  | zero => cases h
  | succ steps ih =>
    obtain ⟨hissued, hthrough⟩ := spells_of_spellWithin h
    intro hlost
    obtain ⟨m, hreach, hmissing⟩ := hlost
    rcases hreach.cases_head with rfl | ⟨next, hnext, hrest⟩
    · exact hmissing hissued
    · obtain ⟨s', hs'⟩ := hthrough next hnext
      exact ih hs' ⟨m, hrest, hmissing⟩

/-- Only in a circular context looking for the name of a declaration does not
come to an end. -/
theorem circular_of_declName (h : cx.arena.declName d = .error .cyclic) : cx.Circular := by
  by_contra hno
  exact Arena.declName_ne_cyclic (fun d hd => hno (.inl ⟨d, hd⟩)) d h

/-- Nor does spelling. -/
theorem circular_of_spell (h : cx.spell n = .error .cyclic) : cx.Circular := by
  by_contra hno
  have hends := spell_ends (fun d hd => hno (.inl ⟨d, hd⟩)) (fun n hn => hno (.inr ⟨n, hn⟩)) n
  exact hends.answers h

end Context

/-! ## Uses of declarations -/

namespace DeclKind

variable {kind : DeclKind}

/-- The declarations of concepts are of one sort, which nothing else is of. -/
theorem sort_eq_concept : kind.sort = .concept ↔ ∃ name parms body, kind = .concept name parms body := by
  cases kind with
  | function flavor => cases flavor <;> simp [sort]
  | _ => simp [sort]

/-- So are templates. -/
theorem sort_eq_template :
    kind.sort = .template ↔ ∃ parms inner constraint, kind = .template parms inner constraint := by
  cases kind with
  | function flavor => cases flavor <;> simp [sort]
  | _ => simp [sort]

end DeclKind

/-- The uses of a declaration that are refused, by its name, if it is not of the
right sort. -/
inductive DeclUse where
  | reference
  | memberReference (object : ExprId)
  | check (args : List Term)
  | templateId (args : List Term)
  | conceptId (args : List Term)

namespace DeclUse

variable {cx : Context} {d : DeclId} {kind : DeclKind} {u : DeclUse}

def request (d : DeclId) : DeclUse → Request
  | .reference => .expr (.reference d)
  | .memberReference object => .expr (.memberReference object d)
  | .check args => .expr (.check d args)
  | .templateId args => .name (.templateId d args)
  | .conceptId args => .name (.conceptId d args)

/-- What the use takes the declaration for: references look through one template
around it. -/
def Sees (a : Arena) (d : DeclId) (kind : DeclKind) : DeclUse → Prop
  | .reference | .memberReference _ => a.StandsFor d kind
  | .check _ | .templateId _ | .conceptId _ => a.decl d = .ok kind

/-- Whether it is of the right sort. -/
def accepts (kind : DeclKind) : DeclUse → Bool
  | .reference => kind.objectType?.isSome || (kind.functionType? .free).isSome
  | .memberReference _ => kind.fieldType?.isSome || (kind.functionType? .method).isSome
  | .check _ | .conceptId _ => kind.sort = .concept
  | .templateId _ => kind.sort = .template

/-- How the use of a declaration of the wrong sort is reported. -/
def mistake (kind : DeclKind) (u : DeclUse) (spelled : String) : Mistake :=
  match u with
  | .reference => .notReferable spelled kind.sort
  | .memberReference _ => .notMember spelled kind.sort
  | .check _ | .conceptId _ => .doesNotName spelled .concept
  | .templateId _ => .doesNotName spelled .template

/-- Whether it is asked first if there is a name. -/
def isGuarded : DeclUse → Bool
  | .templateId _ | .conceptId _ => true
  | .reference | .memberReference _ | .check _ => false

/-- What the declaration is called in the report. -/
def called (cx : Context) (d : DeclId) (u : DeclUse) : Except Fault String :=
  if u.isGuarded then cx.spellDecl d else cx.arena.declName d >>= cx.spell

/-- The name that would be written is lost. -/
def Nameless (cx : Context) (d : DeclId) (u : DeclUse) : Prop :=
  ∃ n, cx.arena.declName d = .ok n ∧ (u.isGuarded = true → n.isValid = true) ∧ cx.Lost n

/-- What is called something is not nameless. -/
theorem not_nameless_of_called {s : String} (h : u.called cx d = .ok s) : ¬ u.Nameless cx d := by
  intro hnameless
  obtain ⟨n, hn, hvalid, hlost⟩ := hnameless
  have hspell : cx.spell n = .ok s := by
    unfold called at h
    split at h
    next hguarded =>
      obtain ⟨n', hn', h⟩ := bind_eq_ok.mp h
      obtain rfl := Except.ok.inj (hn.symm.trans hn')
      rwa [if_pos (hvalid hguarded)] at h
    next =>
      obtain ⟨n', hn', h⟩ := bind_eq_ok.mp h
      obtain rfl := Except.ok.inj (hn.symm.trans hn')
      exact h
  exact not_lost_of_spellWithin hspell hlost

/-- Where a declaration is nameless, some declaration is anonymous. -/
theorem Nameless.hasAnonymous (hcx : cx.Intact) (h : u.Nameless cx d) : cx.HasAnonymous := by
  obtain ⟨n, hn, _, m, hreach, hmissing⟩ := h
  rcases hcx.reached hn hreach with hissued | ⟨_, hanonymous⟩
  · exact absurd hissued hmissing
  · exact hanonymous

/-- **Calling by name faults in two ways**: the declaration is nameless, or the
context is circular. -/
theorem called_eq_error (hcx : cx.Intact) (hd : cx.Issued d) {fault : Fault}
    (h : u.called cx d = .error fault) :
    (fault = .outOfBounds (cx.count .name) Handle.noIndex ∧ u.Nameless cx d) ∨
      (fault = .cyclic ∧ cx.Circular) := by
  have hname (hfault : cx.arena.declName d = .error fault) : fault = .cyclic ∧ cx.Circular := by
    obtain rfl := hcx.declName_inside hd fault hfault
    exact ⟨rfl, circular_of_declName hfault⟩
  have hspell {n : NameId} (hn : cx.arena.declName d = .ok n)
      (hvalid : u.isGuarded = true → n.isValid = true) (hfault : cx.spell n = .error fault) :
      (fault = .outOfBounds (cx.count .name) Handle.noIndex ∧ u.Nameless cx d) ∨
        (fault = .cyclic ∧ cx.Circular) := by
    rcases hcx.spellWithin_unspelled fault hfault with rfl | ⟨m, hreach, hmissing, rfl⟩
    · exact .inr ⟨rfl, circular_of_spell hfault⟩
    · rcases hcx.reached hn hreach with hissued | ⟨rfl, _⟩
      · exact absurd hissued hmissing
      · exact .inl ⟨rfl, n, hn, hvalid, .invalid, hreach, hmissing⟩
  unfold called at h
  split at h
  next hguarded =>
    rcases bind_eq_error.mp h with hfault | ⟨n, hn, hrest⟩
    · exact .inr (hname hfault)
    · split at hrest
      next hvalid => exact hspell hn (fun _ => hvalid) hrest
      next => cases hrest
  next hunguarded =>
    rcases bind_eq_error.mp h with hfault | ⟨n, hn, hrest⟩
    · exact .inr (hname hfault)
    · exact hspell hn (fun hguarded => absurd hguarded hunguarded) hrest

/-- A use looks at something: what a template wraps is there. -/
theorem exists_sees (hcx : cx.Intact) (hd : cx.Issued d) (u : DeclUse) :
    ∃ kind, u.Sees cx.arena d kind := by
  obtain ⟨kind, hkind⟩ := exists_fetch hd
  have hstands : ∃ kind, cx.arena.StandsFor d kind := by
    obtain ⟨target, htarget⟩ := hd.parameterized.exists_ok
    obtain ⟨found, hfound, hrest⟩ := bind_eq_ok.mp htarget
    have hissued : cx.Issued target := by
      cases found with
      | template parms inner constraint =>
        cases hrest
        exact hcx.wrapped hfound
      | _ =>
        cases hrest
        exact hd
    obtain ⟨seen, hseen⟩ := exists_fetch hissued
    exact ⟨seen, target, htarget, hseen⟩
  cases u with
  | reference | memberReference => exact hstands
  | check | templateId | conceptId => exact ⟨kind, hkind⟩

/-- What references accept is no template, so it has a name. -/
theorem exists_declName (hstands : cx.arena.StandsFor d kind) (h : u.accepts kind = true)
    (hu : ∀ args, u ≠ .templateId args) : ∃ n, cx.arena.declName d = .ok n := by
  have hplain : ∀ parms inner constraint, kind ≠ .template parms inner constraint := by
    intro parms inner constraint htemplate
    subst htemplate
    cases u with
    | templateId args => exact hu args rfl
    | _ => cases h
  obtain ⟨target, htarget, hkind⟩ := hstands
  obtain ⟨depth, _, haround⟩ := Arena.Around.of_parameterized hkind hplain htarget
  obtain ⟨n, hn⟩ := haround.exists_name
  exact ⟨n, haround.declName hn⟩

end DeclUse

/-! ## Reports -/

/-- How a request fails that reports a mistake about what something is called:
if that can not be told, by that. -/
def Failure.report (m : String → Mistake) : Except Fault String → Failure
  | .ok spelled => .refused (.semantic (m spelled))
  | .error fault => .broken fault

namespace Build

variable {α : Type} {cx : Context} {d : DeclId}

/-- A refusal that has to say what something is called fails as finding that out
does. -/
theorem report_run (look : Context → Except Fault String) (m : String → Mistake) :
    (do mistake (m (← read look)) : Build α).runOn cx = (.error (.report m (look cx)), cx) := by
  rw [runOn_bind, runOn_read]
  cases look cx <;> rfl

/-- What begins with the name of a declaration, and is refused by it if it can be
told. -/
theorem report_named_run {f : NameId → Build α} {m : String → Mistake}
    (hnamed : ∀ n, cx.arena.declName d = .ok n →
      (read (fun cx => cx.arena.declName d) >>= f).runOn cx = (.error (cx.refusal n m), cx)) :
    (read (fun cx => cx.arena.declName d) >>= f).runOn cx
      = (.error (.report m (cx.arena.declName d >>= cx.spell)), cx) := by
  cases hname : cx.arena.declName d with
  | error fault =>
    rw [runOn_bind, runOn_read, hname]
    rfl
  | ok n =>
    rw [hnamed n hname, refusal]
    show _ = (Except.error (Failure.report m (cx.spell n)), cx)
    cases cx.spell n <;> rfl

end Build

namespace Workspace

variable {w : Workspace} {d : DeclId} {kind : DeclKind} {u : DeclUse}

/-- A request for a node is answered when the construction behind it is. -/
theorem answers_of_run {request : Request} {c : Category} {b : Build (Handle c)} {id : Handle c}
    {cx : Context} (hrequest : request.perform = Answer.node c <$> b)
    (h : b.runOn w.context = (.ok id, cx)) : w.Answers request :=
  ⟨_, congrArg Prod.fst (step_node hrequest h)⟩

/-- **A declaration of the right sort** is answered with a node. -/
theorem answers_of_accepts (hsees : u.Sees w.context.arena d kind) (h : u.accepts kind = true) :
    w.Answers (u.request d) := by
  cases u with
  | reference =>
    obtain ⟨n, hn⟩ := DeclUse.exists_declName hsees h nofun
    rcases Bool.or_eq_true_iff.mp h with hobject | hfunction
    · obtain ⟨ty, hty⟩ := Option.isSome_iff_exists.mp hobject
      exact answers_of_run rfl (Build.reference_object hn hsees hty)
    · obtain ⟨ty, hty⟩ := Option.isSome_iff_exists.mp hfunction
      exact answers_of_run rfl (Build.reference_function hn hsees hty)
  | memberReference object =>
    obtain ⟨n, hn⟩ := DeclUse.exists_declName hsees h nofun
    rcases Bool.or_eq_true_iff.mp h with hfield | hmethod
    · obtain ⟨ty, hty⟩ := Option.isSome_iff_exists.mp hfield
      exact answers_of_run rfl (Build.memberReference_field hn hsees object hty)
    · obtain ⟨ty, hty⟩ := Option.isSome_iff_exists.mp hmethod
      exact answers_of_run rfl (Build.memberReference_method hn hsees object hty)
  | check args =>
    rw [DeclUse.request, answers_iff (b := Build.check d args) rfl, Build.check_isOk hsees]
    exact DeclKind.sort_eq_concept.mp (of_decide_eq_true h)
  | conceptId args =>
    rw [DeclUse.request, answers_iff (b := Build.conceptId d args) rfl, Build.conceptId_isOk hsees]
    exact DeclKind.sort_eq_concept.mp (of_decide_eq_true h)
  | templateId args =>
    rw [DeclUse.request, answers_iff (b := Build.templateId d args) rfl, Build.templateId_isOk hsees]
    exact DeclKind.sort_eq_template.mp (of_decide_eq_true h)

/-- **A declaration of the wrong sort** is reported by what it is called, and
nothing is changed. -/
theorem step_of_not_accepts (hsees : u.Sees w.context.arena d kind) (h : u.accepts kind = false) :
    w.step (.ask (u.request d)) = (.error (.report (u.mistake kind) (u.called w.context d)), w) := by
  cases u with
  | reference =>
    obtain ⟨hobject, hfunction⟩ := Bool.or_eq_false_iff.mp h
    rw [Option.isSome_eq_false_iff, Option.isNone_iff_eq_none] at hobject hfunction
    refine step_node_error (b := Build.reference d) rfl (Build.report_named_run fun n hn => ?_)
    exact Build.reference_refused hn hsees hobject hfunction
  | memberReference object =>
    obtain ⟨hfield, hmethod⟩ := Bool.or_eq_false_iff.mp h
    rw [Option.isSome_eq_false_iff, Option.isNone_iff_eq_none] at hfield hmethod
    refine step_node_error (b := Build.memberReference object d) rfl
      (Build.report_named_run fun n hn => ?_)
    exact Build.memberReference_refused hn hsees object hfield hmethod
  | check args =>
    have hread : w.context.arena.decl d = .ok kind := hsees
    refine step_node_error (b := Build.check d args) rfl ((Build.runOn_read_bind hread).trans ?_)
    split
    · cases h
    · refine Build.report_named_run fun n hn => ?_
      exact (Build.runOn_read_bind hn).trans (Build.refuse_run _ n _)
  | conceptId args =>
    have hread : w.context.arena.decl d = .ok kind := hsees
    refine step_node_error (b := Build.conceptId d args) rfl ((Build.runOn_read_bind hread).trans ?_)
    split
    · cases h
    · exact Build.report_run _ _
  | templateId args =>
    have hread : w.context.arena.decl d = .ok kind := hsees
    refine step_node_error (b := Build.templateId d args) rfl ((Build.runOn_read_bind hread).trans ?_)
    split
    · cases h
    · exact Build.report_run _ _

/-- How the use of a declaration of the wrong sort comes out. -/
structure ReportsMisuse (w : Workspace) (u : DeclUse) (d : DeclId) (kind : DeclKind) : Prop where
  unchanged : (w.step (.ask (u.request d))).2 = w
  /-- It is refused by what the declaration is called, unless that can not be
  told in a circular context. -/
  named : ¬ u.Nameless w.context d →
    (∃ spelled, u.called w.context d = .ok spelled ∧
      (w.step (.ask (u.request d))).1 = .error (.refused (.semantic (u.mistake kind spelled)))) ∨
    ((w.step (.ask (u.request d))).1 = .error (.broken .cyclic) ∧ w.context.Circular)
  /-- It faults where the declaration is nameless, which takes a declaration that
  is anonymous. -/
  nameless : u.Nameless w.context d → w.context.HasAnonymous ∧
    ((w.step (.ask (u.request d))).1
        = .error (.broken (.outOfBounds (w.context.count .name) Handle.noIndex)) ∨
      ((w.step (.ask (u.request d))).1 = .error (.broken .cyclic) ∧ w.context.Circular))

/-- **Misuse is reported, except of what is nameless.**  In every context that is
intact, each of the five uses of a declaration that is there is answered if the
declaration is of the right sort; else it is refused by name and changes
nothing, unless the name leads to that of an anonymous declaration, and then
the request faults. -/
theorem misuse_reported (hcx : w.context.Intact) (hd : w.context.Issued d) (u : DeclUse) :
    ∃ kind, u.Sees w.context.arena d kind ∧
      (u.accepts kind = true → w.Answers (u.request d)) ∧
      (u.accepts kind = false → w.ReportsMisuse u d kind) := by
  obtain ⟨kind, hsees⟩ := DeclUse.exists_sees hcx hd u
  refine ⟨kind, hsees, answers_of_accepts hsees, fun hno => ?_⟩
  have hstep := step_of_not_accepts hsees hno
  refine ⟨congrArg Prod.snd hstep, fun hnamed => ?_, fun hnameless => ?_⟩
  · cases hcalled : u.called w.context d with
    | ok spelled =>
      rw [hcalled] at hstep
      exact .inl ⟨spelled, rfl, congrArg Prod.fst hstep⟩
    | error fault =>
      rcases DeclUse.called_eq_error hcx hd hcalled with ⟨_, hnameless⟩ | ⟨rfl, hcircular⟩
      · exact absurd hnameless hnamed
      · rw [hcalled] at hstep
        exact .inr ⟨congrArg Prod.fst hstep, hcircular⟩
  · refine ⟨hnameless.hasAnonymous hcx, ?_⟩
    cases hcalled : u.called w.context d with
    | ok spelled => exact absurd hnameless (DeclUse.not_nameless_of_called hcalled)
    | error fault =>
      rw [hcalled] at hstep
      rcases DeclUse.called_eq_error hcx hd hcalled with ⟨rfl, _⟩ | ⟨rfl, hcircular⟩
      · exact .inl (congrArg Prod.fst hstep)
      · exact .inr ⟨congrArg Prod.fst hstep, hcircular⟩

/-- A run that declares a class without a name and a template around it, and a
variable that is named by applying the template and is referred to. -/
def anonymousRun : List Command :=
  [.ask (.decl (.ordinaryClass .invalid)), .ask (.decl (.template [] ⟨1⟩)),
    .ask (.name (.templateId ⟨2⟩ [])), .ask (.decl (.var ⟨1⟩ .bool none)),
    .ask (.expr (.reference ⟨3⟩))]

/-- After the run the class still has no name, and that is all that is missing. -/
theorem intact_anonymousRun :
    (reached .standard ConstraintTable.polynomialDigest anonymousRun).context.Intact where
  names := by decide +kernel
  spelled := by
    intro n sym hn
    have hnames : (reached .standard ConstraintTable.polynomialDigest
        anonymousRun).context.arena.names = #[.global, .template ⟨2⟩ []] := rfl
    have hmem := mem_of_fetch hn
    simp [hnames] at hmem
  decls := by decide +kernel

/-- Asked for as a concept the class is refused by a stand-in for its name, and
the variable, which has a name, is nameless. -/
theorem misuse_reported_anonymousRun :
    (reached .standard ConstraintTable.polynomialDigest anonymousRun).context.Intact ∧
      (reached .standard ConstraintTable.polynomialDigest anonymousRun).context.Issued
        (⟨1⟩ : DeclId) ∧
      ((reached .standard ConstraintTable.polynomialDigest anonymousRun).step
        (.ask (.name (.conceptId ⟨1⟩ [])))).1
        = .error (.refused (.semantic (.doesNotName "<anonymous>" .concept))) ∧
      (reached .standard ConstraintTable.polynomialDigest anonymousRun).context.Issued
        (⟨3⟩ : DeclId) ∧
      ((reached .standard ConstraintTable.polynomialDigest anonymousRun).step
        (.ask (.name (.conceptId ⟨3⟩ [])))).1 = .error (.broken (.outOfBounds 2 4294967295)) := by
  have hclass : (reached .standard ConstraintTable.polynomialDigest anonymousRun).context.Issued
      (⟨1⟩ : DeclId) := by decide
  have hvar : (reached .standard ConstraintTable.polynomialDigest anonymousRun).context.Issued
      (⟨3⟩ : DeclId) := by decide
  refine ⟨intact_anonymousRun, hclass, ?_, hvar, ?_⟩
  · obtain ⟨kind, hsees, _, hmisuse⟩ := misuse_reported intact_anonymousRun hclass (.conceptId [])
    cases hsees
    have hcalled : DeclUse.called
        (reached .standard ConstraintTable.polynomialDigest anonymousRun).context ⟨1⟩ (.conceptId [])
        = .ok "<anonymous>" := rfl
    rcases (hmisuse rfl).named (DeclUse.not_nameless_of_called hcalled) with ⟨spelled, h, hrefused⟩ | h
    · cases h
      exact hrefused
    · exact absurd h.1 (by decide +kernel)
  · obtain ⟨kind, hsees, _, hmisuse⟩ := misuse_reported intact_anonymousRun hvar (.conceptId [])
    cases hsees
    have hnameless : DeclUse.Nameless
        (reached .standard ConstraintTable.polynomialDigest anonymousRun).context ⟨3⟩
        (.conceptId []) :=
      ⟨⟨1⟩, rfl, fun _ => rfl, .invalid, .single (.applied rfl rfl rfl), by decide⟩
    rcases ((hmisuse rfl).nameless hnameless).2 with hfault | h
    · exact hfault
    · exact absurd h.1 (by decide +kernel)

/-- Misuse of an anonymous class faults where it is referred to, taken for a
member or checked as a concept.  All that the context mentions is there, and as
a concept with arguments the class is refused. -/
theorem anonymous_misuse_faults :
    (reached .standard ConstraintTable.polynomialDigest anonymousRun).context.Intact ∧
      (reached .standard ConstraintTable.polynomialDigest anonymousRun).context.Issued
        (⟨1⟩ : DeclId) ∧
      (reached .standard ConstraintTable.polynomialDigest anonymousRun).context.Issued
        (⟨0⟩ : ExprId) ∧
      (∀ u : DeclUse, u ∈ [.reference, .memberReference ⟨0⟩, .check []] →
        ((reached .standard ConstraintTable.polynomialDigest anonymousRun).step
          (.ask (u.request ⟨1⟩))).1 = .error (.broken (.outOfBounds 2 4294967295))) ∧
      ((reached .standard ConstraintTable.polynomialDigest anonymousRun).step
        (.ask (.name (.conceptId ⟨1⟩ [])))).1
        = .error (.refused (.semantic (.doesNotName "<anonymous>" .concept))) :=
  ⟨intact_anonymousRun, by decide, by decide, by decide +kernel, by decide +kernel⟩

end Workspace

end TermGraph
