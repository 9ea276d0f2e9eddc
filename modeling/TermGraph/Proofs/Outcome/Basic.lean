import TermGraph.Proofs.Types.Formation
import TermGraph.Proofs.Typing.Judgment

/-!
# What a construction comes to

Nothing is asked here of the handles in a request: they may name nothing, or
a node that comes later.  What can still be said of a construction is how it
ends and what it has done to the context by then.

A construction is *sure* at a context when it answers, by effects that are
known (`Build.Sure`).  It is *atomic* when it either fails and leaves the
context as it was, or is sure (`Build.Atomic`): everything that can go wrong is
checked before anything is stored.  Postconditions speak of the answer and of
the list of effects, so there is no separate account of what stays the same.

The rules work backwards.  Reading first keeps a construction atomic, an
atomic construction may be followed by a sure one, and a primitive
construction is sure if the postcondition holds of its one effect.
-/

namespace TermGraph

/-! ## Effects in a row -/

/-- The context after effects in order. -/
def Context.after (cx : Context) (es : List Effect) : Context := es.foldl Effect.apply cx

namespace Context

variable {cx : Context}

@[simp] theorem after_nil : cx.after [] = cx := rfl

/-- The first effect comes first. -/
@[simp] theorem after_cons {e : Effect} {es : List Effect} :
    cx.after (e :: es) = (e.apply cx).after es := rfl

/-- Effects in two lists, one after the other. -/
theorem after_append {es fs : List Effect} : cx.after (es ++ fs) = (cx.after es).after fs :=
  List.foldl_append

/-- Effects lead to later states. -/
theorem precedes_after (cx : Context) (es : List Effect) : cx.Precedes (cx.after es) := by
  induction es generalizing cx with
  | nil => exact .refl cx
  | cons e rest ih => exact (e.precedes_apply cx).trans (ih (e.apply cx))

end Context

/-! ## Effects that fit -/

/-- What the effects of constructions keep to, linking apart: an expression is
added with the type that it has at that moment, and only such types are stored
as requests form. -/
def Effect.Fits (cx : Context) : Effect → Prop
  | .expr kind ty => cx.HasType ty kind
  | .type kind => cx.Forms kind
  | .link _ _ => False
  | _ => True

/-- Every one of the effects fits at the moment when it takes place. -/
def Context.Fitting (cx : Context) : List Effect → Prop
  | [] => True
  | e :: es => e.Fits cx ∧ (e.apply cx).Fitting es

/-- The later effects have to fit where the earlier ones have led. -/
theorem Context.fitting_append {cx : Context} {es fs : List Effect} :
    cx.Fitting (es ++ fs) ↔ cx.Fitting es ∧ (cx.after es).Fitting fs := by
  induction es generalizing cx with
  | nil => simp [Fitting]
  | cons e rest ih => simp only [List.cons_append, Fitting, after_cons, ih, and_assoc]

/-! ## How many nodes there are after effects -/

/-- The category of the node that an effect adds to the arena. -/
def Effect.pushes? : Effect → Option Category
  | .name _ => some .name
  | .expr _ _ => some .expr
  | .stmt _ => some .stmt
  | .decl _ => some .decl
  | .definition _ => some .definition
  | .requirement _ => some .requirement
  | .spelling _ | .type _ | .constraint _ | .link _ _ | .number => none

/-- The categories whose nodes are found again instead of made anew. -/
def Category.isInterned : Category → Bool
  | .type | .constraint => true
  | _ => false

/-- One effect adds one node to the table that it is about, and none to the
others. -/
theorem Effect.count_apply {c : Category} (hc : c.isInterned = false) (cx : Context) (e : Effect) :
    (e.apply cx).count c = cx.count c + if e.pushes? = some c then 1 else 0 := by
  cases e with
  | constraint kind =>
    have harena : (apply cx (.constraint kind)).arena = cx.arena := by
      simp only [apply]
      split <;> rfl
    cases c with
    | type | constraint => cases hc
    | _ => simp only [Context.count, harena, pushes?, reduceCtorEq, if_false, Nat.add_zero]
  | _ =>
    cases c with
    | type | constraint => cases hc
    | _ => simp [Context.count, apply, pushes?, Arena.pushName, Arena.pushExpr, Arena.pushStmt,
        Arena.pushDecl, Arena.pushDef, Arena.pushReq, Arena.link]

/-- How many nodes of a category the effects add to the arena. -/
def Category.pushed (c : Category) (es : List Effect) : Nat := es.countP fun e => e.pushes? = some c

/-- Effects add as many nodes of a category as they push. -/
theorem Context.count_after {c : Category} (hc : c.isInterned = false) (cx : Context)
    (es : List Effect) : (cx.after es).count c = cx.count c + c.pushed es := by
  induction es generalizing cx with
  | nil => rfl
  | cons e rest ih =>
    rw [after_cons, ih, e.count_apply hc]
    simp only [Category.pushed, List.countP_cons, decide_eq_true_eq]
    omega

/-- The effects add `before + 1` nodes of the category, and the handle is that
of the last of them. -/
def Context.Adds (cx : Context) (before : Nat) {c : Category} (id : Handle c) (es : List Effect) :
    Prop :=
  id.index = cx.count c + before ∧ c.pushed es = before + 1

/-! ## Sure and atomic constructions -/

namespace Build

variable {α β : Type} {b : Build α} {cx : Context}

/-- The construction answers, by effects, and answer and effects satisfy the
postcondition. -/
def Sure (b : Build α) (cx : Context) (post : α → List Effect → Prop) : Prop :=
  ∃ x es, b.runOn cx = (.ok x, cx.after es) ∧ post x es

/-- The construction fails and changes nothing, or it is sure. -/
def Atomic (b : Build α) (cx : Context) (post : α → List Effect → Prop) : Prop :=
  (∃ failure, b.runOn cx = (.error failure, cx)) ∨ b.Sure cx post

namespace Sure

variable {post post' : α → List Effect → Prop} {post₂ : β → List Effect → Prop}

/-- The postcondition may be weakened. -/
theorem mono (h : b.Sure cx post) (hpost : ∀ x es, post x es → post' x es) : b.Sure cx post' := by
  obtain ⟨x, es, hrun, hx⟩ := h
  exact ⟨x, es, hrun, hpost x es hx⟩

/-- What answers at once has no effect. -/
theorem pure {x : α} (h : post x []) : Sure (Pure.pure x) cx post := ⟨x, [], rfl, h⟩

/-- The effects of two constructions are those of the first and then those of the
second. -/
theorem bind {f : α → Build β}
    (h : b.Sure cx fun x es => (f x).Sure (cx.after es) fun y fs => post₂ y (es ++ fs)) :
    Sure (b >>= f) cx post₂ := by
  obtain ⟨x, es, hrun, y, fs, hrun', hy⟩ := h
  refine ⟨y, es ++ fs, ?_, hy⟩
  rw [runOn_bind, hrun, Context.after_append]
  exact hrun'

/-- A change that is one effect. -/
theorem change {step : Context → α × Context} (e : Effect) (hstep : (step cx).2 = e.apply cx)
    (h : post (step cx).1 [e]) : Sure (Build.change step) cx post := by
  refine ⟨(step cx).1, [e], ?_, h⟩
  rw [Context.after_cons, Context.after_nil, ← hstep]
  rfl

/-- Interning a spelling is one effect. -/
theorem symbol {s : String} {post : Symbol → List Effect → Prop}
    (h : post (cx.symbols.intern s).1 [.spelling s]) : Sure (Build.symbol s) cx post :=
  change _ rfl h

/-- Drawing a number is one effect. -/
theorem freshPlaceholder {post : Nat → List Effect → Prop} (h : post cx.nextPlaceholder [.number]) :
    Sure Build.freshPlaceholder cx post :=
  change _ rfl h

/-- Interning a type is one effect, and the answer is the handle that the table
gives. -/
theorem internType {kind : TypeKind} {post : TypeId → List Effect → Prop}
    (h : post (cx.types.intern kind).1 [.type kind]) : Sure (Build.internType kind) cx post :=
  change _ rfl h

/-- Storing a name is one effect, and its handle is the next one; so it is with
other nodes. -/
theorem pushName {kind : NameKind} {post : NameId → List Effect → Prop}
    (h : post ⟨cx.count .name⟩ [.name kind]) : Sure (Build.pushName kind) cx post :=
  change _ rfl h

/-- Storing an expression is one effect, and its handle is the next one. -/
theorem pushExpr {kind : ExprKind} {ty : TypeId} {post : ExprId → List Effect → Prop}
    (h : post ⟨cx.count .expr⟩ [.expr kind ty]) : Sure (Build.pushExpr kind ty) cx post :=
  change _ rfl h

theorem pushStmt {kind : StmtKind} {post : StmtId → List Effect → Prop}
    (h : post ⟨cx.count .stmt⟩ [.stmt kind]) : Sure (Build.pushStmt kind) cx post :=
  change _ rfl h

theorem pushDecl {kind : DeclKind} {post : DeclId → List Effect → Prop}
    (h : post ⟨cx.count .decl⟩ [.decl kind]) : Sure (Build.pushDecl kind) cx post :=
  change _ rfl h

theorem pushDef {kind : DefKind} {post : DefId → List Effect → Prop}
    (h : post ⟨cx.count .definition⟩ [.definition kind]) : Sure (Build.pushDef kind) cx post :=
  change _ rfl h

theorem pushReq {kind : ReqKind} {post : ReqId → List Effect → Prop}
    (h : post ⟨cx.count .requirement⟩ [.requirement kind]) : Sure (Build.pushReq kind) cx post :=
  change _ rfl h

end Sure

namespace Atomic

variable {post post' : α → List Effect → Prop} {post₂ : β → List Effect → Prop}

/-- The postcondition may be weakened. -/
theorem mono (h : b.Atomic cx post) (hpost : ∀ x es, post x es → post' x es) :
    b.Atomic cx post' := by
  rcases h with hfail | hsure
  · exact .inl hfail
  · exact .inr (hsure.mono hpost)

/-- What is sure is atomic: it never fails. -/
theorem sure (h : b.Sure cx post) : b.Atomic cx post := .inr h

/-- A refusal changes nothing. -/
theorem throw {failure : Failure} : Atomic (MonadExcept.throw failure : Build α) cx post :=
  .inl ⟨failure, rfl⟩

/-- Reading changes nothing, so it may go before. -/
theorem read_bind {look : Context → Except Fault α} {f : α → Build β}
    (h : ∀ x, look cx = .ok x → (f x).Atomic cx post₂) :
    Atomic (Build.read look >>= f) cx post₂ := by
  unfold Atomic Sure
  cases hlook : look cx with
  | error fault =>
    refine .inl ⟨.broken fault, ?_⟩
    rw [runOn_bind, runOn_read, hlook]
    rfl
  | ok x =>
    rw [runOn_read_bind hlook]
    exact h x hlook

/-- A lookup fails or answers, and changes nothing either way. -/
theorem read {look : Context → Except Fault α} (h : ∀ x, look cx = .ok x → post x []) :
    Atomic (Build.read look) cx post := by
  unfold Atomic Sure
  rw [runOn_read]
  cases hlook : look cx with
  | error fault => exact .inl ⟨.broken fault, rfl⟩
  | ok x => exact .inr ⟨x, [], rfl, h x hlook⟩

/-- What follows an atomic construction has to be sure. -/
theorem bind {f : α → Build β}
    (h : b.Atomic cx fun x es => (f x).Sure (cx.after es) fun y fs => post₂ y (es ++ fs)) :
    Atomic (b >>= f) cx post₂ := by
  rcases h with ⟨failure, hrun⟩ | hsure
  · exact .inl ⟨failure, by rw [runOn_bind, hrun]⟩
  · exact .inr (.bind hsure)

/-- The postcondition is asked of the answer that is handed on. -/
theorem map {f : α → β} (h : b.Atomic cx fun x es => post₂ (f x) es) :
    Atomic (f <$> b) cx post₂ := by
  unfold Atomic Sure
  rw [runOn_map]
  rcases h with ⟨failure, hrun⟩ | ⟨x, es, hrun, hx⟩
  · exact .inl ⟨failure, by rw [hrun]; rfl⟩
  · exact .inr ⟨f x, es, by rw [hrun]; rfl, hx⟩

/-- If comparing constraints comes to no end or leads nowhere, nothing is
filed. -/
theorem internConstraint {kind : ConstraintKind} {post : ConsId → List Effect → Prop}
    (h : ∀ c, post c [.constraint kind]) : Atomic (Build.internConstraint kind) cx post := by
  unfold Atomic Sure runOn Build.internConstraint
  rcases hfound : cx.constraints.intern cx.arena kind with fault | ⟨c, t⟩
  · exact .inl ⟨.broken fault, rfl⟩
  · refine .inr ⟨c, [.constraint kind], ?_, h c⟩
    simp only [Context.after_cons, Context.after_nil, Effect.apply, hfound]

end Atomic

end Build

end TermGraph
