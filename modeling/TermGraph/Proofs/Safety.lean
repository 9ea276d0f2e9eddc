import TermGraph.Proofs.Closed

/-!
# Safe constructions

A construction is *safe* at a context when, the context being closed, all it
does to the context is growth, and what it answers satisfies a postcondition
there (`Build.Safe`).  Nothing is said about how it ends: a construction that
is refused halfway is safe when what it did before was growth.

There is one rule for each way in which constructions are put together
(`Safe.pure`, `Safe.bind`, `Safe.read_bind`, …) and one for each primitive
construction; the rules for requests, in the next file, follow their code.
-/

namespace TermGraph.Build

variable {α β : Type} {cx : Context}

/-- On a closed context the construction only grows it, and an answer satisfies
the postcondition. -/
def Safe (b : Build α) (cx : Context) (post : α → Context → Prop) : Prop :=
  cx.Closed → cx.Grows (b.runOn cx).2 ∧ ∀ x, (b.runOn cx).1 = .ok x → post x (b.runOn cx).2

/-! ## How constructions run -/

/-- One construction after the other: the second starts where the first ended, and
does not start when the first was refused. -/
theorem runOn_bind (b : Build α) (f : α → Build β) (cx : Context) :
    (b >>= f).runOn cx =
      match b.runOn cx with
      | (.ok x, cx') => (f x).runOn cx'
      | (.error failure, cx') => (.error failure, cx') := by
  show (b >>= f) cx = _
  unfold runOn
  simp only [bind, ExceptT.bind, ExceptT.mk, StateT.bind]
  rcases h : b cx with ⟨_ | x, cx'⟩ <;> rfl

/-- A lookup leaves the context alone; one that fails is a fault. -/
theorem runOn_read (look : Context → Except Fault α) (cx : Context) :
    (read look).runOn cx = ((look cx).mapError .broken, cx) := rfl

/-- What was read is handed on. -/
theorem runOn_read_bind {look : Context → Except Fault α} {f : α → Build β} {x : α}
    (h : look cx = .ok x) : (read look >>= f).runOn cx = (f x).runOn cx := by
  rw [runOn_bind, runOn_read, h]
  rfl

/-- What is done to an answer does not touch the context. -/
theorem runOn_map (f : α → β) (b : Build α) (cx : Context) :
    (f <$> b).runOn cx = ((b.runOn cx).1.map f, (b.runOn cx).2) := by
  show (b >>= fun x => pure (f x)).runOn cx = _
  rw [runOn_bind]
  rcases b.runOn cx with ⟨_ | x, cx'⟩ <;> rfl

/-! ## Putting constructions together -/

namespace Safe

variable {post : α → Context → Prop} {post' : β → Context → Prop}

/-- What answers at once needs its postcondition where it starts. -/
theorem pure {x : α} (h : cx.Closed → post x cx) : Safe (Pure.pure x) cx post := by
  intro hcx
  exact ⟨.refl, fun y hy => by cases hy; exact h hcx⟩

/-- A refusal does nothing and has no answer to promise anything of. -/
theorem throw {failure : Failure} : Safe (MonadExcept.throw failure : Build α) cx post := by
  intro _
  exact ⟨.refl, fun y hy => by cases hy⟩

/-- What is safe afterwards is safe at every later state that is reached. -/
theorem bind {b : Build α} {f : α → Build β} (hb : Safe b cx post)
    (hf : ∀ x cx', cx.Precedes cx' → post x cx' → Safe (f x) cx' post') :
    Safe (b >>= f) cx post' := by
  intro hcx
  obtain ⟨hgrows, hanswer⟩ := hb hcx
  rw [runOn_bind]
  rcases h : b.runOn cx with ⟨_ | x, cx'⟩
  · rw [h] at hgrows
    exact ⟨hgrows, fun y hy => by cases hy⟩
  · rw [h] at hgrows hanswer
    obtain ⟨hgrows', hanswer'⟩ := hf x cx' hgrows.precedes (hanswer x rfl) (hgrows.closed hcx)
    exact ⟨hgrows.trans hgrows', hanswer'⟩

/-- The postcondition is asked of the answer that is handed on. -/
theorem map {b : Build α} {f : α → β} (hb : Safe b cx fun x cx' => post' (f x) cx') :
    Safe (f <$> b) cx post' := by
  intro hcx
  obtain ⟨hgrows, hanswer⟩ := hb hcx
  rw [runOn_map]
  refine ⟨hgrows, fun y hy => ?_⟩
  cases h : (b.runOn cx).1 with
  | error failure => rw [h] at hy; cases hy
  | ok x => rw [h] at hy; cases hy; exact hanswer x h

/-- Reading changes nothing; what was read may be used afterwards. -/
theorem read_bind {look : Context → Except Fault α} {f : α → Build β}
    (hf : cx.Closed → ∀ x, look cx = .ok x → Safe (f x) cx post') :
    Safe (Build.read look >>= f) cx post' := by
  intro hcx
  rw [runOn_bind, runOn_read]
  cases h : look cx with
  | error fault => exact ⟨.refl, fun y hy => by cases hy⟩
  | ok x => exact hf hcx x h hcx

/-- What was read has to satisfy the postcondition where it was read. -/
theorem read {look : Context → Except Fault α} (h : cx.Closed → ∀ x, look cx = .ok x → post x cx) :
    Safe (Build.read look) cx post := by
  intro hcx
  rw [runOn_read]
  refine ⟨.refl, fun y hy => h hcx y ?_⟩
  cases hlook : look cx with
  | error fault => rw [hlook] at hy; cases hy
  | ok x => rw [hlook] at hy; cases hy; rfl

/-- A change that is one effect. -/
theorem change {step : Context → α × Context} (e : Effect) (he : cx.AllIssued e.handles)
    (hstep : (step cx).2 = e.apply cx) (h : post (step cx).1 (e.apply cx)) :
    Safe (Build.change step) cx post := by
  intro _
  show cx.Grows (step cx).2 ∧ ∀ x, Except.ok (step cx).1 = .ok x → post x (step cx).2
  rw [hstep]
  exact ⟨.single e he, fun y hy => by cases hy; exact h⟩

/-! ## The primitive constructions -/

/-- A mistake of the user's ends the construction, so anything may be promised. -/
theorem mistake {m : Mistake} : Safe (Build.mistake m : Build α) cx post := throw

/-- So does asking for what is not supported. -/
theorem unsupported {feature : String} : Safe (Build.unsupported feature : Build α) cx post := throw

/-- So does breaking a rule of the interface. -/
theorem violation {rule : Violation} : Safe (Build.violation rule : Build α) cx post := throw

/-- A spelling is no handle, so nothing has to have been issued for it. -/
theorem symbol (s : String) : Safe (Build.symbol s) cx fun _ _ => True :=
  change (.spelling s) Context.allIssued_nil rfl trivial

/-- A number for a placeholder is no handle either. -/
theorem freshPlaceholder : Safe Build.freshPlaceholder cx fun _ _ => True :=
  change .number Context.allIssued_nil rfl trivial

/-- A new name is issued if what it mentions is; so it is with other nodes. -/
theorem pushName {kind : NameKind} (h : cx.AllIssued kind.handles) :
    Safe (Build.pushName kind) cx fun n cx' => cx'.Issued n :=
  change (.name kind) h rfl (by simp [Context.Issued, Context.count, Effect.apply, Arena.pushName])

/-- A new expression is issued if what it mentions is, its type included. -/
theorem pushExpr {kind : ExprKind} {ty : TypeId} (hty : cx.Issued ty)
    (h : cx.AllIssued kind.handles) :
    Safe (Build.pushExpr kind ty) cx fun e cx' => cx'.Issued e :=
  change (.expr kind ty) (Context.allIssued_cons.mpr ⟨hty, h⟩) rfl
    (by simp [Context.Issued, Context.count, Effect.apply, Arena.pushExpr])

theorem pushStmt {kind : StmtKind} (h : cx.AllIssued kind.handles) :
    Safe (Build.pushStmt kind) cx fun s cx' => cx'.Issued s :=
  change (.stmt kind) h rfl (by simp [Context.Issued, Context.count, Effect.apply, Arena.pushStmt])

theorem pushDecl {kind : DeclKind} (h : cx.AllIssued kind.handles) :
    Safe (Build.pushDecl kind) cx fun d cx' => cx'.Issued d :=
  change (.decl kind) h rfl (by simp [Context.Issued, Context.count, Effect.apply, Arena.pushDecl])

theorem pushDef {kind : DefKind} (h : cx.AllIssued kind.handles) :
    Safe (Build.pushDef kind) cx fun d cx' => cx'.Issued d :=
  change (.definition kind) h rfl
    (by simp [Context.Issued, Context.count, Effect.apply, Arena.pushDef])

theorem pushReq {kind : ReqKind} (h : cx.AllIssued kind.handles) :
    Safe (Build.pushReq kind) cx fun r cx' => cx'.Issued r :=
  change (.requirement kind) h rfl
    (by simp [Context.Issued, Context.count, Effect.apply, Arena.pushReq])

/-- A type is issued if what it mentions is, whether it is found or stored. -/
theorem internType {kind : TypeKind} (h : cx.AllIssued kind.handles) :
    Safe (Build.internType kind) cx fun t cx' => cx'.Issued t := by
  refine change (.type kind) h rfl ?_
  exact (Array.getElem?_eq_some_iff.mp (cx.types.kinds.getElem?_intern kind)).1

/-- A constraint is issued if what it mentions is, and a comparison that fails on
the way files nothing. -/
theorem internConstraint {kind : ConstraintKind} (h : cx.AllIssued kind.handles) :
    Safe (Build.internConstraint kind) cx fun c cx' => cx'.Issued c := by
  intro _
  have hgrows := Context.Grows.single (.constraint kind) h
  simp only [Effect.apply] at hgrows
  simp only [runOn, Build.internConstraint]
  rcases hfound : cx.constraints.intern cx.arena kind with fault | ⟨c, t⟩
  · exact ⟨.refl, fun y hy => by cases hy⟩
  · rw [hfound] at hgrows
    refine ⟨hgrows, fun y hy => ?_⟩
    cases hy
    rcases ConstraintTable.intern_eq_ok hfound with ⟨rfl, hlt⟩ | ⟨key, hkey⟩
    · exact hlt
    · obtain ⟨rfl, rfl⟩ := Prod.mk.inj hkey
      simp [Context.Issued, Context.count, ConstraintTable.size]

/-- A declaration is given another definition. -/
theorem setDecl {d : DeclId} {body : DefId} {kind defined : DeclKind}
    (hkind : cx.arena.decl d = .ok kind) (hdef : kind.define? body = some defined)
    (hd : cx.Issued d) (hbody : cx.Issued body) :
    Safe (Build.setDecl d defined) cx fun _ _ => True := by
  intro _
  simp only [runOn, Build.setDecl, Arena.setDecl_eq_link hkind hdef]
  exact ⟨.single (.link d body) (by simp [Effect.handles, hd, hbody]), fun _ _ => trivial⟩

end Safe

end TermGraph.Build
