import TermGraph.Proofs.Growth

/-!
# Closed contexts

A context is *closed* when every handle in its tables has been issued, so
that no walk along handles can leave the tables (`Context.Closed`).  A new
context is closed, and an effect whose handles have been issued keeps a
context closed (`Context.Closed.apply`).

`cx.Grows cx'` says that `cx'` is reached from `cx` by such effects.  The
handles in an effect are issued at the moment the effect takes place; a node
pushed by an earlier effect may be mentioned by a later one, never the other
way round.  Every order among nodes that later proofs descend along comes from
this relation, by induction on it.
-/

namespace TermGraph

/-- The handles that every context has issued from the start. -/
def predefinedHandles : List AnyHandle :=
  [NameId.global.any, TypeId.void.any, TypeId.bool.any, TypeId.type.any, DeclId.globalNamespace.any,
    DefId.empty.any, DefId.deleted.any, DefId.defaulted.any]

/-- Every handle in the tables of the first context has been issued by the
second. -/
structure Context.ClosedIn (cx cx' : Context) : Prop where
  predefined : cx'.AllIssued predefinedHandles
  names : ∀ kind ∈ cx.arena.names, cx'.AllIssued kind.handles
  exprs : ∀ e ∈ cx.arena.exprs, cx'.AllIssued e.handles
  stmts : ∀ kind ∈ cx.arena.stmts, cx'.AllIssued kind.handles
  decls : ∀ kind ∈ cx.arena.decls, cx'.AllIssued kind.handles
  defs : ∀ kind ∈ cx.arena.defs, cx'.AllIssued kind.handles
  reqs : ∀ kind ∈ cx.arena.reqs, cx'.AllIssued kind.handles
  types : ∀ kind ∈ cx.types.kinds.entries, cx'.AllIssued kind.handles
  constraints : ∀ kind ∈ cx.constraints.kinds, cx'.AllIssued kind.handles

/-- Every handle in the tables of the context has been issued. -/
abbrev Context.Closed (cx : Context) : Prop := cx.ClosedIn cx

/-- The types of a context that nothing was asked of yet. -/
theorem TypeTable.entries_fresh : fresh.kinds.entries = #[.void, .boolean, .typeOfTypes] := by
  decide +kernel

namespace Context

variable {cx cx' cx'' : Context}

/-- Where all handles of a table have been issued they stay so. -/
theorem ClosedIn.later (h : cx.ClosedIn cx') (hle : cx'.Precedes cx'') : cx.ClosedIn cx'' where
  predefined := h.predefined.later hle
  names kind hkind := (h.names kind hkind).later hle
  exprs e he := (h.exprs e he).later hle
  stmts kind hkind := (h.stmts kind hkind).later hle
  decls kind hkind := (h.decls kind hkind).later hle
  defs kind hkind := (h.defs kind hkind).later hle
  reqs kind hkind := (h.reqs kind hkind).later hle
  types kind hkind := (h.types kind hkind).later hle
  constraints kind hkind := (h.constraints kind hkind).later hle

/-- Predefined nodes are there in every closed context. -/
theorem ClosedIn.starts (h : cx.ClosedIn cx') {c : Category} {id : Handle c}
    (hid : id.any ∈ predefinedHandles) : cx'.Issued id :=
  h.predefined _ hid

/-- A context that nothing was asked of yet is closed. -/
theorem closed_create (config : Config) (digest : List Nat → UInt64) :
    (create config digest).Closed where
  predefined := by
    simp [predefinedHandles, Issued, count, create, Arena.fresh, TypeTable.size, Interner.size,
      TypeTable.entries_fresh, NameId.global, TypeId.void, TypeId.bool, TypeId.type,
      DeclId.globalNamespace, DefId.empty, DefId.deleted, DefId.defaulted]
  names := by simp [create, Arena.fresh, NameKind.handles]
  exprs := by simp [create, Arena.fresh]
  stmts := by simp [create, Arena.fresh]
  decls := by
    have hglobal : (create config digest).Issued NameId.global := Nat.zero_lt_one
    simpa [create, Arena.fresh, DeclKind.handles] using hglobal
  defs := by simp [create, Arena.fresh, DefKind.handles]
  reqs := by simp [create, Arena.fresh]
  types := by simp [create, TypeTable.entries_fresh, TypeKind.handles]
  constraints := by simp [create, ConstraintTable.fresh]

end Context

/-- Another definition brings no handle but its own into a declaration. -/
theorem DeclKind.handles_of_define? {body : DefId} {kind defined : DeclKind}
    (h : kind.define? body = some defined) :
    ∀ x ∈ defined.handles, x = body.any ∨ x ∈ kind.handles := by
  cases kind <;> simp [define?] at h <;> subst h <;> simp [handles] <;> grind

/-- The declarations after linking are those before, one of them perhaps with
another definition. -/
theorem Arena.mem_link {a : Arena} {d : DeclId} {body : DefId} {kind : DeclKind}
    (h : kind ∈ (a.link d body).decls) :
    ∃ old ∈ a.decls, ∀ x ∈ kind.handles, x = body.any ∨ x ∈ old.handles := by
  obtain ⟨i, hi⟩ := Array.mem_iff_getElem?.mp h
  rw [link, Array.getElem?_modify] at hi
  by_cases hd : d.index = i
  · rw [if_pos hd, Option.map_eq_some_iff] at hi
    obtain ⟨old, hold, hkind⟩ := hi
    refine ⟨old, Array.mem_of_getElem? hold, fun x hx => ?_⟩
    cases hdef : old.define? body with
    | none =>
      have hsame : old = kind := by simpa [hdef] using hkind
      exact .inr (hsame ▸ hx)
    | some defined =>
      have hsame : defined = kind := by simpa [hdef] using hkind
      exact DeclKind.handles_of_define? hdef x (hsame ▸ hx)
  · rw [if_neg hd] at hi
    exact ⟨kind, Array.mem_of_getElem? hi, fun x hx => .inr hx⟩

/-- What holds of every entry and of a new one holds of every entry after. -/
theorem forall_mem_push {α : Type} {p : α → Prop} {xs : Array α} {x : α} (h : ∀ y ∈ xs, p y)
    (hx : p x) : ∀ y ∈ xs.push x, p y := by
  intro y hy
  rcases Array.mem_push.mp hy with hy | rfl
  · exact h y hy
  · exact hx

namespace Context

/-- An effect whose handles have been issued keeps a context closed. -/
theorem Closed.apply {cx : Context} (hcx : cx.Closed) {e : Effect}
    (he : cx.AllIssued e.handles) : (e.apply cx).Closed := by
  have hold : cx.ClosedIn (e.apply cx) := hcx.later (e.precedes_apply cx)
  have hnew : (e.apply cx).AllIssued e.handles := he.later (e.precedes_apply cx)
  cases e with
  | spelling s | number => exact { hold with }
  | name kind => exact { hold with names := forall_mem_push hold.names hnew }
  | expr kind ty => exact { hold with exprs := forall_mem_push hold.exprs hnew }
  | stmt kind => exact { hold with stmts := forall_mem_push hold.stmts hnew }
  | decl kind => exact { hold with decls := forall_mem_push hold.decls hnew }
  | definition kind => exact { hold with defs := forall_mem_push hold.defs hnew }
  | requirement kind => exact { hold with reqs := forall_mem_push hold.reqs hnew }
  | type kind =>
    refine { hold with types := ?_ }
    rcases Interner.entries_intern cx.types.kinds kind with h | h
    · exact fun k hk => hold.types k (h ▸ hk)
    · exact fun k hk => forall_mem_push hold.types hnew k (h ▸ hk)
  | constraint kind =>
    cases h : cx.constraints.intern cx.arena kind with
    | error fault => simpa only [Effect.apply, h] using hcx
    | ok found =>
      obtain ⟨c, t⟩ := found
      simp only [Effect.apply, h] at hold hnew ⊢
      rcases ConstraintTable.intern_eq_ok h with ⟨rfl, _⟩ | ⟨key, hkey⟩
      · exact hcx
      · obtain ⟨rfl, rfl⟩ := Prod.mk.inj hkey
        exact { hold with constraints := forall_mem_push hold.constraints hnew }
  | link d body =>
    refine { hold with decls := fun k hk => ?_ }
    obtain ⟨old, hmem, hsub⟩ := Arena.mem_link hk
    intro x hx
    rcases hsub x hx with rfl | hx
    · exact hnew _ (by simp [Effect.handles])
    · exact hold.decls old hmem x hx

/-- The second context is reached from the first by effects with issued
handles. -/
inductive Grows (cx : Context) : Context → Prop
  | refl : cx.Grows cx
  | tail {cx' : Context} (h : cx.Grows cx') (e : Effect) (he : cx'.AllIssued e.handles) :
      cx.Grows (e.apply cx')

namespace Grows

variable {cx cx' cx'' : Context}

/-- One effect with issued handles is growth. -/
theorem single (e : Effect) (he : cx.AllIssued e.handles) : cx.Grows (e.apply cx) :=
  .tail .refl e he

/-- Growth after growth is growth. -/
theorem trans (h : cx.Grows cx') (k : cx'.Grows cx'') : cx.Grows cx'' := by
  induction k with
  | refl => exact h
  | tail _ e he ih => exact .tail ih e he

/-- Growth leads to later states. -/
theorem precedes (h : cx.Grows cx') : cx.Precedes cx' := by
  induction h with
  | refl => exact .refl cx
  | tail _ e _ ih => exact ih.trans (e.precedes_apply _)

/-- **Growth keeps contexts closed.** -/
theorem closed (h : cx.Grows cx') (hcx : cx.Closed) : cx'.Closed := by
  induction h with
  | refl => exact hcx
  | tail _ e he ih => exact ih.apply he

end Grows

end Context

end TermGraph
