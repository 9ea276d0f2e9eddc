import Mathlib.Data.List.Forall2
import TermGraph.Proofs.Handles

/-!
# How contexts grow

Whatever is asked of a context, it changes by a sequence of small *effects*:
an entry at the end of one table, a definition put into the slot of one
declaration, the next made-up number (`Effect.apply`).  Everything a request
can do to a context is one of these, so a property of contexts that every
effect keeps is kept by every run.

Effects only add.  `cx.Precedes cx'` says that every table of `cx` is a
beginning of that of `cx'`, declarations compared without their definitions
(`DeclKind.header`).  Then

* `Effect.precedes_apply` — every effect leads to a later state;
* `Context.Issued.later` — what has been issued stays issued.
-/

namespace TermGraph

/-! ## Effects -/

inductive Effect where
  | spelling (s : String)
  | name (kind : NameKind)
  | expr (kind : ExprKind) (ty : TypeId)
  | stmt (kind : StmtKind)
  | decl (kind : DeclKind)
  | definition (kind : DefKind)
  | requirement (kind : ReqKind)
  | type (kind : TypeKind)
  | constraint (kind : ConstraintKind)
  /-- A definition takes the place of the one that the declaration had. -/
  | link (decl : DeclId) (body : DefId)
  /-- A number is used up for a made-up name. -/
  | number
  deriving DecidableEq, Inhabited

/-- Put a definition into the slot of a declaration that has one. -/
def Arena.link (a : Arena) (d : DeclId) (body : DefId) : Arena :=
  { a with decls := a.decls.modify d.index fun kind => (kind.define? body).getD kind }

namespace Effect

/-- The context after an effect. -/
def apply (cx : Context) : Effect → Context
  | .spelling s => { cx with symbols := (cx.symbols.intern s).2 }
  | .name kind => { cx with arena := (cx.arena.pushName kind).2 }
  | .expr kind ty => { cx with arena := (cx.arena.pushExpr kind ty).2 }
  | .stmt kind => { cx with arena := (cx.arena.pushStmt kind).2 }
  | .decl kind => { cx with arena := (cx.arena.pushDecl kind).2 }
  | .definition kind => { cx with arena := (cx.arena.pushDef kind).2 }
  | .requirement kind => { cx with arena := (cx.arena.pushReq kind).2 }
  | .type kind => { cx with types := (cx.types.intern kind).2 }
  | .constraint kind =>
    match cx.constraints.intern cx.arena kind with
    | .ok (_, constraints) => { cx with constraints }
    | .error _ => cx
  | .link d body => { cx with arena := cx.arena.link d body }
  | .number => { cx with nextPlaceholder := cx.nextPlaceholder + 1 }

def handles : Effect → List AnyHandle
  | .spelling _ | .number => []
  | .name kind => kind.handles
  | .expr kind ty => ty.any :: kind.handles
  | .stmt kind => kind.handles
  | .decl kind => kind.handles
  | .definition kind => kind.handles
  | .requirement kind => kind.handles
  | .type kind => kind.handles
  | .constraint kind => kind.handles
  | .link d body => [d.any, body.any]

end Effect

/-! ## Later states -/

/-- The declaration with its definition forgotten. -/
def DeclKind.header (kind : DeclKind) : DeclKind := (kind.define? .empty).getD kind

/-- Another definition does not change the rest of a declaration. -/
theorem DeclKind.header_of_define? {body : DefId} {kind defined : DeclKind}
    (h : kind.define? body = some defined) : defined.header = kind.header := by
  cases kind <;> simp [define?] at h <;> subst h <;> rfl

/-- Whatever definition is put in, the rest of the declaration stays, also where
none can be. -/
theorem DeclKind.header_getD_define? (body : DefId) (kind : DeclKind) :
    ((kind.define? body).getD kind).header = kind.header := by
  cases h : kind.define? body with
  | none => rfl
  | some defined => exact header_of_define? h

/-- Every table of the first arena is a beginning of that of the second. -/
structure Arena.Precedes (a b : Arena) : Prop where
  names : a.names.toList <+: b.names.toList
  exprs : a.exprs.toList <+: b.exprs.toList
  stmts : a.stmts.toList <+: b.stmts.toList
  decls : a.decls.toList.map DeclKind.header <+: b.decls.toList.map DeclKind.header
  defs : a.defs.toList <+: b.defs.toList
  reqs : a.reqs.toList <+: b.reqs.toList

theorem Arena.Precedes.refl (a : Arena) : a.Precedes a := by
  constructor <;> exact List.prefix_refl _

/-- Arenas precede one another along a run. -/
theorem Arena.Precedes.trans {a b c : Arena} (h : a.Precedes b) (k : b.Precedes c) :
    a.Precedes c :=
  ⟨h.names.trans k.names, h.exprs.trans k.exprs, h.stmts.trans k.stmts, h.decls.trans k.decls,
    h.defs.trans k.defs, h.reqs.trans k.reqs⟩

/-- Every table of the first context is a beginning of that of the second. -/
structure Context.Precedes (cx cx' : Context) : Prop where
  config : cx'.config = cx.config
  spellings : cx.symbols.spellings.entries.toList <+: cx'.symbols.spellings.entries.toList
  arena : cx.arena.Precedes cx'.arena
  types : cx.types.kinds.entries.toList <+: cx'.types.kinds.entries.toList
  constraints : cx.constraints.kinds.toList <+: cx'.constraints.kinds.toList
  digest : cx'.constraints.digest = cx.constraints.digest
  nextPlaceholder : cx.nextPlaceholder ≤ cx'.nextPlaceholder

theorem Context.Precedes.refl (cx : Context) : cx.Precedes cx :=
  ⟨rfl, List.prefix_refl _, .refl _, List.prefix_refl _, List.prefix_refl _, rfl, Nat.le_refl _⟩

/-- Contexts precede one another along a run. -/
theorem Context.Precedes.trans {cx cx' cx'' : Context} (h : cx.Precedes cx')
    (k : cx'.Precedes cx'') : cx.Precedes cx'' :=
  ⟨k.config.trans h.config, h.spellings.trans k.spellings, h.arena.trans k.arena,
    h.types.trans k.types, h.constraints.trans k.constraints, k.digest.trans h.digest,
    Nat.le_trans h.nextPlaceholder k.nextPlaceholder⟩

/-- A table has an entry at every index within, and nowhere else. -/
theorem exists_fetch {α : Type} {table : Array α} {index : Nat} (h : index < table.size) :
    ∃ entry, fetch table index = .ok entry :=
  ⟨_, fetch_eq_ok.mpr (Array.getElem?_eq_getElem h)⟩

/-- What is read lies inside its table. -/
theorem lt_of_fetch {α : Type} {table : Array α} {index : Nat} {entry : α}
    (h : fetch table index = .ok entry) : index < table.size :=
  (Array.getElem?_eq_some_iff.mp (fetch_eq_ok.mp h)).1

/-- What a table has, a table that continues it has too. -/
theorem fetch_later {α : Type} {table table' : Array α} {index : Nat} {entry : α}
    (hle : table.toList <+: table'.toList) (h : fetch table index = .ok entry) :
    fetch table' index = .ok entry := by
  rw [fetch_eq_ok] at h ⊢
  rw [← Array.getElem?_toList] at h ⊢
  obtain ⟨rest, hrest⟩ := hle
  have hlt : index < table.toList.length := (List.getElem?_eq_some_iff.mp h).1
  rw [← hrest, List.getElem?_append_left hlt]
  exact h

/-- A declaration is later the same but for its definition. -/
theorem Arena.Precedes.decl {a b : Arena} (hle : a.Precedes b) {d : DeclId} {kind : DeclKind}
    (h : a.decl d = .ok kind) : ∃ kind', b.decl d = .ok kind' ∧ kind'.header = kind.header := by
  have hhead : (a.decls.map DeclKind.header)[d.index]? = some kind.header := by
    simp [fetch_eq_ok.mp h]
  have hlater : fetch (b.decls.map DeclKind.header) d.index = .ok kind.header :=
    fetch_later (by simpa using hle.decls) (fetch_eq_ok.mpr hhead)
  simpa [fetch_eq_ok, Arena.decl] using hlater

/-- What has been issued stays issued. -/
theorem Context.Issued.later {cx cx' : Context} (hle : cx.Precedes cx') {c : Category}
    {h : Handle c} (hissued : cx.Issued h) : cx'.Issued h := by
  have hcount : cx.count c ≤ cx'.count c := by
    cases c with
    | name => simpa [count] using hle.arena.names.length_le
    | type => simpa [count, TypeTable.size, Interner.size] using hle.types.length_le
    | expr => simpa [count] using hle.arena.exprs.length_le
    | stmt => simpa [count] using hle.arena.stmts.length_le
    | decl => simpa [count] using hle.arena.decls.length_le
    | definition => simpa [count] using hle.arena.defs.length_le
    | requirement => simpa [count] using hle.arena.reqs.length_le
    | constraint => simpa [count, ConstraintTable.size] using hle.constraints.length_le
  exact Nat.lt_of_lt_of_le hissued hcount

/-- Handles that have all been issued stay so. -/
theorem Context.AllIssued.later {cx cx' : Context} (hle : cx.Precedes cx') {hs : List AnyHandle}
    (hissued : cx.AllIssued hs) : cx'.AllIssued hs :=
  fun h hh => (hissued h hh).later hle

/-! ## Effects only add -/

/-- Two steps in a row succeed when both do. -/
theorem bind_eq_ok {α β : Type} {x : Except Fault α} {f : α → Except Fault β} {b : β} :
    x >>= f = .ok b ↔ ∃ a, x = .ok a ∧ f a = .ok b := by
  cases x <;> simp [bind, Except.bind]

/-- Two steps in a row fail when one of them does. -/
theorem bind_eq_error {α β : Type} {x : Except Fault α} {f : α → Except Fault β} {fault : Fault} :
    x >>= f = .error fault ↔ x = .error fault ∨ ∃ a, x = .ok a ∧ f a = .error fault := by
  cases x <;> simp [bind, Except.bind]

/-- What is done to an answer does not make it fail. -/
theorem map_eq_ok {α β : Type} {x : Except Fault α} {f : α → β} {b : β} :
    f <$> x = .ok b ↔ ∃ a, x = .ok a ∧ f a = b := by
  cases x <;> simp [Functor.map, Except.map]

/-- A list is read when its entries are, one by one. -/
theorem mapM_eq_ok {α β : Type} {f : α → Except Fault β} {xs : List α} {ys : List β} :
    xs.mapM f = .ok ys ↔ List.Forall₂ (fun x y => f x = .ok y) xs ys := by
  induction xs generalizing ys with
  | nil => cases ys <;> simp [pure, Except.pure]
  | cons x xs ih =>
    rw [List.mapM_cons, bind_eq_ok]
    cases ys with
    | nil => simp [bind_eq_ok, pure, Except.pure]
    | cons y ys => simp [bind_eq_ok, pure, Except.pure, ← ih]

/-- A constraint that is found is in the table, and alike the one asked for. -/
theorem ConstraintTable.firstAlike_eq_some {t : ConstraintTable} {a : Arena}
    {kind : ConstraintKind} {listed : List ConsId} {c : ConsId}
    (h : t.firstAlike a kind listed = .ok (some c)) :
    c ∈ listed ∧ ∃ stored, t.kind c = .ok stored ∧ a.constraintsAlike stored kind = .ok true := by
  induction listed with
  | nil => cases h
  | cons first rest ih =>
      unfold firstAlike at h
      obtain ⟨stored, hstored, h⟩ := bind_eq_ok.mp h
      obtain ⟨alike, halike, h⟩ := bind_eq_ok.mp h
      cases alike with
      | false =>
        obtain ⟨hmem, hfound⟩ := ih h
        exact ⟨List.mem_cons_of_mem _ hmem, hfound⟩
      | true =>
        cases h
        exact ⟨List.mem_cons_self, stored, hstored, halike⟩

/-- A constraint is found or filed: the table is left alone or grows by it. -/
theorem ConstraintTable.intern_eq_ok {t t' : ConstraintTable} {a : Arena} {kind : ConstraintKind}
    {c : ConsId} (h : t.intern a kind = .ok (c, t')) :
    (t' = t ∧ c.index < t.size) ∨ ∃ key, (c, t') = t.insert key kind := by
  obtain ⟨words, _, h⟩ := bind_eq_ok.mp h
  obtain ⟨found, hfound, h⟩ := bind_eq_ok.mp h
  cases found with
  | none => exact .inr ⟨_, (Except.ok.inj h).symm⟩
  | some c' =>
    cases h
    obtain ⟨_, stored, hstored, _⟩ := firstAlike_eq_some hfound
    exact .inl ⟨rfl, lt_of_fetch hstored⟩

/-- Interning appends at most. -/
theorem Interner.prefix_intern {κ : Type} [Ord κ] [Std.TransOrd κ] [Std.LawfulEqOrd κ]
    (t : Interner κ) (k : κ) : t.entries.toList <+: (t.intern k).2.entries.toList := by
  rcases t.entries_intern k with h | h
  · exact h ▸ List.prefix_rfl
  · simp [h]

/-- Linking a definition leaves every header as it was. -/
theorem Arena.precedes_link (a : Arena) (d : DeclId) (body : DefId) :
    a.Precedes (a.link d body) := by
  refine ⟨List.prefix_rfl, List.prefix_rfl, List.prefix_rfl, ?_, List.prefix_rfl, List.prefix_rfl⟩
  have hsame : (a.link d body).decls.toList.map DeclKind.header
      = a.decls.toList.map DeclKind.header := by
    apply List.ext_getElem?
    intro i
    simp only [link, Array.toList_modify, List.getElem?_map, List.getElem?_modify]
    cases a.decls.toList[i]? with
    | none => rfl
    | some kind => by_cases hi : d.index = i <;> simp [hi, DeclKind.header_getD_define?]
  exact hsame ▸ List.prefix_rfl

/-- Overwriting a declaration by itself with another definition is linking. -/
theorem Arena.setDecl_eq_link {a : Arena} {d : DeclId} {body : DefId} {kind defined : DeclKind}
    (hkind : a.decl d = .ok kind) (hdef : kind.define? body = some defined) :
    a.setDecl d defined = .ok (a.link d body) := by
  have hdecls : a.decls.setIfInBounds d.index defined = (a.link d body).decls := by
    apply Array.ext_getElem?
    intro i
    have hget := fetch_eq_ok.mp hkind
    have hlt : d.index < a.decls.size := (Array.getElem?_eq_some_iff.mp hget).1
    rw [link, Array.getElem?_modify, Array.getElem?_setIfInBounds]
    by_cases hi : d.index = i
    · subst hi
      simp only [if_true, hlt, hget, Option.map_some, hdef, Option.getD_some]
    · simp [hi]
  simp only [setDecl, hkind, Functor.map, Except.map, hdecls]
  rfl

/-- Changes to the arena alone. -/
theorem Context.precedes_arena {cx : Context} {a : Arena} (h : cx.arena.Precedes a) :
    cx.Precedes { cx with arena := a } :=
  { Context.Precedes.refl cx with arena := h }

/-- Every effect leads to a later state. -/
theorem Effect.precedes_apply (cx : Context) (e : Effect) : cx.Precedes (e.apply cx) := by
  cases e with
  | spelling s =>
    exact { Context.Precedes.refl cx with spellings := Interner.prefix_intern _ s }
  | name kind | expr kind ty | stmt kind | decl kind | definition kind | requirement kind =>
    refine Context.precedes_arena ?_
    constructor <;> simp [Arena.pushName, Arena.pushExpr, Arena.pushStmt, Arena.pushDecl,
      Arena.pushDef, Arena.pushReq]
  | type kind => exact { Context.Precedes.refl cx with types := Interner.prefix_intern _ kind }
  | constraint kind =>
    simp only [apply]
    cases h : cx.constraints.intern cx.arena kind with
    | error fault => exact .refl cx
    | ok found =>
      obtain ⟨c, t⟩ := found
      rcases ConstraintTable.intern_eq_ok h with ⟨rfl, _⟩ | ⟨key, hkey⟩
      · exact .refl cx
      · obtain ⟨rfl, rfl⟩ := Prod.mk.inj hkey
        exact { Context.Precedes.refl cx with constraints := by simp }
  | link d body => exact Context.precedes_arena (Arena.precedes_link _ d body)
  | number => exact { Context.Precedes.refl cx with nextPlaceholder := Nat.le_succ _ }

/-! ## What an effect adds -/

/-- An entry after a push was there before or is the one pushed. -/
theorem fetch_push_eq_ok {α : Type} {table : Array α} {new entry : α} {index : Nat}
    (h : fetch (table.push new) index = .ok entry) :
    fetch table index = .ok entry ∨ index = table.size ∧ entry = new := by
  rw [fetch_eq_ok, Array.getElem?_push] at h
  rw [fetch_eq_ok]
  by_cases hi : index = table.size
  · exact .inr ⟨hi, by simpa [hi, eq_comm] using h⟩
  · exact .inl (by simpa [hi] using h)

/-- What is pushed is found at the size that the table had. -/
theorem fetch_push_size {α : Type} (table : Array α) (entry : α) :
    fetch (table.push entry) table.size = .ok entry :=
  fetch_eq_ok.mpr Array.getElem?_push_size

namespace Effect

variable {cx : Context} {e : Effect}

/-- A name was there before, or it is what was stored. -/
theorem name_apply {n : NameId} {kind : NameKind} (h : (e.apply cx).arena.name n = .ok kind) :
    cx.arena.name n = .ok kind ∨ e = .name kind := by
  cases e with
  | name new =>
    rcases fetch_push_eq_ok h with hold | ⟨_, rfl⟩
    · exact .inl hold
    · exact .inr rfl
  | constraint new =>
    simp only [apply] at h
    split at h <;> exact .inl h
  | _ => exact .inl h

/-- An expression that is read after an effect was there before, or the effect
stored it. -/
theorem expr_apply {x : ExprId} {found : Expr} (h : (e.apply cx).arena.expr x = .ok found) :
    cx.arena.expr x = .ok found ∨ e = .expr found.kind found.ty := by
  cases e with
  | expr kind ty =>
    rcases fetch_push_eq_ok h with hold | ⟨_, rfl⟩
    · exact .inl hold
    · exact .inr rfl
  | constraint new =>
    simp only [apply] at h
    split at h <;> exact .inl h
  | _ => exact .inl h

/-- A requirement that is read after an effect was there before, or the effect
stored it. -/
theorem req_apply {r : ReqId} {kind : ReqKind} (h : (e.apply cx).arena.req r = .ok kind) :
    cx.arena.req r = .ok kind ∨ e = .requirement kind := by
  cases e with
  | requirement new =>
    rcases fetch_push_eq_ok h with hold | ⟨_, rfl⟩
    · exact .inl hold
    · exact .inr rfl
  | constraint new =>
    simp only [apply] at h
    split at h <;> exact .inl h
  | _ => exact .inl h

/-- A constraint was there before, or it is what was interned and one more. -/
theorem constraint_apply {c : ConsId} {kind : ConstraintKind}
    (h : (e.apply cx).constraint c = .ok kind) :
    cx.constraint c = .ok kind ∨
      e = .constraint kind ∧ (e.apply cx).constraints.size = cx.constraints.size + 1 := by
  cases e with
  | constraint new =>
    cases hintern : cx.constraints.intern cx.arena new with
    | error fault =>
      simp only [apply, hintern] at h
      exact .inl h
    | ok found =>
      obtain ⟨c', t⟩ := found
      simp only [apply, hintern] at h ⊢
      rcases ConstraintTable.intern_eq_ok hintern with ⟨rfl, _⟩ | ⟨key, hkey⟩
      · exact .inl h
      · obtain ⟨rfl, rfl⟩ := Prod.mk.inj hkey
        rcases fetch_push_eq_ok h with hold | ⟨_, rfl⟩
        · exact .inl hold
        · exact .inr ⟨rfl, by simp [ConstraintTable.size]⟩
  | _ => exact .inl h

end Effect

end TermGraph
