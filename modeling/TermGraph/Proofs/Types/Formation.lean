import TermGraph.Proofs.Stability
import TermGraph.Proofs.Types.Unfolding

/-!
# Formation of types

Not everything that could be written as a type is stored as one.  Each kind of
type has a request of its own that looks at what it is built over, and that is
the only request that stores it: qualifiers are merged with those already
there, a class type has to name a class, the type of a type parameter has to
name one, and types that depend on an expression are not built at all.

`cx.Forms kind` says that some request stores the kind at the context `cx`, in
the terms in which the request checks it.  `cx.FormedAt ty kind` says what that
comes to once the kind is stored at the handle `ty`.  Effects that store only
what requests form keep every stored type formed (`Context.Formed.apply`).

A declaration that a type names may later be given another definition; it
stays of its sort, since no effect changes the rest of a declaration.
-/

namespace TermGraph

/-- A declaration is a class. -/
def Context.IsClass (cx : Context) (d : DeclId) : Prop :=
  ∃ name ty body, cx.arena.decl d = .ok (.classType name ty body)

/-- A declaration is a type parameter. -/
def Context.IsTypeParm (cx : Context) (d : DeclId) : Prop :=
  ∃ index name default, cx.arena.decl d = .ok (.typeParm index name default)

/-- A stored type that has no qualifiers. -/
def Context.IsBare (cx : Context) (ty : TypeId) : Prop :=
  ∃ kind, cx.type ty = .ok kind ∧ ∀ inner held, kind ≠ .qualified inner held

/-- What the request that stores a kind of type has found out by then. -/
def Context.Forms (cx : Context) : TypeKind → Prop
  | .qualified base quals => ∃ ty held more, cx.splitQualifiers ty = .ok (base, held) ∧
      more.isEmpty = false ∧ quals = held.union more
  | .user d => cx.IsClass d
  | .typename d => cx.IsTypeParm d
  | .decltype _ | .array _ _ | .dynarray _ _ => False
  | _ => True

/-- What is true of a kind of type that is stored at a handle: qualifiers stand
around an older type that has none itself, a class type names a class, the type
of a type parameter names a type parameter, and there are no types that depend
on an expression. -/
def Context.FormedAt (cx : Context) (ty : TypeId) : TypeKind → Prop
  | .qualified base quals => quals.isEmpty = false ∧ base.index < ty.index ∧ cx.IsBare base
  | .user d => cx.IsClass d
  | .typename d => cx.IsTypeParm d
  | .decltype _ | .array _ _ | .dynarray _ _ => False
  | _ => True

/-- Every stored type is formed. -/
def Context.Formed (cx : Context) : Prop :=
  ∀ ty kind, cx.type ty = .ok kind → cx.FormedAt ty kind

/-! ## Sets of qualifiers -/

namespace Qualifiers

/-- A set that takes in a set with something in it has something in it. -/
theorem isEmpty_union {held more : Qualifiers} (h : more.isEmpty = false) :
    (held.union more).isEmpty = false := by
  rcases held with ⟨_ | _, _ | _⟩ <;> rcases more with ⟨_ | _, _ | _⟩ <;> first | rfl | cases h

/-- Adding to no qualifiers gives those added. -/
@[simp] theorem none_union (quals : Qualifiers) : none.union quals = quals := by
  rcases quals with ⟨_ | _, _ | _⟩ <;> rfl

end Qualifiers

namespace Context

variable {cx cx' : Context}

/-! ## Later states -/

/-- A class stays one. -/
theorem IsClass.later {d : DeclId} (h : cx.IsClass d) (hle : cx.Precedes cx') : cx'.IsClass d := by
  obtain ⟨name, ty, body, hd⟩ := h
  obtain ⟨kind', hd', hheader⟩ := hle.arena.decl hd
  cases kind' with
  | classType name' ty' body' => exact ⟨name', ty', body', hd'⟩
  | _ => cases hheader

/-- A type parameter stays one. -/
theorem IsTypeParm.later {d : DeclId} (h : cx.IsTypeParm d) (hle : cx.Precedes cx') :
    cx'.IsTypeParm d := by
  obtain ⟨index, name, default, hd⟩ := h
  obtain ⟨kind', hd', hheader⟩ := hle.arena.decl hd
  cases kind' with
  | typeParm index' name' default' => exact ⟨index', name', default', hd'⟩
  | _ => cases hheader

/-- A type without qualifiers stays one. -/
theorem IsBare.later {ty : TypeId} (h : cx.IsBare ty) (hle : cx.Precedes cx') : cx'.IsBare ty := by
  obtain ⟨kind, hkind, hplain⟩ := h
  exact ⟨kind, hle.type hkind, hplain⟩

/-- What is formed stays so. -/
theorem FormedAt.later {ty : TypeId} {kind : TypeKind} (h : cx.FormedAt ty kind)
    (hle : cx.Precedes cx') : cx'.FormedAt ty kind := by
  cases kind with
  | qualified base quals =>
    obtain ⟨hquals, holder, hbase⟩ := h
    exact ⟨hquals, holder, hbase.later hle⟩
  | user => exact IsClass.later h hle
  | typename => exact IsTypeParm.later h hle
  | decltype | array | dynarray => exact h.elim
  | _ => trivial

/-! ## Taking qualifiers off -/

/-- What is left of a type without its qualifiers is the type itself if it has
none, else the type that they stand around. -/
theorem splitQualifiers_eq_ok {ty base : TypeId} {quals : Qualifiers} :
    cx.splitQualifiers ty = .ok (base, quals) ↔
      cx.type ty = .ok (.qualified base quals) ∨ base = ty ∧ quals = .none ∧ cx.IsBare ty := by
  constructor
  · intro h
    obtain ⟨kind, hkind, h⟩ := bind_eq_ok.mp h
    cases kind with
    | qualified inner held =>
      cases h
      exact .inl hkind
    | _ =>
      cases h
      exact .inr ⟨rfl, rfl, _, hkind, nofun⟩
  · rintro (hkind | ⟨rfl, rfl, kind, hkind, hplain⟩)
    · rw [splitQualifiers, hkind]
      rfl
    · rw [splitQualifiers, hkind]
      cases kind with
      | qualified inner held => exact (hplain inner held rfl).elim
      | _ => rfl

/-- In a table of formed types the rest is stored, has no qualifiers and is no
younger than the type. -/
theorem Formed.splitQualifiers (hcx : cx.Formed) {ty base : TypeId} {quals : Qualifiers}
    (h : cx.splitQualifiers ty = .ok (base, quals)) :
    base.index ≤ ty.index ∧ ty.index < cx.types.size ∧ cx.IsBare base := by
  rcases splitQualifiers_eq_ok.mp h with hty | ⟨rfl, _, hbare⟩
  · obtain ⟨_, holder, hbase⟩ := hcx ty _ hty
    exact ⟨Nat.le_of_lt holder, lt_of_fetch hty, hbase⟩
  · have ⟨kind, hkind, _⟩ := hbare
    exact ⟨Nat.le_refl _, lt_of_fetch hkind, hbare⟩

/-! ## Storing a type -/

/-- A kind that some request forms is formed at a handle past all others. -/
theorem Forms.formedAt (hcx : cx.Formed) {kind : TypeKind} (h : cx.Forms kind) {ty : TypeId}
    (hty : ty.index = cx.types.size) : cx.FormedAt ty kind := by
  cases kind with
  | qualified base quals =>
    obtain ⟨outer, held, more, hsplit, hmore, rfl⟩ := h
    obtain ⟨holder, hstored, hbase⟩ := hcx.splitQualifiers hsplit
    exact ⟨Qualifiers.isEmpty_union hmore, by omega, hbase⟩
  | user | typename => exact h
  | decltype | array | dynarray => exact h.elim
  | _ => trivial

/-- A type that is in the table after an effect was there before, or it is the
one that was asked for, stored past all others. -/
theorem type_of_apply {e : Effect} {ty : TypeId} {kind : TypeKind}
    (h : (e.apply cx).type ty = .ok kind) :
    cx.type ty = .ok kind ∨ e = .type kind ∧ ty.index = cx.types.size := by
  by_cases htype : ∃ new, e = .type new
  · obtain ⟨new, rfl⟩ := htype
    have hfound : fetch (cx.types.kinds.intern new).2.entries ty.index = .ok kind := h
    rcases cx.types.kinds.entries_intern new with hsame | hpush
    · rw [hsame] at hfound
      exact .inl hfound
    · rw [hpush] at hfound
      rcases fetch_push_eq_ok hfound with hold | ⟨hlast, rfl⟩
      · exact .inl hold
      · exact .inr ⟨rfl, hlast⟩
  · have hsame : (e.apply cx).types = cx.types := Effect.types_apply fun new hnew => htype ⟨new, hnew⟩
    rw [Context.type, hsame] at h
    exact .inl h

/-- An effect keeps the stored types formed if some request forms the type that
it stores. -/
theorem Formed.apply (hcx : cx.Formed) {e : Effect} (hnew : ∀ kind, e = .type kind → cx.Forms kind) :
    (e.apply cx).Formed := by
  intro ty kind h
  have hle := e.precedes_apply cx
  rcases type_of_apply h with hold | ⟨heffect, hlast⟩
  · exact (hcx ty kind hold).later hle
  · exact ((hnew kind heffect).formedAt hcx hlast).later hle

/-- The types that every table starts with are formed. -/
theorem formed_create (config : Config) (digest : List Nat → UInt64) :
    (create config digest).Formed := by
  intro ty kind h
  have hmem : kind ∈ TypeTable.fresh.kinds.entries := Array.mem_of_getElem? (fetch_eq_ok.mp h)
  rw [TypeTable.entries_fresh] at hmem
  rcases (by simpa using hmem : kind = .void ∨ kind = .boolean ∨ kind = .typeOfTypes) with
    rfl | rfl | rfl <;> trivial

/-- **Taking qualifiers off and putting them on again.**  Where every stored type
is formed, the type without its qualifiers has none, and qualifying it by those
taken off gives the type back and stores nothing. -/
theorem Formed.requalify (hcx : cx.Formed) {ty : TypeId} {kind : TypeKind}
    (hty : cx.type ty = .ok kind) :
    ∃ base quals, cx.splitQualifiers ty = .ok (base, quals) ∧ cx.IsBare base ∧
      (Build.qualifiedType base quals).runOn cx = (.ok ty, cx) := by
  by_cases hqualified : ∃ base quals, kind = .qualified base quals
  · obtain ⟨base, quals, rfl⟩ := hqualified
    have hsplit : cx.splitQualifiers ty = .ok (base, quals) := splitQualifiers_eq_ok.mpr (.inl hty)
    obtain ⟨hquals, _, hbare⟩ := hcx ty _ hty
    refine ⟨base, quals, hsplit, hbare, ?_⟩
    -- the base has no qualifiers to be merged, so the same kind is asked for
    have hbase : cx.splitQualifiers base = .ok (base, .none) :=
      splitQualifiers_eq_ok.mpr (.inr ⟨rfl, rfl, hbare⟩)
    rw [Build.qualifiedType, hquals, if_neg Bool.false_ne_true, Build.runOn_read_bind hbase]
    show (Build.internType (.qualified base (Qualifiers.none.union quals))).runOn cx = _
    rw [Qualifiers.none_union]
    exact Build.internType_of_type hty
  · have hbare : cx.IsBare ty := ⟨kind, hty, fun inner held heq => hqualified ⟨inner, held, heq⟩⟩
    have hsplit : cx.splitQualifiers ty = .ok (ty, .none) :=
      splitQualifiers_eq_ok.mpr (.inr ⟨rfl, rfl, hbare⟩)
    exact ⟨ty, .none, hsplit, hbare, rfl⟩

end Context

end TermGraph
