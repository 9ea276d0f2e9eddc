import TermGraph.Proofs.Lists
import TermGraph.Proofs.Runs

/-!
# Types, fully unfolded

A stored type names its parts by handle.  A `TypeTree` is what a type says
with every handle of a type replaced by the tree of that type; declarations
stay handles, since a class type is named by its declaration.

`TypeTable.tree` unfolds a handle.  It looks at the stored kinds alone and
knows nothing of how types are found again, so equal trees are the measure for
what a table of unique types has to tell apart.

A table is *grounded* when the parts of every type are older than it is
(`TypeTable.Grounded`).  Growth keeps tables grounded, in a grounded table
every handle has a tree (`TypeTable.Grounded.tree_isSome`), and equal trees
come from equal handles (`TypeTable.eq_of_treeWithin`).
-/

namespace TermGraph

/-- The structure of a type with all its parts. -/
inductive TypeTree where
  | void
  | boolean
  | byte
  | integer (signed : Bool) (precision : Nat)
  | float
  | auto
  | decltype (expr : ExprId)
  | declauto
  | function (params : List TypeTree) (ret : TypeTree)
  | qualified (base : TypeTree) (quals : Qualifiers)
  | wrapped (wrapper : Wrapper) (ty : TypeTree)
  | array (elem : TypeTree) (extent : ExprId)
  | dynarray (elem : TypeTree) (extent : ExprId)
  | typename (decl : DeclId)
  | typeOfTypes
  | synthetic (decl : DeclId)
  | user (decl : DeclId)
  | union (decl : DeclId)
  | enum (decl : DeclId)

namespace TypeKind

/-- A kind with its parts replaced by their trees. -/
def expand (part : TypeId → Option TypeTree) : TypeKind → Option TypeTree
  | .void => some .void
  | .boolean => some .boolean
  | .byte => some .byte
  | .integer signed precision => some (.integer signed precision)
  | .float => some .float
  | .auto => some .auto
  | .decltype expr => some (.decltype expr)
  | .declauto => some .declauto
  | .function params ret => do return .function (← params.mapM part) (← part ret)
  | .qualified base quals => do return .qualified (← part base) quals
  | .wrapped wrapper ty => do return .wrapped wrapper (← part ty)
  | .array elem extent => do return .array (← part elem) extent
  | .dynarray elem extent => do return .dynarray (← part elem) extent
  | .typename d => some (.typename d)
  | .typeOfTypes => some .typeOfTypes
  | .synthetic d => some (.synthetic d)
  | .user d => some (.user d)
  | .union d => some (.union d)
  | .enum d => some (.enum d)

/-- The types that a type is made of. -/
def parts : TypeKind → List TypeId
  | .function params ret => ret :: params
  | .qualified base _ => [base]
  | .wrapped _ ty => [ty]
  | .array elem _ | .dynarray elem _ => [elem]
  | _ => []

end TypeKind

namespace TypeTable

/-- The tree of a type whose parts are nested less than `depth` deep. -/
def treeWithin (t : TypeTable) : Nat → TypeId → Option TypeTree
  | 0, _ => none
  | depth + 1, ty => do (← t.kinds.entries[ty.index]?).expand (t.treeWithin depth)

/-- The tree of a type.  No type is nested deeper than there are types. -/
def tree (t : TypeTable) (ty : TypeId) : Option TypeTree := t.treeWithin t.size ty

/-- The parts of every type are older than the type. -/
def Grounded (t : TypeTable) : Prop :=
  ∀ (i : Nat) (kind : TypeKind), t.kinds.entries[i]? = some kind → ∀ p ∈ kind.parts, p.index < i

end TypeTable

/-! ## One kind -/

/-- The kind at the root of a tree, with handles for the trees below it. -/
def TypeTree.root (handle : TypeTree → TypeId) : TypeTree → TypeKind
  | .void => .void
  | .boolean => .boolean
  | .byte => .byte
  | .integer signed precision => .integer signed precision
  | .float => .float
  | .auto => .auto
  | .decltype expr => .decltype expr
  | .declauto => .declauto
  | .function params ret => .function (params.map handle) (handle ret)
  | .qualified base quals => .qualified (handle base) quals
  | .wrapped wrapper ty => .wrapped wrapper (handle ty)
  | .array elem extent => .array (handle elem) extent
  | .dynarray elem extent => .dynarray (handle elem) extent
  | .typename d => .typename d
  | .typeOfTypes => .typeOfTypes
  | .synthetic d => .synthetic d
  | .user d => .user d
  | .union d => .union d
  | .enum d => .enum d

namespace TypeKind

variable {part : TypeId → Option TypeTree}

/-- A kind is read back from its tree if its parts are read back from theirs. -/
theorem root_of_expand {handle : TypeTree → TypeId} (h : ∀ x s, part x = some s → handle s = x)
    {kind : TypeKind} {s : TypeTree} (hs : kind.expand part = some s) : s.root handle = kind := by
  cases kind with
  | function params ret =>
    obtain ⟨ss, hss, hs⟩ := Option.bind_eq_some_iff.mp hs
    obtain ⟨t, ht, hs⟩ := Option.bind_eq_some_iff.mp hs
    cases hs
    rw [TypeTree.root, map_of_mapM_eq_some h hss, h _ _ ht]
  | qualified | wrapped | array | dynarray =>
    obtain ⟨t, ht, hs⟩ := Option.bind_eq_some_iff.mp hs
    cases hs
    rw [TypeTree.root, h _ _ ht]
  | _ =>
    cases hs
    rfl

/-- **Kinds with equal trees are equal** when parts with equal trees are. -/
theorem eq_of_expand (h : ∀ x y s, part x = some s → part y = some s → x = y) {j k : TypeKind}
    {s : TypeTree} (hj : j.expand part = some s) (hk : k.expand part = some s) : j = k := by
  classical
  -- A tree belongs to one part at most, so the part can be chosen from the tree.
  let handle : TypeTree → TypeId := fun s =>
    if hs : ∃ x, part x = some s then hs.choose else .void
  have hhandle : ∀ x s, part x = some s → handle s = x := by
    intro x s hx
    have hs : ∃ x, part x = some s := ⟨x, hx⟩
    simp only [handle, dif_pos hs]
    exact h _ _ _ hs.choose_spec hx
  rw [← root_of_expand hhandle hj, root_of_expand hhandle hk]

/-- A kind has a tree when its parts have. -/
theorem expand_isSome {kind : TypeKind} (h : ∀ p ∈ kind.parts, (part p).isSome) :
    (kind.expand part).isSome := by
  cases kind with
  | function params ret =>
    obtain ⟨t, ht⟩ := Option.isSome_iff_exists.mp (h ret (by simp [parts]))
    obtain ⟨ss, hss⟩ := Option.isSome_iff_exists.mp
      (mapM_isSome.mpr fun p hp => h p (List.mem_cons_of_mem _ hp))
    simp [expand, ht, hss]
  | qualified base | wrapped _ base | array base | dynarray base =>
    obtain ⟨t, ht⟩ := Option.isSome_iff_exists.mp (h base (by simp [parts]))
    simp [expand, ht]
  | _ => rfl

end TypeKind

/-! ## Tables -/

namespace TypeTable

variable {t : TypeTable}

/-- In a table of unique kinds, equal trees come from equal handles. -/
theorem eq_of_treeWithin {depth : Nat} {a b : TypeId} {s : TypeTree}
    (ha : t.treeWithin depth a = some s) (hb : t.treeWithin depth b = some s) : a = b := by
  induction depth generalizing a b s with
  | zero => cases ha
  | succ depth ih =>
      obtain ⟨j, hj, ha⟩ := Option.bind_eq_some_iff.mp ha
      obtain ⟨k, hk, hb⟩ := Option.bind_eq_some_iff.mp hb
      have hkinds : j = k := TypeKind.eq_of_expand (fun _ _ _ => ih) ha hb
      subst hkinds
      exact Handle.index_inj.mp (Interner.eq_of_getElem? hj hk)

/-- A tree is that of one handle only. -/
theorem tree_eq_some_iff {a b : TypeId} {s : TypeTree} (hb : t.tree b = some s) :
    t.tree a = some s ↔ a = b := by
  constructor
  · intro ha
    exact eq_of_treeWithin ha hb
  · rintro rfl
    exact hb

/-- In a grounded table a type is nested less deep than it is young. -/
theorem Grounded.treeWithin_isSome (ht : t.Grounded) {depth : Nat} {a : TypeId}
    (ha : a.index < depth) (hsize : a.index < t.size) : (t.treeWithin depth a).isSome := by
  induction depth generalizing a with
  | zero => omega
  | succ depth ih =>
      obtain ⟨kind, hkind⟩ : ∃ kind, t.kinds.entries[a.index]? = some kind :=
        ⟨_, Array.getElem?_eq_getElem hsize⟩
      have hparts : ∀ p ∈ kind.parts, (t.treeWithin depth p).isSome := by
        intro p hp
        have hlt := ht a.index kind hkind p hp
        exact ih (by omega) (by omega)
      simpa [treeWithin, hkind] using TypeKind.expand_isSome hparts

/-- **In a grounded table every type has a tree.** -/
theorem Grounded.tree_isSome (ht : t.Grounded) {a : TypeId} (ha : a.index < t.size) :
    (t.tree a).isSome :=
  ht.treeWithin_isSome ha ha

end TypeTable

/-- The parts of a type are among its handles. -/
theorem TypeKind.any_mem_handles {kind : TypeKind} {p : TypeId} (hp : p ∈ kind.parts) :
    p.any ∈ kind.handles := by
  cases kind <;> simp [parts] at hp <;> simp [handles, hp]
  next params ret =>
    rcases hp with rfl | hp
    · exact .inl rfl
    · exact .inr ⟨p, hp, rfl⟩

/-- A kind whose parts are in the table may be interned. -/
theorem TypeTable.Grounded.intern {t : TypeTable} (ht : t.Grounded) {kind : TypeKind}
    (hparts : ∀ p ∈ kind.parts, p.index < t.size) : (t.intern kind).2.Grounded := by
  rcases t.kinds.entries_intern kind with h | h
  · intro i k hk
    exact ht i k (h ▸ hk)
  · intro i k hk p hp
    replace hk : (t.kinds.entries.push kind)[i]? = some k := h ▸ hk
    rw [Array.getElem?_push] at hk
    by_cases hlast : i = t.kinds.entries.size
    · rw [if_pos hlast] at hk
      cases hk
      rw [hlast]
      exact hparts p hp
    · rw [if_neg hlast] at hk
      exact ht i k hk p hp

/-- Only interning a type changes the table of types. -/
theorem Effect.types_apply {cx : Context} {e : Effect} (he : ∀ kind, e ≠ .type kind) :
    (e.apply cx).types = cx.types := by
  cases e with
  | type kind => exact (he kind rfl).elim
  | constraint kind =>
    simp only [apply]
    split <;> rfl
  | _ => rfl

namespace Context

variable {cx cx' : Context}

/-- The predefined types mention no others. -/
theorem grounded_create (config : Config) (digest : List Nat → UInt64) :
    (create config digest).types.Grounded := by
  intro i kind hkind p hp
  have hmem : kind ∈ TypeTable.fresh.kinds.entries := Array.mem_of_getElem? hkind
  rw [TypeTable.entries_fresh] at hmem
  have hnone : kind.parts = [] := by
    rcases (by simpa using hmem : kind = .void ∨ kind = .boolean ∨ kind = .typeOfTypes) with
      rfl | rfl | rfl <;> rfl
  rw [hnone] at hp
  cases hp

/-- **Growth keeps the table of types grounded.** -/
theorem Grows.grounded (h : cx.Grows cx') (hcx : cx.types.Grounded) : cx'.types.Grounded := by
  induction h with
  | refl => exact hcx
  | @tail cx₁ _ e he ih =>
    by_cases htype : ∃ kind, e = .type kind
    · obtain ⟨kind, rfl⟩ := htype
      exact ih.intern fun p hp => he _ (TypeKind.any_mem_handles hp)
    · rw [Effect.types_apply fun kind hkind => htype ⟨kind, hkind⟩]
      exact ih

end Context

end TermGraph
