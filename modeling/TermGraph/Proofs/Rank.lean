import TermGraph.Proofs.Constraint.Filed
import TermGraph.Proofs.Frame

/-!
# Nodes in the order of their birth

A graph can have cycles: a function is declared, its body mentions it, and the
declaration is then linked to the body.  Every cycle goes through the slot of a
declaration, though, since what else is in a node was there before the node.

So there is a rank on nodes of all categories that every mention lowers, the
slots of declarations apart (`Context.Ranked`).  It is the order of birth: what
is not yet there is put above everything that is (`Context.Ranked.apply`).  By
induction over growth every context asked only about its own handles has such
a rank (`Context.Grows.rankable`), and filling slots leaves it a rank
(`Context.Ranked.relink`).

Within one category the rank goes with the index.  That is what turns a walk
through several tables, lower in rank at every step, into a bound on how often
it can come back to one of them.
-/

namespace TermGraph

open List

/-! ## What nodes mention -/

/-- The handles in a node of any category. -/
def Category.handlesOf : (c : Category) → c.Node → List AnyHandle
  | .name, kind => kind.handles
  | .type, kind => kind.handles
  | .expr, x => x.handles
  | .stmt, kind => kind.handles
  | .decl, kind => kind.handles
  | .definition, kind => kind.handles
  | .requirement, kind => kind.handles
  | .constraint, kind => kind.handles

/-- The handles in a node, those of definitions apart: only declarations have
any, in their slots. -/
def Category.mentions (c : Category) (node : c.Node) : List AnyHandle :=
  (c.handlesOf node).filter fun h => h.1 ≠ .definition

/-- Declarations with one header mention the same. -/
theorem DeclKind.mentions_of_header_eq {kind kind' : DeclKind} (h : kind'.header = kind.header) :
    Category.decl.mentions kind' = Category.decl.mentions kind := by
  have hheader : ∀ kind : DeclKind,
      Category.decl.mentions kind.header = Category.decl.mentions kind := by
    intro kind
    cases kind <;> simp [header, define?, Category.mentions, Category.handlesOf, handles, Handle.any]
  exact congr_header hheader h

/-- What an effect stores mentions nothing but handles of the effect. -/
theorem Effect.handlesOf_of_node? {e : Effect} {c : Category} {node : c.Node}
    (h : e.node? = some ⟨c, node⟩) : c.handlesOf node = e.handles := by
  cases e <;> cases h <;> rfl

namespace Context

variable {cx cx' : Context} {c : Category}

/-! ## Nodes and handles -/

/-- A handle names a node exactly when it has been issued. -/
theorem issued_iff_node {id : Handle c} : cx.Issued id ↔ ∃ node, cx.node id = .ok node := by
  constructor
  · intro h
    cases c <;> exact exists_fetch h
  · rintro ⟨node, h⟩
    cases c <;> exact lt_of_fetch h

/-- In a closed context nodes hold issued handles. -/
theorem Closed.node (hcx : cx.Closed) {id : Handle c} {node : c.Node} (h : cx.node id = .ok node) :
    cx.AllIssued (c.handlesOf node) := by
  cases c with
  | name => exact hcx.names _ (mem_of_fetch h)
  | type => exact hcx.types _ (mem_of_fetch h)
  | expr => exact hcx.exprs _ (mem_of_fetch h)
  | stmt => exact hcx.stmts _ (mem_of_fetch h)
  | decl => exact hcx.decls _ (mem_of_fetch h)
  | definition => exact hcx.defs _ (mem_of_fetch h)
  | requirement => exact hcx.reqs _ (mem_of_fetch h)
  | constraint => exact hcx.constraints _ (mem_of_fetch h)

/-- A node is there later and mentions the same. -/
theorem Precedes.mentions (hle : cx.Precedes cx') {id : Handle c} {node : c.Node}
    (h : cx.node id = .ok node) :
    ∃ node', cx'.node id = .ok node' ∧ c.mentions node' = c.mentions node := by
  by_cases hc : c = .decl
  · subst hc
    obtain ⟨kind', hkind', hheader⟩ := hle.arena.decl h
    exact ⟨kind', hkind', DeclKind.mentions_of_header_eq hheader⟩
  · exact ⟨node, hle.node hc h, rfl⟩

/-- A node that is there after an effect was there before and mentioned the same,
or it is the one that the effect stored. -/
theorem node_of_apply {e : Effect} {id : Handle c} {node : c.Node}
    (h : (e.apply cx).node id = .ok node) :
    (∃ old, cx.node id = .ok old ∧ c.mentions node = c.mentions old) ∨
      id.index = cx.count c ∧ e.node? = some ⟨c, node⟩ := by
  by_cases hold : cx.Issued id
  · obtain ⟨old, hread⟩ := issued_iff_node.mp hold
    obtain ⟨later, hlater, hsame⟩ := (e.precedes_apply cx).mentions hread
    obtain rfl := Except.ok.inj (hlater.symm.trans h)
    exact .inl ⟨old, hread, hsame⟩
  · -- the handle is new, so it is the one that was allotted
    have hissued : id.index < (e.apply cx).count c := issued_iff_node.mpr ⟨node, h⟩
    have hnot : cx.count c ≤ id.index := Nat.le_of_not_lt hold
    rcases cx.allots e c with hsame | ⟨hcount, stored, hstored, hread⟩
    · omega
    · have hid : id.index = cx.count c := by omega
      obtain rfl : id = ⟨cx.count c⟩ := Handle.index_inj.mp hid
      obtain rfl := Except.ok.inj (hread.symm.trans h)
      exact .inr ⟨rfl, hstored⟩

/-- An effect that stores no node issues no handle. -/
theorem issued_of_apply {e : Effect} (he : e.node? = none) {id : Handle c}
    (h : (e.apply cx).Issued id) : cx.Issued id := by
  rcases cx.allots e c with hsame | ⟨_, stored, hstored, _⟩
  · rw [Issued, hsame] at h
    exact h
  · rw [he] at hstored
    cases hstored

/-! ## Ranks -/

/-- Whatever a node mentions is of a lower rank than the node, and within a
category older nodes are of lower ranks. -/
structure Ranked (cx : Context) (rank : AnyHandle → Nat) : Prop where
  down : ∀ (c : Category) (id : Handle c) (node : c.Node), cx.node id = .ok node →
    ∀ h ∈ c.mentions node, rank h < rank id.any
  mono : ∀ (c : Category) (g h : Handle c), g.index < h.index → cx.Issued h →
    rank g.any < rank h.any

/-- The rank with everything put at the bound that is not there yet. -/
def lastBorn (cx : Context) (rank : AnyHandle → Nat) (bound : Nat) (x : AnyHandle) : Nat :=
  if cx.Issued x.2 then rank x else bound

/-- What is there keeps its rank. -/
theorem lastBorn_of_issued {rank : AnyHandle → Nat} {bound : Nat} {id : Handle c}
    (h : cx.Issued id) : cx.lastBorn rank bound id.any = rank id.any :=
  if_pos h

/-- What is not there yet is put at the bound. -/
theorem lastBorn_of_not_issued {rank : AnyHandle → Nat} {bound : Nat} {id : Handle c}
    (h : ¬ cx.Issued id) : cx.lastBorn rank bound id.any = bound :=
  if_neg h

namespace Ranked

variable {rank : AnyHandle → Nat}

/-- A rank of a later context is one of every context before. -/
theorem earlier (h : cx'.Ranked rank) (hle : cx.Precedes cx') : cx.Ranked rank where
  down c id node hread x hx := by
    obtain ⟨later, hlater, hsame⟩ := hle.mentions hread
    exact h.down c id later hlater x (hsame ▸ hx)
  mono c x y hlt hy := h.mono c x y hlt (hy.later hle)

/-- Where one handle of a category is of lower rank than another, it is older. -/
theorem older (h : cx.Ranked rank) {x y : Handle c} (hx : cx.Issued x)
    (hlt : rank x.any < rank y.any) : x.index < y.index := by
  by_contra hle
  rcases Nat.lt_or_eq_of_le (Nat.le_of_not_lt hle) with hyx | heq
  · have hrank := h.mono c y x hyx hx
    omega
  · obtain rfl := Handle.index_inj.mp heq
    exact Nat.lt_irrefl _ hlt

/-- An effect that stores no node leaves the rank. -/
theorem apply_of_node? (h : cx.Ranked rank) {e : Effect} (he : e.node? = none) :
    (e.apply cx).Ranked rank where
  down c id node hread x hx := by
    rcases node_of_apply hread with ⟨old, hold, hsame⟩ | ⟨_, hnew⟩
    · exact h.down c id old hold x (hsame ▸ hx)
    · rw [he] at hnew
      cases hnew
  mono c x y hlt hy := h.mono c x y hlt (issued_of_apply he hy)

/-- **Ranks do not depend on definitions.**  Whatever is linked to what, a rank
stays one. -/
theorem relink (h : cx.Ranked rank) (slots : List (DeclId × DefId)) :
    (cx.after (slots.map fun slot => .link slot.1 slot.2)).Ranked rank := by
  induction slots generalizing cx with
  | nil => exact h
  | cons slot rest ih =>
    have hlink : ((Effect.link slot.1 slot.2).apply cx).Ranked rank := h.apply_of_node? rfl
    exact ih hlink

/-- **Birth.**  With a rank below which everything stands that is there, an effect
whose handles have been issued leads to a context with such a rank: what was
not there comes last. -/
theorem apply (h : cx.Ranked rank) (hcx : cx.Closed) {bound : Nat}
    (hbound : ∀ (c : Category) (id : Handle c), cx.Issued id → rank id.any < bound) {e : Effect}
    (he : cx.AllIssued e.handles) :
    (e.apply cx).Ranked (cx.lastBorn rank bound) where
  down c id node hread x hx := by
    rcases node_of_apply hread with ⟨old, hold, hsame⟩ | ⟨hid, hnew⟩
    · rw [hsame] at hx
      have hissued : cx.Issued id := issued_iff_node.mpr ⟨old, hold⟩
      have hmentioned : cx.Issued x.2 := hcx.node hold x (mem_of_mem_filter hx)
      have hlower : rank x < rank id.any := h.down c id old hold x hx
      calc cx.lastBorn rank bound x
          = rank x := lastBorn_of_issued hmentioned
        _ < rank id.any := hlower
        _ = cx.lastBorn rank bound id.any := (lastBorn_of_issued hissued).symm
    · have hnot : ¬ cx.Issued id := by
        intro hissued
        have hlt : id.index < cx.count c := hissued
        omega
      have hmentioned : cx.Issued x.2 :=
        he x (Effect.handlesOf_of_node? hnew ▸ mem_of_mem_filter hx)
      calc cx.lastBorn rank bound x
          = rank x := lastBorn_of_issued hmentioned
        _ < bound := hbound x.1 x.2 hmentioned
        _ = cx.lastBorn rank bound id.any := (lastBorn_of_not_issued hnot).symm
  mono c x y hlt hy := by
    by_cases hissued : cx.Issued y
    · have hx : cx.Issued x := Nat.lt_trans hlt hissued
      rw [lastBorn_of_issued hx, lastBorn_of_issued hissued]
      exact h.mono c x y hlt hissued
    · have hy' : y.index < (e.apply cx).count c := hy
      have hcount : (e.apply cx).count c ≤ cx.count c + 1 := by
        rcases cx.allots e c with hsame | ⟨hmore, _⟩
        · omega
        · omega
      have hx : cx.Issued x := show x.index < cx.count c by omega
      rw [lastBorn_of_issued hx, lastBorn_of_not_issued hissued]
      exact hbound c x hx

end Ranked

/-- A context that nothing was asked of yet has three nodes of a category at
most. -/
theorem count_create_le (config : Config) (digest : List Nat → UInt64) (c : Category) :
    (create config digest).count c ≤ 3 := by
  cases c with
  | type => exact Nat.le_of_eq (congrArg Array.size TypeTable.entries_fresh)
  | _ => simp [count, create, Arena.fresh, ConstraintTable.fresh, ConstraintTable.size]

/-- At the start one node mentions another: the global namespace its name. -/
theorem ranked_create (config : Config) (digest : List Nat → UInt64) :
    (create config digest).Ranked (fun x => x.2.index + if x.1 = .decl then 1 else 0) where
  down c id node hread x hx := by
    cases c with
    | decl =>
      have hnode : node ∈ Arena.fresh.decls := mem_of_fetch hread
      obtain rfl : node = .nameSpace .global [] := by simpa [Arena.fresh] using hnode
      obtain rfl : x = NameId.global.any := by
        simpa [Category.mentions, Category.handlesOf, DeclKind.handles, Handle.any] using hx
      exact Nat.succ_pos _
    | name =>
      have hnode : node ∈ Arena.fresh.names := mem_of_fetch hread
      obtain rfl : node = .global := by simpa [Arena.fresh] using hnode
      cases hx
    | type =>
      have hnode : node ∈ TypeTable.fresh.kinds.entries := mem_of_fetch hread
      rw [TypeTable.entries_fresh] at hnode
      rcases (by simpa using hnode : node = .void ∨ node = .boolean ∨ node = .typeOfTypes) with
        rfl | rfl | rfl <;> cases hx
    | definition =>
      have hnode : node ∈ Arena.fresh.defs := mem_of_fetch hread
      rcases (by simpa [Arena.fresh] using hnode :
        node = .empty ∨ node = .deleted ∨ node = .defaulted) with rfl | rfl | rfl <;> cases hx
    | expr | stmt | requirement | constraint =>
      exact (Nat.not_lt_zero _ (issued_iff_node.mpr ⟨node, hread⟩)).elim
  mono c x y hlt _ := Nat.add_lt_add_right hlt _

/-- There is a rank, and above everything that is there it has room. -/
def Rankable (cx : Context) : Prop :=
  ∃ rank bound, cx.Ranked rank ∧
    ∀ (c : Category) (id : Handle c), cx.Issued id → rank id.any < bound

/-- The few nodes of a new context have ranks. -/
theorem rankable_create (config : Config) (digest : List Nat → UInt64) :
    (create config digest).Rankable := by
  refine ⟨_, 4, ranked_create config digest, fun c id hissued => ?_⟩
  have hcount := count_create_le config digest c
  have hindex : id.index < (create config digest).count c := hissued
  show id.index + (if c = .decl then 1 else 0) < 4
  split <;> omega

/-- **Growth keeps contexts rankable.** -/
theorem Grows.rankable (h : cx.Grows cx') (hcx : cx.Closed) (hrank : cx.Rankable) :
    cx'.Rankable := by
  induction h with
  | refl => exact hrank
  | @tail cx₁ h e he ih =>
    obtain ⟨rank, bound, hrank, hbound⟩ := ih
    refine ⟨_, bound + 1, hrank.apply (h.closed hcx) hbound he, fun c id _ => ?_⟩
    by_cases hissued : cx₁.Issued id
    · have hold := hbound c id hissued
      rw [lastBorn_of_issued hissued]
      omega
    · rw [lastBorn_of_not_issued hissued]
      exact Nat.lt_succ_self _

end Context

/-- After a run that passed only issued handles there is a rank. -/
theorem Workspace.rankable_reached {config : Config} {digest : List Nat → UInt64}
    {commands : List Command} (h : (start config digest).Proper commands) :
    (reached config digest commands).context.Rankable := by
  have hgrows := (run_sound (sound_start config digest) h).2
  exact hgrows.rankable (Context.closed_create config digest)
    (Context.rankable_create config digest)

end TermGraph
