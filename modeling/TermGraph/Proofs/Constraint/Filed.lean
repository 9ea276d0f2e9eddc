import TermGraph.Proofs.Constraint.Unfoldable
import TermGraph.Proofs.Runs

/-!
# Constraints are filed by their words

In a context that was only asked about its own handles every node has words:
a node is younger than its parts, so nothing contains itself
(`Context.Readable.apply`).  The words of a stored constraint therefore exist
and never change again.

The table of constraints keeps them apart by their words
(`ConstraintTable.Filed`): no two stored constraints have the same words, and
the bucket of a digest holds the constraints whose words have that digest, not
more and not fewer.  In such a table looking for a constraint in one bucket is
looking for it everywhere (`ConstraintTable.Filed.intern`): either one with
its words is stored, and it is found, or none is, and the new one is filed at
the end.
-/

namespace TermGraph

open List

/-! ## Every node has words -/

/-- The handle of a part. -/
def Part.any : Part → AnyHandle
  | .name n => n.any
  | .expr e => e.any
  | .req r => r.any

/-- The parts of a node are among its handles. -/
theorem Term.any_mem_handles {ts : List Term} {p : Part} (hp : p ∈ ts.flatMap Term.parts) :
    p.any ∈ ts.map Term.handle := by
  obtain ⟨t, ht, hp⟩ := mem_flatMap.mp hp
  refine mem_map.mpr ⟨t, ht, ?_⟩
  cases t <;> simp [Term.parts] at hp <;> subst hp <;> rfl

/-- The parts of a name are among its handles. -/
theorem NameKind.any_mem_handles {k : NameKind} {p : Part} (hp : p ∈ k.parts) :
    p.any ∈ k.handles := by
  cases k with
  | template d args | concept d args => exact mem_cons_of_mem _ (Term.any_mem_handles hp)
  | qualified scope name =>
      obtain rfl := mem_singleton.mp hp
      simp [handles, Part.any]
  | _ => cases hp

/-- The parts of an expression are among its handles. -/
theorem ExprKind.any_mem_handles {k : ExprKind} {p : Part} (hp : p ∈ k.parts) :
    p.any ∈ k.handles := by
  cases k with
  | check c args => exact mem_cons_of_mem _ (Term.any_mem_handles hp)
  | call callee args =>
      rcases mem_cons.mp hp with rfl | hp
      · exact mem_cons_self
      · obtain ⟨e, he, rfl⟩ := mem_map.mp hp
        exact mem_cons_of_mem _ (mem_map.mpr ⟨e, he, rfl⟩)
  | requires tparms parms reqs =>
      obtain ⟨r, hr, rfl⟩ := mem_map.mp hp
      exact mem_append_right _ (mem_append_right _ (mem_map.mpr ⟨r, hr, rfl⟩))
  | directInit ctor args =>
      obtain ⟨e, he, rfl⟩ := mem_map.mp hp
      exact mem_cons_of_mem _ (mem_map.mpr ⟨e, he, rfl⟩)
  | aggregateInit args =>
      obtain ⟨e, he, rfl⟩ := mem_map.mp hp
      exact mem_map.mpr ⟨e, he, rfl⟩
  | binary op lhs rhs =>
      rcases (by simpa [parts] using hp : p = .expr lhs ∨ p = .expr rhs) with rfl | rfl <;>
        simp [handles, Part.any]
  | field obj | method obj | unary _ obj | copyInit obj | bindInit obj =>
      obtain rfl := mem_singleton.mp hp
      exact mem_cons_self
  | _ => cases hp

/-- The one part of a requirement is its expression, which is among its
handles. -/
theorem ReqKind.any_mem_handles {k : ReqKind} {p : Part} (hp : p ∈ k.parts) :
    p.any ∈ k.handles := by
  obtain rfl := mem_singleton.mp hp
  cases k <;> simp [handles, expr, Part.any]

/-- The parts of a constraint are among its handles. -/
theorem ConstraintKind.any_mem_handles {k : ConstraintKind} {p : Part} (hp : p ∈ k.parts) :
    p.any ∈ k.handles := by
  cases k with
  | concept c args => exact mem_cons_of_mem _ (Term.any_mem_handles hp)
  | predicate expr | expression expr ty | conversion expr ty =>
      obtain rfl := mem_singleton.mp hp
      simp [handles, Part.any]
  | _ => cases hp

/-- A node was there before, or it is new: then its parts are among the
handles of the effect, and the walks may be longer by one. -/
theorem Effect.parts_apply {cx : Context} {e : Effect} {p : Part} {ps : List Part}
    (h : (e.apply cx).arena.parts p = .ok ps) :
    cx.arena.parts p = .ok ps ∨ (∀ q ∈ ps, q.any ∈ e.handles) ∧
      (e.apply cx).arena.depthBound = cx.arena.depthBound + 1 := by
  cases p with
  | name n =>
      obtain ⟨k, hk, rfl⟩ := map_eq_ok.mp h
      rcases name_apply hk with hold | rfl
      · exact .inl (map_eq_ok.mpr ⟨k, hold, rfl⟩)
      · refine .inr ⟨fun q hq => NameKind.any_mem_handles hq, ?_⟩
        simp [apply, Arena.pushName, Arena.depthBound]
        omega
  | expr e =>
      obtain ⟨x, hx, rfl⟩ := map_eq_ok.mp h
      rcases expr_apply hx with hold | rfl
      · exact .inl (map_eq_ok.mpr ⟨x, hold, rfl⟩)
      · refine .inr ⟨fun q hq => mem_cons_of_mem _ (ExprKind.any_mem_handles hq), ?_⟩
        simp [apply, Arena.pushExpr, Arena.depthBound]
        omega
  | req r =>
      obtain ⟨k, hk, rfl⟩ := map_eq_ok.mp h
      rcases req_apply hk with hold | rfl
      · exact .inl (map_eq_ok.mpr ⟨k, hold, rfl⟩)
      · refine .inr ⟨fun q hq => ReqKind.any_mem_handles hq, ?_⟩
        simp [apply, Arena.pushReq, Arena.depthBound]
        omega

namespace Context

variable {cx cx' : Context}

/-- A part that was issued is there. -/
theorem parts_of_issued {p : Part} (h : cx.Issued p.any.2) : ∃ ps, cx.arena.parts p = .ok ps := by
  cases p <;>
    · obtain ⟨node, hnode⟩ := exists_fetch h
      exact ⟨_, map_eq_ok.mpr ⟨node, hnode, rfl⟩⟩

/-- Every node has words. -/
def Readable (cx : Context) : Prop :=
  ∀ p ps, cx.arena.parts p = .ok ps → ∃ u, cx.arena.partWords p = .ok u

/-- What was issued has words. -/
theorem Readable.partWords (hcx : cx.Readable) {p : Part} (h : cx.Issued p.any.2) :
    ∃ u, cx.arena.partWords p = .ok u := by
  obtain ⟨ps, hps⟩ := parts_of_issued h
  exact hcx p ps hps

/-- A constraint between issued handles has words. -/
theorem Readable.constraintWords (hcx : cx.Readable) {k : ConstraintKind}
    (h : cx.AllIssued k.handles) : ∃ u, cx.arena.constraintWords k = .ok u :=
  Piece.spread_isOk fun p hp =>
    hcx.partWords (h p.any (ConstraintKind.any_mem_handles (k.mem_parts.mpr hp)))

/-- At first the global namespace's name is all there is to read. -/
theorem readable_create (config : Config) (digest : List Nat → UInt64) :
    (create config digest).Readable := by
  intro p ps h
  cases p with
  | name n =>
      obtain ⟨k, hk, _⟩ := map_eq_ok.mp h
      obtain ⟨hn, rfl⟩ : n.index = 0 ∧ .global = k := by
        have hget := fetch_eq_ok.mp hk
        cases hi : n.index <;> simp_all [create, Arena.fresh]
      obtain rfl := Handle.index_inj.mp (hn : n.index = NameId.global.index)
      exact ⟨[7], rfl⟩
  | expr e | req r =>
      obtain ⟨k, hk, _⟩ := map_eq_ok.mp h
      simpa [create, Arena.fresh] using fetch_eq_ok.mp hk

/-- An effect with issued handles keeps every node readable. -/
theorem Readable.apply (hcx : cx.Readable) {e : Effect} (he : cx.AllIssued e.handles) :
    (e.apply cx).Readable := by
  intro p ps h
  have hle := (e.precedes_apply cx).arena
  rcases Effect.parts_apply h with hold | ⟨hnew, hbound⟩
  · obtain ⟨u, hu⟩ := hcx p ps hold
    exact ⟨u, Arena.partWords_later hle hu⟩
  · -- The parts were there before, so they open within the bound of before.
    obtain ⟨pieces, hpieces, hmem⟩ := Arena.pieces_of_parts h
    have hopened (q : Part) (hq : .part q ∈ pieces) :
        ∃ u, (e.apply cx).arena.wordsWithin cx.arena.depthBound q = .ok u := by
      obtain ⟨u, hu⟩ := hcx.partWords (he _ (hnew q ((hmem q).mp hq)))
      exact ⟨u, Arena.wordsWithin_later hle (Nat.le_refl _) hu⟩
    obtain ⟨u, hu⟩ := Piece.spread_isOk hopened
    refine ⟨u, ?_⟩
    rw [Arena.partWords, hbound]
    exact Arena.wordsWithin_succ_eq_ok.mpr ⟨pieces, hpieces, hu⟩

end Context

/-! ## The table -/

namespace ConstraintTable

variable {t : ConstraintTable} {a b : Arena} {k : ConstraintKind} {u : List Nat}

/-- The constraint at the handle is stored and has these words. -/
def HasWords (t : ConstraintTable) (a : Arena) (c : ConsId) (u : List Nat) : Prop :=
  ∃ k, t.kind c = .ok k ∧ a.constraintWords k = .ok u

/-- A stored constraint has one list of words. -/
theorem HasWords.unique {c : ConsId} {v : List Nat} (hu : t.HasWords a c u)
    (hv : t.HasWords a c v) : u = v := by
  obtain ⟨j, hj, hu⟩ := hu
  obtain ⟨k, hk, hv⟩ := hv
  obtain rfl := Except.ok.inj (hj.symm.trans hk)
  exact Except.ok.inj (hu.symm.trans hv)

/-- What is stored keeps its words while table and arena grow. -/
theorem HasWords.later {t' : ConstraintTable} {c : ConsId} (h : t.HasWords a c u)
    (htable : t.kinds.toList <+: t'.kinds.toList) (harena : a.Precedes b) : t'.HasWords b c u := by
  obtain ⟨k, hk, hu⟩ := h
  exact ⟨k, fetch_later htable hk, Arena.constraintWords_later harena hu⟩

/-- The stored constraints have words, no two of them the same, and each is
listed under the digest of its words and nowhere else. -/
structure Filed (t : ConstraintTable) (a : Arena) : Prop where
  hasWords : ∀ c k, t.kind c = .ok k → ∃ u, a.constraintWords k = .ok u
  distinct : ∀ c d u, t.HasWords a c u → t.HasWords a d u → c = d
  candidates : ∀ key c, c ∈ t.candidates key ↔ ∃ u, t.HasWords a c u ∧ t.digest u = key

/-- Stored constraints have the same words in a later arena. -/
theorem Filed.hasWords_later (h : t.Filed a) (hle : a.Precedes b) {c : ConsId} :
    t.HasWords b c u ↔ t.HasWords a c u := by
  constructor
  · rintro ⟨k, hk, hu⟩
    obtain ⟨v, hv⟩ := h.hasWords c k hk
    obtain rfl := Except.ok.inj (hu.symm.trans (Arena.constraintWords_later hle hv))
    exact ⟨k, hk, hv⟩
  · rintro ⟨k, hk, hu⟩
    exact ⟨k, hk, Arena.constraintWords_later hle hu⟩

/-- A table stays filed while the arena grows. -/
theorem Filed.later (h : t.Filed a) (hle : a.Precedes b) : t.Filed b where
  hasWords c k hk := by
    obtain ⟨u, hu⟩ := h.hasWords c k hk
    exact ⟨u, Arena.constraintWords_later hle hu⟩
  distinct c d u hc hd :=
    h.distinct c d u ((h.hasWords_later hle).mp hc) ((h.hasWords_later hle).mp hd)
  candidates key c := by simpa only [h.hasWords_later hle] using h.candidates key c

/-- An empty table is filed, over any arena. -/
theorem filed_fresh (digest : List Nat → UInt64) (a : Arena) : (fresh digest).Filed a := by
  have hkind (c : ConsId) (k : ConstraintKind) : (fresh digest).kind c ≠ .ok k := by
    simp [kind, fresh, fetch]
  refine ⟨fun c k hk => (hkind c k hk).elim, fun c d u hc _ => ?_, fun key c => ?_⟩
  · obtain ⟨k, hk, _⟩ := hc
    exact (hkind c k hk).elim
  · constructor
    · intro hc
      simp [ConstraintTable.candidates, fresh] at hc
    · rintro ⟨u, ⟨k, hk, _⟩, _⟩
      exact (hkind c k hk).elim

/-- Searching among constraints that have words finds one with the words of
the constraint asked for, or there is none. -/
theorem firstAlike_eq_ok {listed : List ConsId} (hlisted : ∀ c ∈ listed, ∃ v, t.HasWords a c v)
    (hu : a.constraintWords k = .ok u) :
    (∃ c ∈ listed, t.HasWords a c u ∧ t.firstAlike a k listed = .ok (some c)) ∨
      (∀ c ∈ listed, ¬ t.HasWords a c u) ∧ t.firstAlike a k listed = .ok none := by
  induction listed with
  | nil => exact .inr ⟨by simp, rfl⟩
  | cons c rest ih =>
      obtain ⟨v, j, hj, hv⟩ := hlisted c mem_cons_self
      obtain ⟨alike, halike, hiff⟩ := Arena.constraintsAlike_eq_ok hv hu
      cases alike with
      | true =>
        obtain rfl := hiff.mp rfl
        refine .inl ⟨c, mem_cons_self, ⟨j, hj, hv⟩, ?_⟩
        exact bind_eq_ok.mpr ⟨j, hj, bind_eq_ok.mpr ⟨true, halike, rfl⟩⟩
      | false =>
        have hskip : t.firstAlike a k (c :: rest) = t.firstAlike a k rest := by
          simp [firstAlike, hj, halike, bind, Except.bind]
        have hother : ¬ t.HasWords a c u := fun hc =>
          Bool.noConfusion (hiff.mpr (HasWords.unique ⟨j, hj, hv⟩ hc))
        rw [hskip]
        rcases ih fun d hd => hlisted d (mem_cons_of_mem _ hd) with
          ⟨d, hd, hwords, hfound⟩ | ⟨hnone, hfound⟩
        · exact .inl ⟨d, mem_cons_of_mem _ hd, hwords, hfound⟩
        · exact .inr ⟨forall_mem_cons.mpr ⟨hother, hnone⟩, hfound⟩

/-- The table after filing a constraint at the end. -/
theorem kind_insert {key : UInt64} {c : ConsId} {j : ConstraintKind} :
    (t.insert key k).2.kind c = .ok j ↔ t.kind c = .ok j ∨ c.index = t.size ∧ j = k := by
  constructor
  · exact fetch_push_eq_ok
  · rintro (h | ⟨hc, rfl⟩)
    · exact fetch_later (by simp [insert]) h
    · exact fetch_eq_ok.mpr (by simp [insert, hc, size])

/-- What is filed under a digest after filing a constraint. -/
theorem mem_candidates_insert {key key' : UInt64} {c : ConsId} :
    c ∈ (t.insert key k).2.candidates key' ↔
      c ∈ t.candidates key' ∨ c.index = t.size ∧ key' = key := by
  have hlast : c = ⟨t.kinds.size⟩ ↔ c.index = t.size := Handle.index_inj.symm
  rw [insert, candidates, Std.TreeMap.getD_insert]
  by_cases hkey : key = key'
  · subst hkey
    simp [hlast]
  · have hne : key' ≠ key := fun h => hkey h.symm
    simp [hkey, hne, candidates]

/-- Filing a constraint whose words none has keeps the table filed. -/
theorem Filed.insert (h : t.Filed a) (hu : a.constraintWords k = .ok u)
    (hnew : ∀ c, ¬ t.HasWords a c u) : (t.insert (t.digest u) k).2.Filed a := by
  have hwords (c : ConsId) (v : List Nat) : (t.insert (t.digest u) k).2.HasWords a c v ↔
      t.HasWords a c v ∨ c.index = t.size ∧ v = u := by
    constructor
    · rintro ⟨j, hj, hv⟩
      rcases kind_insert.mp hj with hold | ⟨hc, rfl⟩
      · exact .inl ⟨j, hold, hv⟩
      · exact .inr ⟨hc, Except.ok.inj (hv.symm.trans hu)⟩
    · rintro (⟨j, hj, hv⟩ | ⟨hc, rfl⟩)
      · exact ⟨j, kind_insert.mpr (.inl hj), hv⟩
      · exact ⟨k, kind_insert.mpr (.inr ⟨hc, rfl⟩), hu⟩
  refine ⟨fun c j hj => ?_, fun c d v hc hd => ?_, fun key c => ?_⟩
  · rcases kind_insert.mp hj with hold | ⟨_, rfl⟩
    · exact h.hasWords c j hold
    · exact ⟨u, hu⟩
  · rcases (hwords c v).mp hc with hcOld | ⟨hcLast, hcWords⟩ <;>
      rcases (hwords d v).mp hd with hdOld | ⟨hdLast, hdWords⟩
    · exact h.distinct c d v hcOld hdOld
    · exact (hnew c (hdWords ▸ hcOld)).elim
    · exact (hnew d (hcWords ▸ hdOld)).elim
    · exact Handle.index_inj.mp (hcLast.trans hdLast.symm)
  · rw [mem_candidates_insert, h.candidates key c]
    simp only [hwords, or_and_right, exists_or]
    refine or_congr_right ⟨fun ⟨hc, hkey⟩ => ⟨u, ⟨hc, rfl⟩, hkey.symm⟩, ?_⟩
    rintro ⟨v, ⟨hc, rfl⟩, hkey⟩
    exact ⟨hc, hkey.symm⟩

/-- **Interning.**  A constraint with the same words is found and nothing
changes, or there is none and the constraint is filed at the end.  The table
is filed afterwards, and the constraint has its words there. -/
theorem Filed.intern (h : t.Filed a) (hu : a.constraintWords k = .ok u) :
    (∃ c, t.HasWords a c u ∧ t.intern a k = .ok (c, t)) ∨
      (∀ c, ¬ t.HasWords a c u) ∧ t.intern a k = .ok (t.insert (t.digest u) k) := by
  have hlisted (c : ConsId) (hc : c ∈ t.candidates (t.digest u)) : ∃ v, t.HasWords a c v := by
    obtain ⟨v, hv, _⟩ := (h.candidates _ c).mp hc
    exact ⟨v, hv⟩
  -- A constraint with the same words has the same digest, so it is in this bucket or nowhere.
  rcases firstAlike_eq_ok hlisted hu with ⟨c, _, hc, hfound⟩ | ⟨hnone, hfound⟩
  · refine .inl ⟨c, hc, ?_⟩
    exact bind_eq_ok.mpr ⟨u, hu, bind_eq_ok.mpr ⟨some c, hfound, rfl⟩⟩
  · refine .inr ⟨fun c hc => hnone c ((h.candidates _ c).mpr ⟨u, hc, rfl⟩) hc, ?_⟩
    exact bind_eq_ok.mpr ⟨u, hu, bind_eq_ok.mpr ⟨none, hfound, rfl⟩⟩

end ConstraintTable

/-! ## Contexts and workspaces -/

/-- Only interning a constraint changes the table of constraints. -/
theorem Effect.constraints_apply {cx : Context} {e : Effect} (he : ∀ kind, e ≠ .constraint kind) :
    (e.apply cx).constraints = cx.constraints := by
  cases e with
  | constraint kind => exact (he kind rfl).elim
  | _ => rfl

namespace Context

variable {cx cx' : Context}

/-- Every node has words, and the constraints are filed by theirs. -/
structure Orderly (cx : Context) : Prop where
  readable : cx.Readable
  filed : cx.constraints.Filed cx.arena

/-- A new context is orderly. -/
theorem orderly_create (config : Config) (digest : List Nat → UInt64) :
    (create config digest).Orderly :=
  ⟨readable_create config digest, ConstraintTable.filed_fresh digest _⟩

/-- **Growth keeps contexts orderly.** -/
theorem Grows.orderly (h : cx.Grows cx') (hcx : cx.Orderly) : cx'.Orderly := by
  induction h with
  | refl => exact hcx
  | @tail cx₁ h e he ih =>
    refine ⟨ih.readable.apply he, ?_⟩
    by_cases hconstraint : ∃ kind, e = .constraint kind
    · obtain ⟨kind, rfl⟩ := hconstraint
      obtain ⟨u, hu⟩ := ih.readable.constraintWords he
      rcases ih.filed.intern hu with ⟨c, _, hintern⟩ | ⟨hnew, hintern⟩
      · simpa only [Effect.apply, hintern] using ih.filed
      · simpa only [Effect.apply, hintern] using ih.filed.insert hu hnew
    · rw [Effect.constraints_apply fun kind hkind => hconstraint ⟨kind, hkind⟩]
      exact ih.filed.later (e.precedes_apply cx₁).arena

end Context

namespace Workspace

variable {w : Workspace} {k : ConstraintKind} {u : List Nat}

/-- What a proper run reaches is orderly. -/
theorem orderly_reached {config : Config} {digest : List Nat → UInt64} {commands : List Command}
    (h : (start config digest).Proper commands) :
    (reached config digest commands).context.Orderly :=
  (run_sound (sound_start config digest) h).2.orderly (Context.orderly_create config digest)

/-- The workspace with one more constraint, filed at the end. -/
def filing (w : Workspace) (key : UInt64) (k : ConstraintKind) : Workspace :=
  { w with context :=
      { w.context with constraints := (w.context.constraints.insert key k).2 } }

/-- **A request for a constraint.**  It is answered.  Either a constraint with
the same words is stored, which is the answer, and nothing at all changes; or
there is none, the answer is the next handle, and the one change is that the
constraint is filed there. -/
theorem step_constraint (hw : w.context.constraints.Filed w.context.arena)
    (hu : w.context.arena.constraintWords k = .ok u) :
    (∃ c, w.context.constraints.HasWords w.context.arena c u ∧
      w.step (.ask (.constraint k)) = (.ok (.node .constraint c), w)) ∨
    (∀ c, ¬ w.context.constraints.HasWords w.context.arena c u) ∧
      w.step (.ask (.constraint k)) = (.ok (.node .constraint ⟨w.context.constraints.size⟩),
        w.filing (w.context.constraints.digest u) k) := by
  rcases hw.intern hu with ⟨c, hc, hintern⟩ | ⟨hnew, hintern⟩
  · refine .inl ⟨c, hc, ?_⟩
    have hbuild : (Build.internConstraint k).runOn w.context = (.ok c, w.context) := by
      simp only [Build.runOn, Build.internConstraint, hintern]
    simp only [step, Request.perform, Build.runOn_map, hbuild]
    rfl
  · refine .inr ⟨hnew, ?_⟩
    have hbuild : (Build.internConstraint k).runOn w.context =
        (.ok ⟨w.context.constraints.size⟩,
          (w.filing (w.context.constraints.digest u) k).context) := by
      simp only [Build.runOn, Build.internConstraint, hintern]
      rfl
    simp only [step, Request.perform, Build.runOn_map, hbuild]
    rfl

end Workspace

end TermGraph
