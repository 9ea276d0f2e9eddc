import TermGraph.Proofs.Constraint.Levels

/-!
# Constraints are unique

Comparing the handles of two constraints is comparing what they say: two
requests of one proper run, however far apart, are answered by the same handle
exactly when the constraints they ask for unfold to the same tree
(`Workspace.constraints_unique`).  A request whose constraint is there already
changes nothing, and any other files one constraint at the end.

Nothing is nested deeper than there are nodes, so everything issued unfolds
(`Context.Grows.unfolds`), and trees are what words are a flat writing of:
level by level, equal trees are equal words (`Context.Orderly.faithful`).  The
table of constraints keeps words apart, and words and trees never change.
-/

namespace TermGraph

open List

/-! ## Unfolding in a context -/

namespace Context

/-- The trees of the nodes that are nested through at most `depth` nodes. -/
def opening (cx : Context) : Nat → Opening ConstraintTree
  | 0 => ⟨fun _ => none, fun _ => none, fun _ => none, fun _ => none⟩
  | depth + 1 =>
    { name := fun n => do (← cx.arena.names[n.index]?).expand (cx.opening depth)
      expr := fun e => do (← cx.arena.exprs[e.index]?).expand (cx.opening depth)
      req := fun r => do (← cx.arena.reqs[r.index]?).expand (cx.opening depth)
      constraint := fun c => do (← cx.constraints.kinds[c.index]?).expand (cx.opening depth) }

/-- How many nodes there are that unfolding goes through. -/
def nodeCount (cx : Context) : Nat :=
  cx.arena.names.size + cx.arena.exprs.size + cx.arena.reqs.size + cx.constraints.size

/-- What a constraint says, unfolded.  No node is nested deeper than there are
nodes. -/
def constraintTree (cx : Context) (k : ConstraintKind) : Option ConstraintTree :=
  k.expand (cx.opening cx.nodeCount)

variable {cx cx' : Context}

/-! One level of unfolding. -/

/-- The tree of a name, one level deeper than what its node mentions. -/
theorem opening_name {depth : Nat} {n : NameId} {k : NameKind} (hk : cx.arena.name n = .ok k) :
    (cx.opening (depth + 1)).name n = k.expand (cx.opening depth) := by
  have hget : cx.arena.names[n.index]? = some k := fetch_eq_ok.mp hk
  simp [opening, hget]

theorem opening_expr {depth : Nat} {e : ExprId} {x : Expr} (hx : cx.arena.expr e = .ok x) :
    (cx.opening (depth + 1)).expr e = x.expand (cx.opening depth) := by
  have hget : cx.arena.exprs[e.index]? = some x := fetch_eq_ok.mp hx
  simp [opening, hget]

theorem opening_req {depth : Nat} {r : ReqId} {k : ReqKind} (hk : cx.arena.req r = .ok k) :
    (cx.opening (depth + 1)).req r = k.expand (cx.opening depth) := by
  have hget : cx.arena.reqs[r.index]? = some k := fetch_eq_ok.mp hk
  simp [opening, hget]

/-- The tree of a constraint, one level deeper than what its node mentions. -/
theorem opening_constraint {depth : Nat} {c : ConsId} {k : ConstraintKind}
    (hk : cx.constraint c = .ok k) :
    (cx.opening (depth + 1)).constraint c = k.expand (cx.opening depth) := by
  have hget : cx.constraints.kinds[c.index]? = some k := fetch_eq_ok.mp hk
  simp [opening, hget]

/-- What opens in a context, opens to the same in a later one, and when it may
be nested deeper. -/
theorem opening_le (hle : cx.Precedes cx') {m n : Nat} (hmn : m ≤ n) :
    (cx.opening m).Le (cx'.opening n) := by
  induction n generalizing m with
  | zero =>
      obtain rfl := Nat.le_zero.mp hmn
      constructor <;> exact fun _ _ h => by cases h
  | succ n ih =>
      cases m with
      | zero => constructor <;> exact fun _ _ h => by cases h
      | succ m =>
        have hstep := ih (Nat.le_of_succ_le_succ hmn)
        refine ⟨fun x s h => ?_, fun x s h => ?_, fun x s h => ?_, fun x s h => ?_⟩
        all_goals
          obtain ⟨k, hk, hs⟩ := Option.bind_eq_some_iff.mp h
          refine Option.bind_eq_some_iff.mpr ⟨k, ?_, ?_⟩
        · exact fetch_eq_ok.mp (fetch_later hle.arena.names (fetch_eq_ok.mpr hk))
        · exact NameKind.expand_mono hstep hs
        · exact fetch_eq_ok.mp (fetch_later hle.arena.exprs (fetch_eq_ok.mpr hk))
        · exact Expr.expand_mono hstep hs
        · exact fetch_eq_ok.mp (fetch_later hle.arena.reqs (fetch_eq_ok.mpr hk))
        · exact ReqKind.expand_mono hstep hs
        · exact fetch_eq_ok.mp (fetch_later hle.constraints (fetch_eq_ok.mpr hk))
        · exact ConstraintKind.expand_mono hstep hs

/-- There are never fewer nodes than before. -/
theorem nodeCount_later (hle : cx.Precedes cx') : cx.nodeCount ≤ cx'.nodeCount := by
  have hnames := hle.arena.names.length_le
  have hexprs := hle.arena.exprs.length_le
  have hreqs := hle.arena.reqs.length_le
  have hconstraints := hle.constraints.length_le
  simp only [Array.length_toList] at hnames hexprs hreqs hconstraints
  unfold nodeCount ConstraintTable.size
  omega

/-- What a constraint says does not change. -/
theorem constraintTree_later (hle : cx.Precedes cx') {k : ConstraintKind} {s : ConstraintTree}
    (h : cx.constraintTree k = some s) : cx'.constraintTree k = some s :=
  ConstraintKind.expand_mono (opening_le hle (nodeCount_later hle)) h

end Context

/-! ## Everything issued unfolds -/

/-- The constraints that a node mentions are among its handles. -/
theorem Term.constraint_mem_handles {ts : List Term} {c : ConsId}
    (hc : c ∈ ts.flatMap Term.constraints) : c.any ∈ ts.map Term.handle := by
  obtain ⟨t, ht, hc⟩ := mem_flatMap.mp hc
  refine mem_map.mpr ⟨t, ht, ?_⟩
  cases t with
  | constraint d =>
      obtain rfl := mem_singleton.mp hc
      rfl
  | _ => cases hc

/-- The constraints that a name mentions are among its handles. -/
theorem NameKind.constraint_mem_handles {k : NameKind} {c : ConsId} (hc : c ∈ k.constraints) :
    c.any ∈ k.handles := by
  cases k with
  | template d args | concept d args => exact mem_cons_of_mem _ (Term.constraint_mem_handles hc)
  | _ => cases hc

/-- The constraints that an expression mentions are among its handles. -/
theorem ExprKind.constraint_mem_handles {k : ExprKind} {c : ConsId} (hc : c ∈ k.constraints) :
    c.any ∈ k.handles := by
  cases k with
  | check d args => exact mem_cons_of_mem _ (Term.constraint_mem_handles hc)
  | _ => cases hc

/-- The constraints that a constraint mentions are among its handles. -/
theorem ConstraintKind.constraint_mem_handles {k : ConstraintKind} {c : ConsId}
    (hc : c ∈ k.constraints) : c.any ∈ k.handles := by
  cases k with
  | concept d args => exact mem_cons_of_mem _ (Term.constraint_mem_handles hc)
  | parameterized parms d =>
      obtain rfl := mem_singleton.mp hc
      simp [handles]
  | conjunction lhs rhs | disjunction lhs rhs =>
      rcases (by simpa [constraints] using hc : c = lhs ∨ c = rhs) with rfl | rfl <;> simp [handles]
  | _ => cases hc

namespace Opening

variable {κ : Type} {o o' : Opening κ}

/-- What is opened stays opened when the opening tells more. -/
theorem Opens.mono (h : o.Le o') {p : Part} (hp : o.Opens p) : o'.Opens p := by
  cases p with
  | name n =>
      obtain ⟨s, hs⟩ := Option.isSome_iff_exists.mp hp
      exact Option.isSome_iff_exists.mpr ⟨s, h.name n s hs⟩
  | expr e =>
      obtain ⟨s, hs⟩ := Option.isSome_iff_exists.mp hp
      exact Option.isSome_iff_exists.mpr ⟨s, h.expr e s hs⟩
  | req r =>
      obtain ⟨s, hs⟩ := Option.isSome_iff_exists.mp hp
      exact Option.isSome_iff_exists.mpr ⟨s, h.req r s hs⟩

end Opening

namespace Context

variable {cx cx' : Context}

/-- Everything issued unfolds. -/
structure Unfolds (cx : Context) : Prop where
  part : ∀ p : Part, cx.Issued p.any.2 → (cx.opening cx.nodeCount).Opens p
  constraint : ∀ c : ConsId, cx.Issued c → ((cx.opening cx.nodeCount).constraint c).isSome

/-- Then so does every constraint between issued handles. -/
theorem Unfolds.constraintTree (hcx : cx.Unfolds) {k : ConstraintKind}
    (h : cx.AllIssued k.handles) : ∃ s, cx.constraintTree k = some s :=
  Option.isSome_iff_exists.mp (ConstraintKind.expand_isSome.mpr
    ⟨fun p hp => hcx.part p (h p.any (ConstraintKind.any_mem_handles hp)),
      fun c hc => hcx.constraint c (h c.any (ConstraintKind.constraint_mem_handles hc))⟩)

/-- In a new context only the global namespace's name has been issued, and it
unfolds. -/
theorem unfolds_create (config : Config) (digest : List Nat → UInt64) :
    (create config digest).Unfolds := by
  refine ⟨fun p hp => ?_, fun c hc => ?_⟩
  · cases p with
    | name n =>
        have hn : n.index = NameId.global.index := Nat.lt_one_iff.mp hp
        obtain rfl := Handle.index_inj.mp hn
        rfl
    | expr e | req r => exact absurd hp (Nat.not_lt_zero _)
  · exact absurd hc (Nat.not_lt_zero _)

/-- An effect with issued handles leaves everything issued unfolding. -/
theorem Unfolds.apply (hcx : cx.Unfolds) {e : Effect} (he : cx.AllIssued e.handles) :
    (e.apply cx).Unfolds := by
  have hle := e.precedes_apply cx
  have hold : (cx.opening cx.nodeCount).Le ((e.apply cx).opening (e.apply cx).nodeCount) :=
    opening_le hle (nodeCount_later hle)
  -- What the effect mentions opened before, within the count of before.
  have hsame : (cx.opening cx.nodeCount).Le ((e.apply cx).opening cx.nodeCount) :=
    opening_le hle (Nat.le_refl _)
  have hparts {p : Part} (hp : p.any ∈ e.handles) : ((e.apply cx).opening cx.nodeCount).Opens p :=
    (hcx.part p (he _ hp)).mono hsame
  have hconstraints {c : ConsId} (hc : c.any ∈ e.handles) :
      (((e.apply cx).opening cx.nodeCount).constraint c).isSome := by
    obtain ⟨s, hs⟩ := Option.isSome_iff_exists.mp (hcx.constraint c (he _ hc))
    exact Option.isSome_iff_exists.mpr ⟨s, hsame.constraint c s hs⟩
  refine ⟨fun p hp => ?_, fun c hc => ?_⟩
  · cases p with
    | name n =>
        obtain ⟨k, hk⟩ : ∃ k, (e.apply cx).arena.name n = .ok k := exists_fetch hp
        rcases Effect.name_apply hk with hk' | rfl
        · exact (hcx.part (.name n) (lt_of_fetch hk')).mono hold
        · have hcount : ((Effect.name k).apply cx).nodeCount = cx.nodeCount + 1 := by
            simp [nodeCount, Effect.apply, Arena.pushName]
            omega
          rw [Opening.opens_name, hcount, opening_name hk, NameKind.expand_isSome]
          exact ⟨fun p hp => hparts (NameKind.any_mem_handles hp),
            fun c hc => hconstraints (NameKind.constraint_mem_handles hc)⟩
    | expr i =>
        obtain ⟨x, hx⟩ : ∃ x, (e.apply cx).arena.expr i = .ok x := exists_fetch hp
        rcases Effect.expr_apply hx with hx' | rfl
        · exact (hcx.part (.expr i) (lt_of_fetch hx')).mono hold
        · have hcount : ((Effect.expr x.kind x.ty).apply cx).nodeCount = cx.nodeCount + 1 := by
            simp [nodeCount, Effect.apply, Arena.pushExpr]
            omega
          rw [Opening.opens_expr, hcount, opening_expr hx, Expr.expand_isSome,
            ExprKind.expand_isSome]
          exact ⟨fun p hp => hparts (mem_cons_of_mem _ (ExprKind.any_mem_handles hp)),
            fun c hc => hconstraints (mem_cons_of_mem _ (ExprKind.constraint_mem_handles hc))⟩
    | req r =>
        obtain ⟨k, hk⟩ : ∃ k, (e.apply cx).arena.req r = .ok k := exists_fetch hp
        rcases Effect.req_apply hk with hk' | rfl
        · exact (hcx.part (.req r) (lt_of_fetch hk')).mono hold
        · have hcount : ((Effect.requirement k).apply cx).nodeCount = cx.nodeCount + 1 := by
            simp [nodeCount, Effect.apply, Arena.pushReq]
            omega
          rw [Opening.opens_req, hcount, opening_req hk, ReqKind.expand_isSome]
          exact fun p hp => hparts (ReqKind.any_mem_handles hp)
  · obtain ⟨k, hk⟩ : ∃ k, (e.apply cx).constraint c = .ok k := exists_fetch hc
    rcases Effect.constraint_apply hk with hk' | ⟨rfl, hsize⟩
    · obtain ⟨s, hs⟩ := Option.isSome_iff_exists.mp (hcx.constraint c (lt_of_fetch hk'))
      exact Option.isSome_iff_exists.mpr ⟨s, hold.constraint c s hs⟩
    · have hcount : ((Effect.constraint k).apply cx).nodeCount = cx.nodeCount + 1 := by
        have harena : ((Effect.constraint k).apply cx).arena = cx.arena := by
          simp only [Effect.apply]
          split <;> rfl
        simp only [nodeCount, hsize, harena]
        omega
      rw [hcount, opening_constraint hk, ConstraintKind.expand_isSome]
      exact ⟨fun p hp => hparts (ConstraintKind.any_mem_handles hp),
        fun d hd => hconstraints (ConstraintKind.constraint_mem_handles hd)⟩

/-- **Growth leaves everything issued unfolding.** -/
theorem Grows.unfolds (h : cx.Grows cx') (hcx : cx.Unfolds) : cx'.Unfolds := by
  induction h with
  | refl => exact hcx
  | tail _ e he ih => exact ih.apply he

end Context

/-! ## Equal trees are equal words -/

/-- Equal trees of parts are equal words, and equal trees of constraints come
from equal handles. -/
structure Opening.Faithful (o : Opening ConstraintTree) (a : Arena) : Prop where
  same_iff : ∀ p q, o.Opens p → o.Opens q → (o.Same p q ↔ SameWords a.partWords p q)
  distinct : o.Distinct

namespace Context

variable {cx : Context}

/-- Two constraints whose parts open have equal trees exactly when they have
equal words. -/
theorem words_iff {o : Opening ConstraintTree} (ho : o.Faithful cx.arena) {j k : ConstraintKind}
    {s t : ConstraintTree} (hs : j.expand o = some s) (ht : k.expand o = some t) {u v : List Nat}
    (hu : cx.arena.constraintWords j = .ok u) (hv : cx.arena.constraintWords k = .ok v) :
    s = t ↔ u = v := by
  rw [ConstraintKind.tree_eq_iff ho.distinct hs ht, Piece.match_congr fun p q hp hq =>
      ho.same_iff p q (ConstraintKind.opens_of_expand hs p hp)
        (ConstraintKind.opens_of_expand ht q hq)]
  exact Piece.match_iff_words cx.arena.prefixFree_partWords (j.fit k).inStep hu hv

/-- **Level by level, equal trees are equal words.**  One level further out a
tree is made of the trees of parts, which are equal where words are; and two
stored constraints with equal trees have equal words, so they are one. -/
theorem Orderly.faithful (hcx : cx.Orderly) (n : Nat) : (cx.opening n).Faithful cx.arena := by
  induction n with
  | zero =>
      refine ⟨fun p q hp => ?_, fun c d s hc => by cases hc⟩
      cases p <;> cases hp
  | succ n ih =>
      refine ⟨hcx.readable.agrees_level ih.distinct ih.same_iff, fun c d s hc hd => ?_⟩
      obtain ⟨j, hj, hjs⟩ := Option.bind_eq_some_iff.mp hc
      obtain ⟨k, hk, hks⟩ := Option.bind_eq_some_iff.mp hd
      have hcStored : cx.constraint c = .ok j := fetch_eq_ok.mpr hj
      have hdStored : cx.constraint d = .ok k := fetch_eq_ok.mpr hk
      obtain ⟨u, hu⟩ := hcx.filed.hasWords c j hcStored
      obtain ⟨v, hv⟩ := hcx.filed.hasWords d k hdStored
      have hwords : u = v := (words_iff ih hjs hks hu hv).mp rfl
      subst hwords
      exact hcx.filed.distinct c d u ⟨j, hcStored, hu⟩ ⟨k, hdStored, hv⟩

end Context

/-! ## Runs -/

namespace Workspace

/-- The constraint is asked for and answered by `c`: either `c` is old and
nothing changes, or it is the next handle and the one change is that the
constraint is stored there. -/
def Interns (w : Workspace) (k : ConstraintKind) (c : ConsId) : Prop :=
  (w.step (.ask (.constraint k))).1 = .ok (.node .constraint c) ∧
    (c.index < w.context.constraints.size ∧ (w.step (.ask (.constraint k))).2 = w ∨
      c.index = w.context.constraints.size ∧
        (w.step (.ask (.constraint k))).2.context.constraints.kinds =
          w.context.constraints.kinds.push k ∧
        ∃ constraints, (w.step (.ask (.constraint k))).2 =
          { w with context := { w.context with constraints } })

variable {w : Workspace} {k : ConstraintKind} {u : List Nat}

/-- A constraint is answered by a handle at which its words are stored. -/
theorem interns_of_orderly (hw : w.context.Orderly)
    (hu : w.context.arena.constraintWords k = .ok u) :
    ∃ c, w.Interns k c ∧
      (w.step (.ask (.constraint k))).2.context.constraints.HasWords w.context.arena c u := by
  unfold Interns
  rcases step_constraint hw.filed hu with ⟨c, hc, hstep⟩ | ⟨_, hstep⟩
  · obtain ⟨stored, hstored, _⟩ := id hc
    rw [hstep]
    exact ⟨c, ⟨rfl, .inl ⟨lt_of_fetch hstored, rfl⟩⟩, hc⟩
  · rw [hstep]
    refine ⟨⟨w.context.constraints.size⟩, ⟨rfl, .inr ⟨rfl, rfl, _, rfl⟩⟩, k, ?_, hu⟩
    exact ConstraintTable.kind_insert.mpr (.inr ⟨rfl, rfl⟩)

/-- After a proper run everything issued unfolds. -/
theorem unfolds_reached {config : Config} {digest : List Nat → UInt64} {commands : List Command}
    (h : (start config digest).Proper commands) :
    (reached config digest commands).context.Unfolds :=
  (run_sound (sound_start config digest) h).2.unfolds (Context.unfolds_create config digest)

/-- Two requests for constraints in one proper run are both answered, and by one
handle exactly when the constraints have the same words. -/
theorem interns_by_words {config : Config} {digest : List Nat → UInt64}
    {before between : List Command} {j k : ConstraintKind}
    (h : (start config digest).Proper
      (before ++ .ask (.constraint j) :: between ++ [.ask (.constraint k)])) :
    ∃ c d u v,
      (reached config digest before).Interns j c ∧
      (reached config digest (before ++ .ask (.constraint j) :: between)).Interns k d ∧
      (reached config digest
        (before ++ .ask (.constraint j) :: between)).context.arena.constraintWords j = .ok u ∧
      (reached config digest
        (before ++ .ask (.constraint j) :: between)).context.arena.constraintWords k = .ok v ∧
      (c = d ↔ u = v) := by
  obtain ⟨hsplit, hkIssued, _⟩ := proper_append.mp h
  obtain ⟨hbefore, hjIssued, _⟩ := proper_append.mp hsplit
  have horderly₁ := orderly_reached hbefore
  have horderly₂ := orderly_reached hsplit
  -- Both are answered, each at a handle where its words are stored from then on.
  obtain ⟨u, hu⟩ := horderly₁.readable.constraintWords hjIssued
  obtain ⟨v, hv⟩ := horderly₂.readable.constraintWords hkIssued
  obtain ⟨c, hc, hcWords⟩ := interns_of_orderly horderly₁ hu
  obtain ⟨d, hd, hdWords⟩ := interns_of_orderly horderly₂ hv
  obtain ⟨hsound, _⟩ := run_sound (sound_start config digest) hsplit
  obtain ⟨_, hlast, _⟩ := step_sound hsound (.ask (.constraint k)) hkIssued
  have hle := precedes_of_append (sound_start config digest) hsplit
  have hbetween := step_precedes_reached hsplit
  have hcLast := hcWords.later (hbetween.constraints.trans hlast.precedes.constraints)
    (hle.arena.trans hlast.precedes.arena)
  have hdLast := hdWords.later prefix_rfl hlast.precedes.arena
  refine ⟨c, d, u, v, hc, hd, Arena.constraintWords_later hle.arena hu, hv, ?_, ?_⟩
  · rintro rfl
    exact hcLast.unique hdLast
  · rintro rfl
    exact (hlast.orderly horderly₂).filed.distinct c d u hcLast hdLast

/-- **Constraints are unique.**  Two requests for constraints in one proper
run are both answered and both unfold, and they are answered by one handle
exactly when they unfold to the same tree.  Each is answered by an old handle
and changes nothing, or by the next handle and stores the constraint there. -/
theorem constraints_unique (config : Config) (digest : List Nat → UInt64)
    (before between : List Command) (j k : ConstraintKind)
    (h : (start config digest).Proper
      (before ++ .ask (.constraint j) :: between ++ [.ask (.constraint k)])) :
    ∃ c d s t,
      (reached config digest before).Interns j c ∧
      (reached config digest (before ++ .ask (.constraint j) :: between)).Interns k d ∧
      (reached config digest before).context.constraintTree j = some s ∧
      (reached config digest (before ++ .ask (.constraint j) :: between)).context.constraintTree k
        = some t ∧
      (c = d ↔ s = t) := by
  obtain ⟨hsplit, hkIssued, _⟩ := proper_append.mp h
  obtain ⟨hbefore, hjIssued, _⟩ := proper_append.mp hsplit
  have horderly := orderly_reached hsplit
  have hle := precedes_of_append (sound_start config digest) hsplit
  obtain ⟨c, d, u, v, hc, hd, hu, hv, hsame⟩ := interns_by_words h
  -- Both unfold, and at the second request their trees and words can be compared.
  obtain ⟨s, hs⟩ := (unfolds_reached hbefore).constraintTree hjIssued
  obtain ⟨t, ht⟩ := (unfolds_reached hsplit).constraintTree hkIssued
  have hsLater := Context.constraintTree_later hle hs
  have htrees : s = t ↔ u = v := Context.words_iff (horderly.faithful _) hsLater ht hu hv
  exact ⟨c, d, s, t, hc, hd, hs, ht, hsame.trans htrees.symm⟩

/-- Commands that build the negation of one literal twice. -/
def negations : List Command :=
  [.ask (.expr (.boolean true)), .ask (.expr (.unary .not ⟨0⟩)), .ask (.expr (.boolean true)),
    .ask (.expr (.unary .not ⟨2⟩))]

/-- The two negations make one constraint, also after it has become part of
another. -/
theorem constraints_unique_negations :
    (start .standard ConstraintTable.polynomialDigest).Proper
        (negations ++ .ask (.constraint (.predicate ⟨1⟩)) ::
          [.ask (.constraint (.conjunction ⟨0⟩ ⟨0⟩))] ++ [.ask (.constraint (.predicate ⟨3⟩))]) ∧
      ∃ c,
        (reached .standard ConstraintTable.polynomialDigest negations).Interns (.predicate ⟨1⟩) c ∧
        (reached .standard ConstraintTable.polynomialDigest
          (negations ++ .ask (.constraint (.predicate ⟨1⟩)) ::
            [.ask (.constraint (.conjunction ⟨0⟩ ⟨0⟩))])).Interns (.predicate ⟨3⟩) c := by
  have hproper : (start .standard ConstraintTable.polynomialDigest).Proper
      (negations ++ .ask (.constraint (.predicate ⟨1⟩)) ::
        [.ask (.constraint (.conjunction ⟨0⟩ ⟨0⟩))] ++ [.ask (.constraint (.predicate ⟨3⟩))]) := by
    decide +kernel
  obtain ⟨c, d, s, t, hc, hd, hs, ht, hsame⟩ := constraints_unique _ _ _ _ _ _ hproper
  have htree : s = t := by
    have hs' : (reached .standard ConstraintTable.polynomialDigest
        negations).context.constraintTree (.predicate ⟨1⟩) = some (.predicate (.mk .bool
          (.unary .not (.mk .bool (.boolean true))))) := rfl
    have ht' : (reached .standard ConstraintTable.polynomialDigest
          (negations ++ .ask (.constraint (.predicate ⟨1⟩)) ::
            [.ask (.constraint (.conjunction ⟨0⟩ ⟨0⟩))])).context.constraintTree (.predicate ⟨3⟩) =
        some (.predicate (.mk .bool (.unary .not (.mk .bool (.boolean true))))) := rfl
    rw [hs] at hs'
    rw [ht] at ht'
    exact (Option.some.inj hs').trans (Option.some.inj ht').symm
  exact ⟨hproper, c, hc, hsame.mpr htree ▸ hd⟩

end Workspace

end TermGraph
