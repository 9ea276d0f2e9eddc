import TermGraph.Proofs.Constraint.Levels

/-!
# Expressions, fully unfolded

What an expression says, with the handles of expressions, names and
requirements replaced by trees; types, declarations and constraints stay
handles (`Arena.exprTree`).  The name written in an id-expression or a member
access has no place in the tree.

Comparing two expressions is comparing their trees
(`Workspace.exprsAlike_iff_trees`).  The comparison goes by words, and words
are a flat writing of trees (`Context.Readable.agrees_opening`); that every
issued expression has a tree and words is because no node contains itself.  So
the comparison is an equivalence, and what it answered it answers for ever.
-/

namespace TermGraph

namespace Arena

variable {a : Arena} {p : Part}

/-- The trees of the nodes that are nested through at most `depth` nodes. -/
def opening (a : Arena) : Nat → Opening ConsId
  | 0 => ⟨fun _ => none, fun _ => none, fun _ => none, some⟩
  | depth + 1 => a.level (a.opening depth) some

/-- What an expression says, unfolded.  No node is nested deeper than there are
nodes. -/
def exprTree (a : Arena) (e : ExprId) : Option (ExprTree ConsId) := (a.opening a.depthBound).expr e

/-- The comparison answers that two parts are alike. -/
def Alike (a : Arena) (p q : Part) : Prop := a.partsAlike p q = .ok true

/-- What is alike stays alike. -/
theorem Alike.later {b : Arena} {q : Part} (hle : a.Precedes b) (h : a.Alike p q) : b.Alike p q :=
  partsAlike_later hle h

/-- Of parts that have words, being alike is having equal words. -/
theorem alike_iff_of_words {q : Part} {u v : List Nat} (hu : a.partWords p = .ok u)
    (hv : a.partWords q = .ok v) : a.Alike p q ↔ SameWords a.partWords p q := by
  obtain ⟨b, hb, hiff⟩ := a.decides_alikeWithin a.depthBound hu hv
  have hanswer : a.partsAlike p q = .ok b := hb
  rw [Alike, hanswer, Except.ok.injEq]
  exact hiff

/-- Constraints are not unfolded: each is its own tree. -/
theorem opening_constraint (a : Arena) (depth : Nat) (c : ConsId) :
    (a.opening depth).constraint c = some c := by
  cases depth <;> rfl

/-- So equal trees of constraints come from equal handles. -/
theorem distinct_opening (a : Arena) (depth : Nat) : (a.opening depth).Distinct := by
  intro c d s hc hd
  rw [opening_constraint] at hc hd
  exact (Option.some.inj hc).trans (Option.some.inj hd).symm

/-- What has words has a tree. -/
theorem opens_of_words {depth : Nat} {u : List Nat} (h : a.wordsWithin depth p = .ok u) :
    (a.opening depth).Opens p := by
  induction depth generalizing p u with
  | zero => cases h
  | succ depth ih =>
      obtain ⟨ps, hps, hspread⟩ := wordsWithin_succ_eq_ok.mp h
      refine opens_of_pieces (fun c => ?_) hps fun q hq => ?_
      · rw [opening_constraint, Option.isSome_some]
      · obtain ⟨v, hv⟩ := Piece.opened_of_spread hspread hq
        exact ih hv

/-- Expressions that are alike are of one type. -/
theorem Alike.exprType_eq {x y : ExprId} (h : a.Alike (.expr x) (.expr y)) :
    a.exprType x = a.exprType y := by
  rw [Alike, partsAlike, depthBound, alikeWithin] at h
  by_cases hxy : x = y
  · rw [hxy]
  · rw [if_neg hxy] at h
    obtain ⟨j, hj, h⟩ := bind_eq_ok.mp h
    obtain ⟨k, hk, h⟩ := bind_eq_ok.mp h
    have hty : j.ty = k.ty := by
      by_contra hne
      simp [Demand.settle, hne, pure, Except.pure] at h
    rw [exprType, exprType, hj, hk]
    exact congrArg Except.ok hty

end Arena

namespace Context

variable {cx : Context} {p q : Part} {x y : ExprId}

/-- **Level by level, equal trees are equal words.** -/
theorem Readable.agrees_opening (hcx : cx.Readable) (depth : Nat) :
    (cx.arena.opening depth).AgreesWith cx.arena.partWords := by
  induction depth with
  | zero =>
      intro p q hp
      cases p <;> cases hp
  | succ depth ih => exact hcx.agrees_level (cx.arena.distinct_opening depth) ih

/-- Two issued parts are compared by their words. -/
theorem Readable.partsAlike_eq_ok (hcx : cx.Readable) (hp : cx.Issued p.any.2)
    (hq : cx.Issued q.any.2) :
    ∃ b, cx.arena.partsAlike p q = .ok b ∧ (b = true ↔ SameWords cx.arena.partWords p q) := by
  obtain ⟨u, hu⟩ := hcx.partWords hp
  obtain ⟨v, hv⟩ := hcx.partWords hq
  exact cx.arena.decides_alikeWithin cx.arena.depthBound hu hv

/-- For issued parts, being alike is having equal words. -/
theorem Readable.alike_iff (hcx : cx.Readable) (hp : cx.Issued p.any.2) (hq : cx.Issued q.any.2) :
    cx.arena.Alike p q ↔ SameWords cx.arena.partWords p q := by
  obtain ⟨u, hu⟩ := hcx.partWords hp
  obtain ⟨v, hv⟩ := hcx.partWords hq
  exact Arena.alike_iff_of_words hu hv

/-- Whether issued parts are alike does not change. -/
theorem Readable.alike_later_iff (hcx : cx.Readable) {b : Arena} (hle : cx.arena.Precedes b)
    (hp : cx.Issued p.any.2) (hq : cx.Issued q.any.2) : b.Alike p q ↔ cx.arena.Alike p q := by
  obtain ⟨v, hv, _⟩ := hcx.partsAlike_eq_ok hp hq
  rw [Arena.Alike, Arena.Alike, hv, Arena.partsAlike_later hle hv]

/-- **Node by node.**  Two nodes of one category are alike exactly when their
layouts match by what is alike. -/
theorem Readable.alike_iff_pieces (hcx : cx.Readable) {ps qs : List Piece}
    (hcat : p.category = q.category) (hps : cx.arena.pieces p = .ok ps)
    (hqs : cx.arena.pieces q = .ok qs) :
    cx.arena.Alike p q ↔ List.Forall₂ (Piece.Match cx.arena.Alike) ps qs := by
  obtain ⟨_, hpParts⟩ := Arena.parts_of_pieces hps
  obtain ⟨_, hqParts⟩ := Arena.parts_of_pieces hqs
  obtain ⟨u, hu⟩ := hcx p _ hpParts
  obtain ⟨v, hv⟩ := hcx q _ hqParts
  rw [Arena.alike_iff_of_words hu hv, SameWords, and_iff_right hcat,
    hcx.words_eq_iff hcat hps hqs]
  refine Piece.match_congr fun r s hr hs => ?_
  obtain ⟨_, hrWords⟩ := Piece.opened_of_spread (Arena.spread_partWords hps hu) hr
  obtain ⟨_, hsWords⟩ := Piece.opened_of_spread (Arena.spread_partWords hqs hv) hs
  exact (Arena.alike_iff_of_words hrWords hsWords).symm

/-- Two expressions are alike when they have one type and match. -/
theorem Readable.alike_iff_exprs (hcx : cx.Readable) {j k : Expr}
    (hj : cx.arena.expr x = .ok j) (hk : cx.arena.expr y = .ok k) :
    cx.arena.Alike (.expr x) (.expr y) ↔
      j.ty = k.ty ∧ List.Forall₂ (Piece.Match cx.arena.Alike) j.kind.pieces k.kind.pieces := by
  rw [hcx.alike_iff_pieces (p := .expr x) (q := .expr y) rfl (map_eq_ok.mpr ⟨j, hj, rfl⟩)
    (map_eq_ok.mpr ⟨k, hk, rfl⟩), List.forall₂_cons, Piece.match_word_word, Handle.index_inj]

/-- **Comparing expressions is comparing trees.** -/
theorem Readable.exprsAlike_eq_ok (hcx : cx.Readable) (hx : cx.Issued x) (hy : cx.Issued y) :
    ∃ b s t, cx.arena.exprsAlike x y = .ok b ∧ cx.arena.exprTree x = some s ∧
      cx.arena.exprTree y = some t ∧ (b = true ↔ s = t) := by
  obtain ⟨b, hb, hiff⟩ := hcx.partsAlike_eq_ok (p := .expr x) (q := .expr y) hx hy
  obtain ⟨u, hu⟩ := hcx.partWords (p := .expr x) hx
  obtain ⟨v, hv⟩ := hcx.partWords (p := .expr y) hy
  have hxOpens := Arena.opens_of_words hu
  have hyOpens := Arena.opens_of_words hv
  obtain ⟨s, hs⟩ := Option.isSome_iff_exists.mp hxOpens
  obtain ⟨t, ht⟩ := Option.isSome_iff_exists.mp hyOpens
  refine ⟨b, s, t, hb, hs, ht, ?_⟩
  rw [hiff, ← hcx.agrees_opening _ _ _ hxOpens hyOpens, Opening.same_expr, hs, ht,
    Option.some.injEq]

/-- Being alike is an equivalence of the expressions issued. -/
theorem Readable.equivalence_alike (hcx : cx.Readable) :
    Equivalence fun x y : { e : ExprId // cx.Issued e } =>
      cx.arena.Alike (.expr x) (.expr y) := by
  have hwords (x y : { e : ExprId // cx.Issued e }) : cx.arena.Alike (.expr x) (.expr y) ↔
      cx.arena.partWords (.expr x) = cx.arena.partWords (.expr y) :=
    (hcx.alike_iff (p := .expr x) (q := .expr y) x.2 y.2).trans (and_iff_right rfl)
  simp only [hwords]
  exact ⟨fun x => rfl, Eq.symm, Eq.trans⟩

end Context

namespace Workspace

/-- **Equivalence of expressions is equality of trees.**  In every state of a
proper run, two issued expressions are compared without a fault, both unfold,
and they are alike if and only if their trees are equal; at any later state of
the run the comparison answers the same.  So being alike is an equivalence. -/
theorem exprsAlike_iff_trees (config : Config) (digest : List Nat → UInt64)
    (commands more : List Command) (h : (start config digest).Proper (commands ++ more)) :
    (∀ x y : ExprId, (reached config digest commands).context.Issued x →
      (reached config digest commands).context.Issued y →
      ∃ b s t, (reached config digest commands).context.arena.exprsAlike x y = .ok b ∧
        (reached config digest commands).context.arena.exprTree x = some s ∧
        (reached config digest commands).context.arena.exprTree y = some t ∧
        (b = true ↔ s = t) ∧
        (reached config digest (commands ++ more)).context.arena.exprsAlike x y = .ok b) ∧
    Equivalence fun x y : { e : ExprId // (reached config digest commands).context.Issued e } =>
      (reached config digest commands).context.arena.Alike (.expr x) (.expr y) := by
  have hreadable := (orderly_reached (proper_append.mp h).1).readable
  have hle := precedes_of_append (sound_start config digest) h
  refine ⟨fun x y hx hy => ?_, hreadable.equivalence_alike⟩
  obtain ⟨b, s, t, hb, hs, ht, hiff⟩ := hreadable.exprsAlike_eq_ok hx hy
  exact ⟨b, s, t, hb, hs, ht, hiff, Arena.partsAlike_later hle.arena hb⟩

/-- Commands that write one literal twice and add the writings up, in either
order. -/
def sumsRun : List Command :=
  [.ask (.expr (.int 3)), .ask (.expr (.int 3)), .ask (.expr (.binary .add ⟨0⟩ ⟨1⟩)),
    .ask (.expr (.binary .add ⟨1⟩ ⟨0⟩))]

/-- The sums are alike, and stay so. -/
theorem exprsAlike_iff_trees_sumsRun :
    (start .standard ConstraintTable.polynomialDigest).Proper
        (sumsRun ++ [.ask (.constraint (.predicate ⟨2⟩))]) ∧
      (reached .standard ConstraintTable.polynomialDigest sumsRun).context.arena.exprsAlike ⟨2⟩ ⟨3⟩
        = .ok true ∧
      (reached .standard ConstraintTable.polynomialDigest
        (sumsRun ++ [.ask (.constraint (.predicate ⟨2⟩))])).context.arena.exprsAlike ⟨2⟩ ⟨3⟩
        = .ok true := by
  have hproper : (start .standard ConstraintTable.polynomialDigest).Proper
      (sumsRun ++ [.ask (.constraint (.predicate ⟨2⟩))]) := by decide +kernel
  obtain ⟨halike, _⟩ := exprsAlike_iff_trees _ _ _ _ hproper
  obtain ⟨b, s, t, hb, hs, ht, hiff, hlater⟩ := halike ⟨2⟩ ⟨3⟩ (by decide +kernel)
    (by decide +kernel)
  have htrees : (reached .standard ConstraintTable.polynomialDigest sumsRun).context.arena.exprTree
      ⟨2⟩ = (reached .standard ConstraintTable.polynomialDigest sumsRun).context.arena.exprTree
        ⟨3⟩ := rfl
  obtain rfl : b = true := by
    rw [hs, ht] at htrees
    exact hiff.mpr (Option.some.inj htrees)
  exact ⟨hproper, hb, hlater⟩

end Workspace

end TermGraph
