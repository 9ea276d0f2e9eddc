import TermGraph.Proofs.Constraint.Filed
import TermGraph.Proofs.Constraint.Trees

/-!
# One level of unfolding

When the parts of nodes have trees, the nodes have (`Arena.level`), and more
deeply nested nodes are unfolded one level after another.  What is true of the
parts is carried one level further out here, whatever constraints are unfolded
to: a node has a tree when its parts have, two nodes have equal trees exactly
when their layouts match by the trees of the parts, and where equal trees of
parts are equal words, equal trees of nodes are (`Context.Readable.agrees_level`).
-/

namespace TermGraph

open List

variable {κ : Type} {o : Opening κ} {trees : ConsId → Option κ} {p q : Part} {ps qs : List Piece}

/-- Two parts that have trees have equal ones exactly when they have equal
words. -/
def Opening.AgreesWith (o : Opening κ) (opened : Part → Except Fault (List Nat)) : Prop :=
  ∀ p q, o.Opens p → o.Opens q → (o.Same p q ↔ SameWords opened p q)

namespace Arena

variable {a : Arena}

/-- The trees of the nodes whose parts have trees. -/
def level (a : Arena) (o : Opening κ) (trees : ConsId → Option κ) : Opening κ where
  name n := do (← a.names[n.index]?).expand o
  expr e := do (← a.exprs[e.index]?).expand o
  req r := do (← a.reqs[r.index]?).expand o
  constraint := trees

/-- A part that opens is a node that is there, and the parts of its layout
open one level further in. -/
theorem pieces_of_opens (h : (a.level o trees).Opens p) :
    ∃ ps, a.pieces p = .ok ps ∧ ∀ r, .part r ∈ ps → o.Opens r := by
  cases p with
  | name x =>
      obtain ⟨s, hs⟩ := Option.isSome_iff_exists.mp h
      obtain ⟨k, hk, hks⟩ := Option.bind_eq_some_iff.mp hs
      exact ⟨_, map_eq_ok.mpr ⟨k, fetch_eq_ok.mpr hk, rfl⟩, NameKind.opens_of_expand hks⟩
  | expr x =>
      obtain ⟨s, hs⟩ := Option.isSome_iff_exists.mp h
      obtain ⟨k, hk, hks⟩ := Option.bind_eq_some_iff.mp hs
      exact ⟨_, map_eq_ok.mpr ⟨k, fetch_eq_ok.mpr hk, rfl⟩, Expr.opens_of_expand hks⟩
  | req x =>
      obtain ⟨s, hs⟩ := Option.isSome_iff_exists.mp h
      obtain ⟨k, hk, hks⟩ := Option.bind_eq_some_iff.mp hs
      exact ⟨_, map_eq_ok.mpr ⟨k, fetch_eq_ok.mpr hk, rfl⟩, ReqKind.opens_of_expand hks⟩

/-- A node opens when the parts of its layout do, if all constraints have
trees. -/
theorem opens_of_pieces (hconstraint : ∀ c, (o.constraint c).isSome) (hps : a.pieces p = .ok ps)
    (hopen : ∀ r, .part r ∈ ps → o.Opens r) : (a.level o trees).Opens p := by
  cases p with
  | name x =>
      obtain ⟨k, hk, rfl⟩ := map_eq_ok.mp hps
      have hget : a.names[x.index]? = some k := fetch_eq_ok.mp hk
      have hexpand : (k.expand o).isSome := NameKind.expand_isSome.mpr
        ⟨fun r hr => hopen r (k.mem_parts.mp hr), fun c _ => hconstraint c⟩
      simpa [level, hget] using hexpand
  | expr x =>
      obtain ⟨k, hk, rfl⟩ := map_eq_ok.mp hps
      have hget : a.exprs[x.index]? = some k := fetch_eq_ok.mp hk
      have hexpand : (k.expand o).isSome := Expr.expand_isSome.mpr <| ExprKind.expand_isSome.mpr
        ⟨fun r hr => hopen r (mem_cons_of_mem _ (k.kind.mem_parts.mp hr)), fun c _ => hconstraint c⟩
      simpa [level, hget] using hexpand
  | req x =>
      obtain ⟨k, hk, rfl⟩ := map_eq_ok.mp hps
      have hget : a.reqs[x.index]? = some k := fetch_eq_ok.mp hk
      have hexpand : (k.expand o).isSome :=
        ReqKind.expand_isSome.mpr fun r hr => hopen r (k.mem_parts.mp hr)
      simpa [level, hget] using hexpand

/-- Two parts that open have the same tree exactly when they are of one
category and their layouts match by the trees one level further in. -/
theorem same_iff_match (hdistinct : o.Distinct) (hp : (a.level o trees).Opens p)
    (hq : (a.level o trees).Opens q) (hps : a.pieces p = .ok ps) (hqs : a.pieces q = .ok qs) :
    (a.level o trees).Same p q ↔
      p.category = q.category ∧ Forall₂ (Piece.Match o.Same) ps qs := by
  cases p <;> cases q
  case name.name x y =>
    obtain ⟨j, hj, rfl⟩ := map_eq_ok.mp hps
    obtain ⟨k, hk, rfl⟩ := map_eq_ok.mp hqs
    obtain ⟨s, hs⟩ := Option.isSome_iff_exists.mp hp
    obtain ⟨t, ht⟩ := Option.isSome_iff_exists.mp hq
    rw [Opening.same_name, hs, ht, Option.some.injEq]
    simp only [level, fetch_eq_ok.mp hj, fetch_eq_ok.mp hk] at hs ht
    rw [NameKind.tree_eq_iff hdistinct hs ht]
    exact (and_iff_right rfl).symm
  case expr.expr x y =>
    obtain ⟨j, hj, rfl⟩ := map_eq_ok.mp hps
    obtain ⟨k, hk, rfl⟩ := map_eq_ok.mp hqs
    obtain ⟨s, hs⟩ := Option.isSome_iff_exists.mp hp
    obtain ⟨t, ht⟩ := Option.isSome_iff_exists.mp hq
    rw [Opening.same_expr, hs, ht, Option.some.injEq]
    simp only [level, fetch_eq_ok.mp hj, fetch_eq_ok.mp hk] at hs ht
    rw [Expr.tree_eq_iff hdistinct hs ht]
    exact (and_iff_right rfl).symm
  case req.req x y =>
    obtain ⟨j, hj, rfl⟩ := map_eq_ok.mp hps
    obtain ⟨k, hk, rfl⟩ := map_eq_ok.mp hqs
    obtain ⟨s, hs⟩ := Option.isSome_iff_exists.mp hp
    obtain ⟨t, ht⟩ := Option.isSome_iff_exists.mp hq
    rw [Opening.same_req, hs, ht, Option.some.injEq]
    simp only [level, fetch_eq_ok.mp hj, fetch_eq_ok.mp hk] at hs ht
    rw [ReqKind.tree_eq_iff hs ht]
    exact (and_iff_right rfl).symm
  all_goals simp [Opening.Same, Part.category]

end Arena

namespace Context

variable {cx : Context}

/-- Two nodes of one category have equal words exactly when their layouts match
by the words of the parts. -/
theorem Readable.words_eq_iff (hcx : cx.Readable) (hcat : p.category = q.category)
    (hps : cx.arena.pieces p = .ok ps) (hqs : cx.arena.pieces q = .ok qs) :
    cx.arena.partWords p = cx.arena.partWords q ↔
      Forall₂ (Piece.Match (SameWords cx.arena.partWords)) ps qs := by
  obtain ⟨_, hpParts⟩ := Arena.parts_of_pieces hps
  obtain ⟨_, hqParts⟩ := Arena.parts_of_pieces hqs
  obtain ⟨u, hu⟩ := hcx p _ hpParts
  obtain ⟨v, hv⟩ := hcx q _ hqParts
  rw [Piece.match_iff_words cx.arena.prefixFree_partWords (Arena.inStep_pieces hcat hps hqs)
    (Arena.spread_partWords hps hu) (Arena.spread_partWords hqs hv), hu, hv, Except.ok.injEq]

/-- **One level further out equal trees are equal words.**  A tree is made of
the trees of parts, which are equal where words are. -/
theorem Readable.agrees_level (hcx : cx.Readable) (hdistinct : o.Distinct)
    (ho : o.AgreesWith cx.arena.partWords) :
    (cx.arena.level o trees).AgreesWith cx.arena.partWords := by
  intro p q hp hq
  obtain ⟨ps, hps, hpsOpen⟩ := Arena.pieces_of_opens hp
  obtain ⟨qs, hqs, hqsOpen⟩ := Arena.pieces_of_opens hq
  rw [Arena.same_iff_match hdistinct hp hq hps hqs, SameWords]
  refine and_congr_right fun hcat => ?_
  rw [hcx.words_eq_iff hcat hps hqs]
  exact Piece.match_congr fun r s hr hs => ho r s (hpsOpen r hr) (hqsOpen s hs)

end Context

end TermGraph
