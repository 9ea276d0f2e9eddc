import TermGraph.Proofs.Constraint.Reading
import TermGraph.Proofs.Growth

/-!
# Alike means equal words

The comparison of two nodes and the words of a node walk through the same
parts, so they can be followed side by side.  A demand is settled by the
comparison of two parts, and that comparison, one level further in, tells
whether the words of the two parts are equal.  For this to say anything about
the nodes around them, the words of a part must not run into what follows:
they are free of prefixes (`Arena.prefixFree_wordsWithin`), because layouts
are read in step.

The result is `Arena.constraintsAlike_eq_ok`: of two constraints that have
words, the comparison answers, and it answers that they are alike exactly when
their words are equal.  While the arena grows neither the words of a node change
(`Arena.constraintWords_later`) nor what a comparison answered
(`Arena.partsAlike_later`).
-/

namespace TermGraph

open List

namespace Piece

variable {opened later : Part → Except Fault (List Nat)} {ps qs : List Piece}

/-- A word comes before the words of what follows. -/
theorem spread_word_eq_ok {w : Nat} {u : List Nat} :
    spread opened (.word w :: ps) = .ok u ↔ ∃ v, spread opened ps = .ok v ∧ w :: v = u := by
  rw [spread, bind_eq_ok]
  exact exists_congr fun v => and_congr_right fun _ => ⟨Except.ok.inj, congrArg _⟩

/-- The words of a part come before the words of what follows. -/
theorem spread_part_eq_ok {p : Part} {u : List Nat} :
    spread opened (.part p :: ps) = .ok u ↔
      ∃ v, opened p = .ok v ∧ ∃ w, spread opened ps = .ok w ∧ v ++ w = u := by
  simp only [spread, bind_eq_ok]
  exact exists_congr fun v => and_congr_right fun _ => exists_congr fun w =>
    and_congr_right fun _ => ⟨Except.ok.inj, congrArg _⟩

/-- Pieces have words when their parts have. -/
theorem spread_isOk (h : ∀ p, .part p ∈ ps → ∃ u, opened p = .ok u) :
    ∃ u, spread opened ps = .ok u := by
  induction ps with
  | nil => exact ⟨[], rfl⟩
  | cons piece ps ih =>
      obtain ⟨v, hv⟩ := ih fun p hp => h p (mem_cons_of_mem _ hp)
      cases piece with
      | word w => exact ⟨w :: v, spread_word_eq_ok.mpr ⟨v, hv, rfl⟩⟩
      | part p =>
        obtain ⟨u, hu⟩ := h p mem_cons_self
        exact ⟨u ++ v, spread_part_eq_ok.mpr ⟨u, hu, v, hv, rfl⟩⟩

/-- The parts of pieces that have words have words. -/
theorem opened_of_spread {u : List Nat} (h : spread opened ps = .ok u) {p : Part}
    (hp : .part p ∈ ps) : ∃ v, opened p = .ok v := by
  induction ps generalizing u with
  | nil => cases hp
  | cons piece ps ih =>
      cases piece with
      | word w =>
        obtain ⟨v, hv, _⟩ := spread_word_eq_ok.mp h
        exact ih hv (by simpa using hp)
      | part q =>
        obtain ⟨v, hv, w, hw, _⟩ := spread_part_eq_ok.mp h
        rcases mem_cons.mp hp with heq | hmem
        · cases heq
          exact ⟨v, hv⟩
        · exact ih hw hmem

/-- What more parts have words for, pieces have the same words for. -/
theorem spread_mono (hlater : ∀ p v, opened p = .ok v → later p = .ok v) {u : List Nat}
    (h : spread opened ps = .ok u) : spread later ps = .ok u := by
  induction ps generalizing u with
  | nil => exact h
  | cons piece ps ih =>
      cases piece with
      | word w =>
        obtain ⟨v, hv, hu⟩ := spread_word_eq_ok.mp h
        exact spread_word_eq_ok.mpr ⟨v, ih hv, hu⟩
      | part q =>
        obtain ⟨v, hv, w, hw, hu⟩ := spread_part_eq_ok.mp h
        exact spread_part_eq_ok.mpr ⟨v, hlater q v hv, w, ih hw, hu⟩

end Piece

/-! ## Words are not run together -/

/-- Two parts of one category with the same words. -/
def SameWords (opened : Part → Except Fault (List Nat)) (p q : Part) : Prop :=
  p.category = q.category ∧ opened p = opened q

/-- Of two parts of one category, neither has words that begin those of the
other and are fewer. -/
def PrefixFree (opened : Part → Except Fault (List Nat)) : Prop :=
  ∀ ⦃p q : Part⦄ ⦃u v r s : List Nat⦄, p.category = q.category → opened p = .ok u →
    opened q = .ok v → u ++ r = v ++ s → u = v

section Spread

variable {opened : Part → Except Fault (List Nat)} {ps qs : List Piece}

/-- Layouts that match under a relation match under another that their parts
are in as well. -/
theorem Piece.match_mono {r r' : Part → Part → Prop}
    (h : ∀ p q, .part p ∈ ps → .part q ∈ qs → r p q → r' p q)
    (hmatch : Forall₂ (Piece.Match r) ps qs) : Forall₂ (Piece.Match r') ps qs := by
  induction hmatch with
  | nil => exact .nil
  | @cons p q ps qs hpq _ ih =>
      refine .cons ?_ (ih fun x y hx hy => h x y (mem_cons_of_mem _ hx) (mem_cons_of_mem _ hy))
      cases p <;> cases q
      case part.part x y => exact h x y mem_cons_self mem_cons_self hpq
      all_goals exact hpq

/-- Layouts match alike under relations that agree on their parts. -/
theorem Piece.match_congr {r r' : Part → Part → Prop}
    (h : ∀ p q, .part p ∈ ps → .part q ∈ qs → (r p q ↔ r' p q)) :
    Forall₂ (Piece.Match r) ps qs ↔ Forall₂ (Piece.Match r') ps qs :=
  ⟨Piece.match_mono fun p q hp hq => (h p q hp hq).mp,
    Piece.match_mono fun p q hp hq => (h p q hp hq).mpr⟩

/-- Layouts that match have the same words. -/
theorem Piece.spread_eq_of_match (h : Forall₂ (Piece.Match (SameWords opened)) ps qs) :
    Piece.spread opened ps = Piece.spread opened qs := by
  induction h with
  | nil => rfl
  | @cons p q ps qs hpq _ ih =>
      cases p <;> cases q
      case word.word v w =>
        rw [(Piece.match_word_word _ _ _).mp hpq, Piece.spread, Piece.spread, ih]
      case part.part p q =>
        rw [Piece.spread, Piece.spread, ih, ((Piece.match_part_part _ _ _).mp hpq).2]
      case word.part | part.word => exact absurd hpq (by simp)

/-- **Words have one reading.**  When layouts that are read in step have words
that agree as far as both go, the layouts match, and the words end together. -/
theorem Piece.match_of_spread_append (hfree : PrefixFree opened) (hstep : Piece.InStep ps qs)
    {u v r s : List Nat} (hu : Piece.spread opened ps = .ok u)
    (hv : Piece.spread opened qs = .ok v) (h : u ++ r = v ++ s) :
    Forall₂ (Piece.Match (SameWords opened)) ps qs ∧ r = s := by
  fun_induction Piece.InStep ps qs generalizing u v with
  | case1 =>
      cases hu
      cases hv
      exact ⟨.nil, h⟩
  | case2 w ps x qs ih =>
      obtain ⟨u', hu', rfl⟩ := Piece.spread_word_eq_ok.mp hu
      obtain ⟨v', hv', rfl⟩ := Piece.spread_word_eq_ok.mp hv
      obtain ⟨rfl, htail⟩ := cons.inj h
      obtain ⟨hmatch, hrest⟩ := ih (hstep rfl) hu' hv' htail
      exact ⟨.cons rfl hmatch, hrest⟩
  | case3 p ps q qs ih =>
      obtain ⟨hcat, hstep⟩ := hstep
      obtain ⟨u₀, hp, u', hu', rfl⟩ := Piece.spread_part_eq_ok.mp hu
      obtain ⟨v₀, hq, v', hv', rfl⟩ := Piece.spread_part_eq_ok.mp hv
      rw [append_assoc, append_assoc] at h
      obtain rfl := hfree hcat hp hq h
      obtain ⟨hmatch, hrest⟩ := ih hstep hu' hv' (append_cancel_left h)
      exact ⟨.cons ⟨hcat, hp.trans hq.symm⟩ hmatch, hrest⟩
  | case4 => exact hstep.elim

/-- Layouts that are read in step match exactly when their words are equal. -/
theorem Piece.match_iff_words (hfree : PrefixFree opened) (hstep : Piece.InStep ps qs)
    {u v : List Nat} (hu : Piece.spread opened ps = .ok u) (hv : Piece.spread opened qs = .ok v) :
    Forall₂ (Piece.Match (SameWords opened)) ps qs ↔ u = v := by
  constructor
  · intro h
    exact Except.ok.inj (hu.symm.trans ((Piece.spread_eq_of_match h).trans hv))
  · rintro rfl
    exact (Piece.match_of_spread_append (r := []) (s := []) hfree hstep hu hv rfl).1

end Spread

/-! ## Demands are settled by words -/

/-- Of parts that have words, the comparison tells whether the words are
equal. -/
def Decides (alike? : Part → Part → Except Fault Bool) (opened : Part → Except Fault (List Nat)) :
    Prop :=
  ∀ ⦃p q : Part⦄ ⦃u v : List Nat⦄, opened p = .ok u → opened q = .ok v →
    ∃ b, alike? p q = .ok b ∧ (b = true ↔ SameWords opened p q)

/-- Demands are settled by whether all of them hold, if the parts that they
are about can be compared. -/
theorem Demand.settle_eq_ok {alike? : Part → Part → Except Fault Bool} {alike : Part → Part → Prop}
    {ds : List Demand}
    (h : ∀ x y, .alike x y ∈ ds → ∃ b, alike? x y = .ok b ∧ (b = true ↔ alike x y)) :
    ∃ b, Demand.settle alike? ds = .ok b ∧ (b = true ↔ ∀ d ∈ ds, d.Holds alike) := by
  induction ds with
  | nil => exact ⟨true, rfl, by simp⟩
  | cons d ds ih =>
      obtain ⟨b, hb, hiff⟩ := ih fun x y hxy => h x y (mem_cons_of_mem _ hxy)
      cases d with
      | holds first =>
        cases first with
        | true => exact ⟨b, hb, by simpa using hiff⟩
        | false => exact ⟨false, rfl, by simp⟩
      | alike x y =>
        obtain ⟨first, hfirst, hfirstIff⟩ := h x y mem_cons_self
        cases first with
        | true =>
          refine ⟨b, bind_eq_ok.mpr ⟨true, hfirst, hb⟩, ?_⟩
          rw [forall_mem_cons, Demand.alike_iff, ← hfirstIff, hiff]
          simp
        | false =>
          refine ⟨false, bind_eq_ok.mpr ⟨false, hfirst, rfl⟩, ?_⟩
          rw [forall_mem_cons, Demand.alike_iff, ← hfirstIff]
          simp

/-- Demands that fit two layouts are settled by whether these have the same
words. -/
theorem Demand.Fit.settle {alike? : Part → Part → Except Fault Bool}
    {opened : Part → Except Fault (List Nat)} {ds : List Demand} {ps qs : List Piece}
    (hfit : Demand.Fit ds ps qs) (hfree : PrefixFree opened) (hdecides : Decides alike? opened)
    {u v : List Nat} (hu : Piece.spread opened ps = .ok u) (hv : Piece.spread opened qs = .ok v) :
    ∃ b, Demand.settle alike? ds = .ok b ∧ (b = true ↔ u = v) := by
  have hparts (x y : Part) (hxy : .alike x y ∈ ds) :
      ∃ b, alike? x y = .ok b ∧ (b = true ↔ SameWords opened x y) := by
    obtain ⟨hx, hy⟩ := hfit.within _ hxy
    obtain ⟨_, hwx⟩ := Piece.opened_of_spread hu hx
    obtain ⟨_, hwy⟩ := Piece.opened_of_spread hv hy
    exact hdecides hwx hwy
  obtain ⟨b, hb, hiff⟩ := Demand.settle_eq_ok hparts
  exact ⟨b, hb, hiff.trans ((hfit.holds_iff _).trans
    (Piece.match_iff_words hfree hfit.inStep hu hv))⟩

namespace Arena

/-- Two parts of one category are read in step. -/
theorem inStep_pieces {a : Arena} {p q : Part} {ps qs : List Piece}
    (hcat : p.category = q.category) (hp : a.pieces p = .ok ps) (hq : a.pieces q = .ok qs) :
    Piece.InStep ps qs := by
  cases p <;> cases q <;> try exact Category.noConfusion hcat
  all_goals
    obtain ⟨j, _, rfl⟩ := map_eq_ok.mp hp
    obtain ⟨k, _, rfl⟩ := map_eq_ok.mp hq
  case name.name => exact (j.fit k).inStep
  case expr.expr => exact (j.fit k).inStep
  case req.req => exact (j.fit k).inStep

/-- A part has words one level further out when its layout has. -/
theorem wordsWithin_succ_eq_ok {a : Arena} {depth : Nat} {p : Part} {u : List Nat} :
    a.wordsWithin (depth + 1) p = .ok u ↔
      ∃ ps, a.pieces p = .ok ps ∧ Piece.spread (a.wordsWithin depth) ps = .ok u :=
  bind_eq_ok

/-- Parts of one category do not begin with each other's words. -/
theorem prefixFree_wordsWithin (a : Arena) (depth : Nat) : PrefixFree (a.wordsWithin depth) := by
  induction depth with
  | zero =>
      intro p q u v r s _ hu
      cases hu
  | succ depth ih =>
      intro p q u v r s hcat hu hv h
      obtain ⟨ps, hp, hu⟩ := wordsWithin_succ_eq_ok.mp hu
      obtain ⟨qs, hq, hv⟩ := wordsWithin_succ_eq_ok.mp hv
      obtain ⟨hmatch, _⟩ :=
        Piece.match_of_spread_append ih (inStep_pieces hcat hp hq) hu hv h
      exact (Piece.match_iff_words ih (inStep_pieces hcat hp hq) hu hv).mp hmatch

/-- No part's words are the beginning of another's of its category, whatever
follows. -/
theorem prefixFree_partWords (a : Arena) : PrefixFree a.partWords :=
  a.prefixFree_wordsWithin a.depthBound

/-- **Comparing is comparing words.**  Two parts whose nodes are nested less
than `depth` deep are compared without a fault, and they are alike exactly
when they are of one category and have the same words. -/
theorem decides_alikeWithin (a : Arena) (depth : Nat) :
    Decides (a.alikeWithin depth) (a.wordsWithin depth) := by
  induction depth with
  | zero =>
      intro p q u v hu
      cases hu
  | succ depth ih =>
      intro p q u v hu hv
      have hwords : a.wordsWithin (depth + 1) p = a.wordsWithin (depth + 1) q ↔ u = v := by
        rw [hu, hv, Except.ok.injEq]
      obtain ⟨ps, hp, hu⟩ := wordsWithin_succ_eq_ok.mp hu
      obtain ⟨qs, hq, hv⟩ := wordsWithin_succ_eq_ok.mp hv
      -- Whatever the category, the demands are settled one level further in.
      have hsettle {ds : List Demand} (hfit : Demand.Fit ds ps qs) :
          ∃ b, Demand.settle (a.alikeWithin depth) ds = .ok b ∧
            (b = true ↔ a.wordsWithin (depth + 1) p = a.wordsWithin (depth + 1) q) := by
        obtain ⟨b, hb, hiff⟩ := hfit.settle (a.prefixFree_wordsWithin depth) ih hu hv
        exact ⟨b, hb, hiff.trans hwords.symm⟩
      cases p <;> cases q
      case name.name x y =>
        obtain ⟨j, hj, rfl⟩ := map_eq_ok.mp hp
        obtain ⟨k, hk, rfl⟩ := map_eq_ok.mp hq
        by_cases hxy : x = y
        · exact ⟨true, by rw [alikeWithin, if_pos hxy]; rfl, by simp [SameWords, hxy]⟩
        · obtain ⟨b, hb, hiff⟩ := hsettle (j.fit k)
          refine ⟨b, ?_, hiff.trans (and_iff_right rfl).symm⟩
          rw [alikeWithin, if_neg hxy]
          exact bind_eq_ok.mpr ⟨j, hj, bind_eq_ok.mpr ⟨k, hk, hb⟩⟩
      case expr.expr x y =>
        obtain ⟨j, hj, rfl⟩ := map_eq_ok.mp hp
        obtain ⟨k, hk, rfl⟩ := map_eq_ok.mp hq
        by_cases hxy : x = y
        · exact ⟨true, by rw [alikeWithin, if_pos hxy]; rfl, by simp [SameWords, hxy]⟩
        · obtain ⟨b, hb, hiff⟩ := hsettle (j.fit k)
          refine ⟨b, ?_, hiff.trans (and_iff_right rfl).symm⟩
          rw [alikeWithin, if_neg hxy]
          exact bind_eq_ok.mpr ⟨j, hj, bind_eq_ok.mpr ⟨k, hk, hb⟩⟩
      case req.req x y =>
        obtain ⟨j, hj, rfl⟩ := map_eq_ok.mp hp
        obtain ⟨k, hk, rfl⟩ := map_eq_ok.mp hq
        obtain ⟨b, hb, hiff⟩ := hsettle (j.fit k)
        refine ⟨b, ?_, hiff.trans (and_iff_right rfl).symm⟩
        exact bind_eq_ok.mpr ⟨j, hj, bind_eq_ok.mpr ⟨k, hk, hb⟩⟩
      all_goals exact ⟨false, rfl, by simp [SameWords, Part.category]⟩

/-- **Alike means equal words.**  Of two constraints that have words the
comparison answers, and they are alike exactly when their words are equal. -/
theorem constraintsAlike_eq_ok {a : Arena} {j k : ConstraintKind} {u v : List Nat}
    (hu : a.constraintWords j = .ok u) (hv : a.constraintWords k = .ok v) :
    ∃ b, a.constraintsAlike j k = .ok b ∧ (b = true ↔ u = v) :=
  (j.fit k).settle a.prefixFree_partWords (a.decides_alikeWithin a.depthBound) hu hv

/-! ## Words do not change -/

variable {a b : Arena}

/-- A part keeps its layout. -/
theorem pieces_later (hle : a.Precedes b) {p : Part} {ps : List Piece} (h : a.pieces p = .ok ps) :
    b.pieces p = .ok ps := by
  cases p with
  | name n =>
      obtain ⟨k, hk, hps⟩ := map_eq_ok.mp h
      exact map_eq_ok.mpr ⟨k, fetch_later hle.names hk, hps⟩
  | expr e =>
      obtain ⟨k, hk, hps⟩ := map_eq_ok.mp h
      exact map_eq_ok.mpr ⟨k, fetch_later hle.exprs hk, hps⟩
  | req r =>
      obtain ⟨k, hk, hps⟩ := map_eq_ok.mp h
      exact map_eq_ok.mpr ⟨k, fetch_later hle.reqs hk, hps⟩

/-- A part that has words has the same in a later arena, and when it may be
nested deeper. -/
theorem wordsWithin_later (hle : a.Precedes b) {m n : Nat} (hmn : m ≤ n) {p : Part} {u : List Nat}
    (h : a.wordsWithin m p = .ok u) : b.wordsWithin n p = .ok u := by
  induction n generalizing m p u with
  | zero =>
      obtain rfl := Nat.le_zero.mp hmn
      cases h
  | succ n ih =>
      cases m with
      | zero => cases h
      | succ m =>
        obtain ⟨ps, hps, h⟩ := wordsWithin_succ_eq_ok.mp h
        refine wordsWithin_succ_eq_ok.mpr ⟨ps, pieces_later hle hps, ?_⟩
        exact Piece.spread_mono (fun _ _ => ih (Nat.le_of_succ_le_succ hmn)) h

/-- The bound on the depth never shrinks. -/
theorem depthBound_later (hle : a.Precedes b) : a.depthBound ≤ b.depthBound := by
  have hnames := hle.names.length_le
  have hexprs := hle.exprs.length_le
  have hreqs := hle.reqs.length_le
  simp only [Array.length_toList] at hnames hexprs hreqs
  unfold depthBound
  omega

/-- A part that has words has the same later. -/
theorem partWords_later (hle : a.Precedes b) {p : Part} {u : List Nat} (h : a.partWords p = .ok u) :
    b.partWords p = .ok u :=
  wordsWithin_later hle (depthBound_later hle) h

/-- The words of a part are those of its layout. -/
theorem spread_partWords {p : Part} {ps : List Piece} {u : List Nat} (hps : a.pieces p = .ok ps)
    (h : a.partWords p = .ok u) : Piece.spread a.partWords ps = .ok u := by
  obtain ⟨ps', hps', hspread⟩ := wordsWithin_succ_eq_ok.mp h
  obtain rfl := Except.ok.inj (hps'.symm.trans hps)
  exact Piece.spread_mono (fun _ _ => wordsWithin_later (.refl a) (Nat.le_succ _)) hspread

/-- The words of a constraint are the same in every later arena. -/
theorem constraintWords_later (hle : a.Precedes b) {k : ConstraintKind} {u : List Nat}
    (h : a.constraintWords k = .ok u) : b.constraintWords k = .ok u :=
  Piece.spread_mono (fun _ _ => partWords_later hle) h

end Arena

/-! ## Comparisons do not change -/

/-- What more comparisons answer, demands are settled by in the same way. -/
theorem Demand.settle_mono {alike? later? : Part → Part → Except Fault Bool} {ds : List Demand}
    (hlater : ∀ p q v, alike? p q = .ok v → later? p q = .ok v) {v : Bool}
    (h : settle alike? ds = .ok v) : settle later? ds = .ok v := by
  induction ds with
  | nil => exact h
  | cons d ds ih =>
      cases d with
      | holds holds =>
        cases holds with
        | true => exact ih h
        | false => exact h
      | alike x y =>
        obtain ⟨first, hfirst, hrest⟩ := bind_eq_ok.mp h
        refine bind_eq_ok.mpr ⟨first, hlater x y first hfirst, ?_⟩
        cases first with
        | true => exact ih hrest
        | false => exact hrest

namespace Arena

variable {a b : Arena}

/-- Two parts that were compared are compared with the same result in a later
arena, and when they may be nested deeper. -/
theorem alikeWithin_later (hle : a.Precedes b) {m n : Nat} (hmn : m ≤ n) {p q : Part} {v : Bool}
    (h : a.alikeWithin m p q = .ok v) : b.alikeWithin n p q = .ok v := by
  induction n generalizing m p q v with
  | zero =>
      obtain rfl := Nat.le_zero.mp hmn
      cases h
  | succ n ih =>
      cases m with
      | zero => cases h
      | succ m =>
        have hparts (x y : Part) (v : Bool) : a.alikeWithin m x y = .ok v →
            b.alikeWithin n x y = .ok v := ih (Nat.le_of_succ_le_succ hmn)
        cases p <;> cases q
        case name.name x y =>
          rw [alikeWithin] at h ⊢
          by_cases hxy : x = y
          · rwa [if_pos hxy] at h ⊢
          · rw [if_neg hxy] at h ⊢
            obtain ⟨j, hj, h⟩ := bind_eq_ok.mp h
            obtain ⟨k, hk, h⟩ := bind_eq_ok.mp h
            exact bind_eq_ok.mpr ⟨j, fetch_later hle.names hj,
              bind_eq_ok.mpr ⟨k, fetch_later hle.names hk, Demand.settle_mono hparts h⟩⟩
        case expr.expr x y =>
          rw [alikeWithin] at h ⊢
          by_cases hxy : x = y
          · rwa [if_pos hxy] at h ⊢
          · rw [if_neg hxy] at h ⊢
            obtain ⟨j, hj, h⟩ := bind_eq_ok.mp h
            obtain ⟨k, hk, h⟩ := bind_eq_ok.mp h
            exact bind_eq_ok.mpr ⟨j, fetch_later hle.exprs hj,
              bind_eq_ok.mpr ⟨k, fetch_later hle.exprs hk, Demand.settle_mono hparts h⟩⟩
        case req.req x y =>
          rw [alikeWithin] at h ⊢
          obtain ⟨j, hj, h⟩ := bind_eq_ok.mp h
          obtain ⟨k, hk, h⟩ := bind_eq_ok.mp h
          exact bind_eq_ok.mpr ⟨j, fetch_later hle.reqs hj,
            bind_eq_ok.mpr ⟨k, fetch_later hle.reqs hk, Demand.settle_mono hparts h⟩⟩
        all_goals exact h

/-- A comparison that was answered is answered the same later. -/
theorem partsAlike_later (hle : a.Precedes b) {p q : Part} {v : Bool}
    (h : a.partsAlike p q = .ok v) : b.partsAlike p q = .ok v :=
  alikeWithin_later hle (depthBound_later hle) h

end Arena

end TermGraph
