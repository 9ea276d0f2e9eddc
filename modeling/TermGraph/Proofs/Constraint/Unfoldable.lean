import Mathlib.Data.Finset.Card
import Mathlib.Data.Finset.Image
import Mathlib.Data.Finset.Range
import Mathlib.Logic.Relation
import TermGraph.Proofs.Constraint.Agreement

/-!
# Constraints that can be unfolded

A constraint can be *unfolded* (`Arena.Unfoldable`) when every node that is
reached from it is there and none contains itself.  Reached are the names,
expressions and requirements that a walk over the structure enters: from a
node one gets to its parts (`ExprKind.parts` and its fellows), and what is
compared by its handle, or not compared at all, is no part.

Nothing is said about how deep such a constraint is nested, and nothing has to
be: without a cycle, a part has fewer nodes below it than the node it is a
part of (`Arena.card_below_lt`), so a walk is never longer than the number of
nodes, which is what the walks allow for.  Hence a constraint can be unfolded
exactly when it has words (`Arena.unfoldable_iff`), and for such constraints
being alike and having equal words are the same
(`Arena.constraintsAlike_iff_words`).
-/

namespace TermGraph

open List Relation

/-! ## Parts -/

/-- The part that a term names, if any. -/
def Term.parts : Term → List Part
  | .name n => [.name n]
  | .expr e => [.expr e]
  | .type _ | .decl _ | .constraint _ => []

/-- The parts of a name. -/
def NameKind.parts : NameKind → List Part
  | .template _ args | .concept _ args => args.flatMap Term.parts
  | .qualified _ name => [.name name]
  | .simple _ | .placeholder _ | .operator _ | .destructor _ | .global => []

/-- The parts of an expression.  The name written in it is none. -/
def ExprKind.parts : ExprKind → List Part
  | .field obj _ _ | .method obj _ _ => [.expr obj]
  | .check _ args => args.flatMap Term.parts
  | .unary _ expr | .copyInit expr | .bindInit expr => [.expr expr]
  | .binary _ lhs rhs => [.expr lhs, .expr rhs]
  | .call callee args => .expr callee :: args.map .expr
  | .requires _ _ reqs => reqs.map .req
  | .directInit _ args | .aggregateInit args => args.map .expr
  | .boolean _ | .integer _ | .object _ _ | .function _ _ | .synthetic _ | .trivialInit => []

/-- The one part of a requirement. -/
def ReqKind.parts (k : ReqKind) : List Part := [.expr k.expr]

/-- The parts of a constraint.  Other constraints are none. -/
def ConstraintKind.parts : ConstraintKind → List Part
  | .concept _ args => args.flatMap Term.parts
  | .predicate expr | .expression expr _ | .conversion expr _ => [.expr expr]
  | .parameterized _ _ | .conjunction _ _ | .disjunction _ _ => []

/-! The parts are what a layout leaves to be opened. -/

variable {p : Part}

/-- The parts in the layout of a list of terms are those of the terms. -/
@[simp]
theorem Piece.part_mem_terms {ts : List Term} :
    .part p ∈ Piece.terms ts ↔ ∃ t ∈ ts, p ∈ t.parts := by
  have hterm (t : Term) : .part p ∈ t.pieces ↔ p ∈ t.parts := by
    cases t <;> simp [Term.pieces, Term.parts]
  simp [Piece.terms, hterm]

/-- The parts in the layout of a list of expressions are the expressions. -/
@[simp]
theorem Piece.part_mem_exprs {es : List ExprId} :
    .part p ∈ Piece.exprs es ↔ ∃ e ∈ es, .expr e = p := by
  simp [Piece.exprs]

/-- The parts in the layout of a list of requirements are the requirements. -/
@[simp]
theorem Piece.part_mem_reqs {rs : List ReqId} :
    .part p ∈ Piece.reqs rs ↔ ∃ r ∈ rs, .req r = p := by
  simp [Piece.reqs]

/-- A list of handles is laid out in words only. -/
@[simp]
theorem Piece.part_mem_handles {c : Category} {hs : List (Handle c)} :
    .part p ∈ Piece.handles hs ↔ False := by
  simp [Piece.handles]

/-- The parts of a name are those in its layout; so it is with the other kinds. -/
theorem NameKind.mem_parts (k : NameKind) : p ∈ k.parts ↔ .part p ∈ k.pieces := by
  cases k <;> simp [parts, pieces]

theorem ExprKind.mem_parts (k : ExprKind) : p ∈ k.parts ↔ .part p ∈ k.pieces := by
  cases k <;> simp [parts, pieces, Piece.literal, eq_comm]

theorem ReqKind.mem_parts (k : ReqKind) : p ∈ k.parts ↔ .part p ∈ k.pieces := by
  cases k <;> simp [parts, pieces, expr]

theorem ConstraintKind.mem_parts (k : ConstraintKind) : p ∈ k.parts ↔ .part p ∈ k.pieces := by
  cases k <;> simp [parts, pieces]

namespace Arena

/-! ## Reaching -/

/-- The parts of the node that a part is. -/
def parts (a : Arena) : Part → Except Fault (List Part)
  | .name n => NameKind.parts <$> a.name n
  | .expr e => (fun x => x.kind.parts) <$> a.expr e
  | .req r => ReqKind.parts <$> a.req r

/-- The second is a part of the first, which is there. -/
def HasPart (a : Arena) (p q : Part) : Prop := ∃ ps, a.parts p = .ok ps ∧ q ∈ ps

/-- The part is reached from the constraint. -/
def Reached (a : Arena) (k : ConstraintKind) (q : Part) : Prop :=
  ∃ p ∈ k.parts, ReflTransGen a.HasPart p q

/-- Everything reached from the constraint is there and does not contain
itself. -/
structure Unfoldable (a : Arena) (k : ConstraintKind) : Prop where
  present : ∀ p, a.Reached k p → ∃ ps, a.parts p = .ok ps
  acyclic : ∀ p, a.Reached k p → ¬ TransGen a.HasPart p p

variable {a : Arena} {p q : Part}

/-- A node that is there has a layout, and its parts are those to be opened. -/
theorem pieces_of_parts {ps : List Part} (h : a.parts p = .ok ps) :
    ∃ pieces, a.pieces p = .ok pieces ∧ ∀ q, .part q ∈ pieces ↔ q ∈ ps := by
  cases p with
  | name n =>
      obtain ⟨k, hk, rfl⟩ := map_eq_ok.mp h
      exact ⟨k.pieces, map_eq_ok.mpr ⟨k, hk, rfl⟩, fun q => k.mem_parts.symm⟩
  | expr e =>
      obtain ⟨x, hx, rfl⟩ := map_eq_ok.mp h
      refine ⟨_, map_eq_ok.mpr ⟨x, hx, rfl⟩, fun q => ?_⟩
      simp [x.kind.mem_parts]
  | req r =>
      obtain ⟨k, hk, rfl⟩ := map_eq_ok.mp h
      exact ⟨k.pieces, map_eq_ok.mpr ⟨k, hk, rfl⟩, fun q => k.mem_parts.symm⟩

/-- A node that has a layout is there. -/
theorem parts_of_pieces {pieces : List Piece} (h : a.pieces p = .ok pieces) :
    ∃ ps, a.parts p = .ok ps := by
  cases p with
  | name n =>
      obtain ⟨k, hk, _⟩ := map_eq_ok.mp h
      exact ⟨_, map_eq_ok.mpr ⟨k, hk, rfl⟩⟩
  | expr e =>
      obtain ⟨x, hx, _⟩ := map_eq_ok.mp h
      exact ⟨_, map_eq_ok.mpr ⟨x, hx, rfl⟩⟩
  | req r =>
      obtain ⟨k, hk, _⟩ := map_eq_ok.mp h
      exact ⟨_, map_eq_ok.mpr ⟨k, hk, rfl⟩⟩

/-- A node that has words is there, and its parts have words one level
further in. -/
theorem parts_of_words {n : Nat} {u : List Nat} (h : a.wordsWithin (n + 1) p = .ok u) :
    ∃ ps, a.parts p = .ok ps ∧ ∀ q ∈ ps, ∃ v, a.wordsWithin n q = .ok v := by
  obtain ⟨pieces, hpieces, hspread⟩ := wordsWithin_succ_eq_ok.mp h
  obtain ⟨ps, hps⟩ := parts_of_pieces hpieces
  obtain ⟨pieces', hpieces', hmem⟩ := pieces_of_parts hps
  obtain rfl := Except.ok.inj (hpieces.symm.trans hpieces')
  exact ⟨ps, hps, fun q hq => Piece.opened_of_spread hspread ((hmem q).mpr hq)⟩

/-! ## From words to unfoldable -/

/-- What is below a part that has words has words further in. -/
theorem words_below {n : Nat} {u : List Nat} (hu : a.wordsWithin n p = .ok u)
    (h : TransGen a.HasPart p q) : ∃ m < n, ∃ v, a.wordsWithin m q = .ok v := by
  have hstep {n : Nat} {p q : Part} {u : List Nat} (hu : a.wordsWithin n p = .ok u)
      (hpart : a.HasPart p q) : ∃ m < n, ∃ v, a.wordsWithin m q = .ok v := by
    cases n with
    | zero => cases hu
    | succ n =>
        obtain ⟨ps, hps, hwords⟩ := parts_of_words hu
        obtain ⟨ps', hps', hq⟩ := hpart
        obtain rfl := Except.ok.inj (hps.symm.trans hps')
        exact ⟨n, Nat.lt_succ_self n, hwords q hq⟩
  induction h with
  | single hpart => exact hstep hu hpart
  | tail _ hpart ih =>
      obtain ⟨m, hm, v, hv⟩ := ih
      obtain ⟨m', hm', hw⟩ := hstep hv hpart
      exact ⟨m', hm'.trans hm, hw⟩

/-- A part that has words does not contain itself. -/
theorem not_below_self {n : Nat} {u : List Nat} (hu : a.wordsWithin n p = .ok u) :
    ¬ TransGen a.HasPart p p := by
  intro hcycle
  -- Every turn of the cycle would find words further in.
  induction n using Nat.strong_induction_on generalizing u with
  | _ n ih =>
      obtain ⟨m, hm, v, hv⟩ := words_below hu hcycle
      exact ih m hm hv

/-! ## From unfoldable to words -/

/-- Every part that is there. -/
def nodes (a : Arena) : Finset Part :=
  (Finset.range a.names.size).image (fun i => .name ⟨i⟩) ∪
    (Finset.range a.exprs.size).image (fun i => .expr ⟨i⟩) ∪
    (Finset.range a.reqs.size).image (fun i => .req ⟨i⟩)

/-- There are fewer parts than the bound on the depth. -/
theorem card_nodes_lt (a : Arena) : a.nodes.card < a.depthBound := by
  have hunion := (Finset.card_union_le _ _).trans (Nat.add_le_add_right (Finset.card_union_le
    ((Finset.range a.names.size).image fun i => Part.name ⟨i⟩)
    ((Finset.range a.exprs.size).image fun i => Part.expr ⟨i⟩))
    ((Finset.range a.reqs.size).image fun i => Part.req ⟨i⟩).card)
  have hnames := Finset.card_image_le (s := Finset.range a.names.size)
    (f := fun i => Part.name ⟨i⟩)
  have hexprs := Finset.card_image_le (s := Finset.range a.exprs.size)
    (f := fun i => Part.expr ⟨i⟩)
  have hreqs := Finset.card_image_le (s := Finset.range a.reqs.size)
    (f := fun i => Part.req ⟨i⟩)
  simp only [Finset.card_range] at hnames hexprs hreqs
  unfold nodes depthBound
  omega

/-- A part that is read is there. -/
theorem mem_nodes {ps : List Part} (h : a.parts p = .ok ps) : p ∈ a.nodes := by
  cases p with
  | name n =>
      obtain ⟨k, hk, _⟩ := map_eq_ok.mp h
      simpa [nodes] using ⟨n.index, lt_of_fetch hk, rfl⟩
  | expr e =>
      obtain ⟨x, hx, _⟩ := map_eq_ok.mp h
      simpa [nodes] using ⟨e.index, lt_of_fetch hx, rfl⟩
  | req r =>
      obtain ⟨k, hk, _⟩ := map_eq_ok.mp h
      simpa [nodes] using ⟨r.index, lt_of_fetch hk, rfl⟩

open Classical in
/-- Every node below a part. -/
noncomputable def below (a : Arena) (p : Part) : Finset Part :=
  a.nodes.filter fun q => TransGen a.HasPart p q

/-- What is below a part: the parts there are that it comes to contain. -/
theorem mem_below : q ∈ a.below p ↔ q ∈ a.nodes ∧ TransGen a.HasPart p q := by
  simp [below]

/-- **Fewer nodes are below a part than below its node.**  The part itself is
the one that is missing, since it does not contain itself. -/
theorem card_below_lt (hpart : a.HasPart p q) (hthere : q ∈ a.nodes)
    (hacyclic : ¬ TransGen a.HasPart q q) : (a.below q).card < (a.below p).card := by
  apply Finset.card_lt_card
  refine ⟨fun r hr => ?_, fun hsub => ?_⟩
  · obtain ⟨hnode, hbelow⟩ := mem_below.mp hr
    exact mem_below.mpr ⟨hnode, .head hpart hbelow⟩
  · have hq : q ∈ a.below p := mem_below.mpr ⟨hthere, .single hpart⟩
    exact hacyclic (mem_below.mp (hsub hq)).2

/-- A part from which everything is there and nothing contains itself has
words, if it may be nested through more nodes than are below it. -/
theorem words_of_acyclic {n : Nat} (hn : (a.below p).card < n)
    (hpresent : ∀ q, ReflTransGen a.HasPart p q → ∃ ps, a.parts q = .ok ps)
    (hacyclic : ∀ q, ReflTransGen a.HasPart p q → ¬ TransGen a.HasPart q q) :
    ∃ u, a.wordsWithin n p = .ok u := by
  induction n generalizing p with
  | zero => exact absurd hn (Nat.not_lt_zero _)
  | succ n ih =>
      obtain ⟨ps, hps⟩ := hpresent p .refl
      obtain ⟨pieces, hpieces, hmem⟩ := pieces_of_parts hps
      have hopened (q : Part) (hq : .part q ∈ pieces) : ∃ v, a.wordsWithin n q = .ok v := by
        have hpart : a.HasPart p q := ⟨ps, hps, (hmem q).mp hq⟩
        obtain ⟨qs, hqs⟩ := hpresent q (.single hpart)
        have hlt := card_below_lt hpart (mem_nodes hqs) (hacyclic q (.single hpart))
        exact ih (by omega) (fun r hr => hpresent r (.head hpart hr))
          fun r hr => hacyclic r (.head hpart hr)
      obtain ⟨u, hu⟩ := Piece.spread_isOk hopened
      exact ⟨u, wordsWithin_succ_eq_ok.mpr ⟨pieces, hpieces, hu⟩⟩

/-- **Having words is being unfoldable.** -/
theorem unfoldable_iff {k : ConstraintKind} :
    a.Unfoldable k ↔ ∃ u, a.constraintWords k = .ok u := by
  constructor
  · intro h
    refine Piece.spread_isOk fun p hp => words_of_acyclic ?_
      (fun q hq => h.present q ⟨p, k.mem_parts.mpr hp, hq⟩)
      (fun q hq => h.acyclic q ⟨p, k.mem_parts.mpr hp, hq⟩)
    exact (Finset.card_le_card fun q hq => (mem_below.mp hq).1).trans_lt a.card_nodes_lt
  · rintro ⟨u, hu⟩
    have hreached (q : Part) (hq : a.Reached k q) : ∃ n v, a.wordsWithin n q = .ok v := by
      obtain ⟨p, hp, hpq⟩ := hq
      obtain ⟨v, hv⟩ := Piece.opened_of_spread hu (k.mem_parts.mp hp)
      rcases reflTransGen_iff_eq_or_transGen.mp hpq with rfl | hbelow
      · exact ⟨_, v, hv⟩
      · obtain ⟨m, _, w, hw⟩ := words_below hv hbelow
        exact ⟨m, w, hw⟩
    refine ⟨fun q hq => ?_, fun q hq => ?_⟩
    · obtain ⟨n, v, hv⟩ := hreached q hq
      cases n with
      | zero => cases hv
      | succ n =>
          obtain ⟨ps, hps, _⟩ := parts_of_words hv
          exact ⟨ps, hps⟩
    · obtain ⟨n, v, hv⟩ := hreached q hq
      exact not_below_self hv

/-- **Alike is equal words.**  Of two constraints that can be unfolded, the
comparison and both lists of words come out, and the constraints are alike if
and only if the lists are equal.  So constraints that are alike have equal
digests, whatever the digest. -/
theorem constraintsAlike_iff_words {j k : ConstraintKind} (hj : a.Unfoldable j)
    (hk : a.Unfoldable k) :
    ∃ b u v, a.constraintsAlike j k = .ok b ∧ a.constraintWords j = .ok u ∧
      a.constraintWords k = .ok v ∧ (b = true ↔ u = v) ∧
      ∀ digest : List Nat → UInt64, b = true → digest u = digest v := by
  obtain ⟨u, hu⟩ := unfoldable_iff.mp hj
  obtain ⟨v, hv⟩ := unfoldable_iff.mp hk
  obtain ⟨b, hb, hiff⟩ := constraintsAlike_eq_ok hu hv
  exact ⟨b, u, v, hb, hu, hv, hiff, fun digest htrue => congrArg digest (hiff.mp htrue)⟩

/-- An arena in which the comparison of two literals is written twice, under
two spellings of one name. -/
def writtenTwice : Arena :=
  { fresh with
    names := #[.global, .simple ⟨1⟩, .simple ⟨1⟩]
    exprs := #[⟨⟨3⟩, .integer 3⟩, ⟨⟨3⟩, .integer 3⟩, ⟨.bool, .binary .eq ⟨0⟩ ⟨1⟩⟩,
      ⟨.bool, .binary .eq ⟨1⟩ ⟨0⟩⟩] }

/-- A concept of one writing, and of the other. -/
theorem constraintsAlike_iff_words_writtenTwice :
    writtenTwice.Unfoldable (.concept ⟨1⟩ [.name ⟨1⟩, .expr ⟨2⟩]) ∧
      writtenTwice.Unfoldable (.concept ⟨1⟩ [.name ⟨2⟩, .expr ⟨3⟩]) ∧
      ∃ b u v,
        writtenTwice.constraintsAlike (.concept ⟨1⟩ [.name ⟨1⟩, .expr ⟨2⟩])
          (.concept ⟨1⟩ [.name ⟨2⟩, .expr ⟨3⟩]) = .ok b ∧
        writtenTwice.constraintWords (.concept ⟨1⟩ [.name ⟨1⟩, .expr ⟨2⟩]) = .ok u ∧
        writtenTwice.constraintWords (.concept ⟨1⟩ [.name ⟨2⟩, .expr ⟨3⟩]) = .ok v ∧
        (b = true ↔ u = v) ∧
        ∀ digest : List Nat → UInt64, b = true → digest u = digest v := by
  have hj : writtenTwice.Unfoldable (.concept ⟨1⟩ [.name ⟨1⟩, .expr ⟨2⟩]) :=
    unfoldable_iff.mpr ⟨_, rfl⟩
  have hk : writtenTwice.Unfoldable (.concept ⟨1⟩ [.name ⟨2⟩, .expr ⟨3⟩]) :=
    unfoldable_iff.mpr ⟨_, rfl⟩
  exact ⟨hj, hk, constraintsAlike_iff_words hj hk⟩

end Arena

end TermGraph
