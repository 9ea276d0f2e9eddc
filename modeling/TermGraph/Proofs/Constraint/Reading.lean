import TermGraph.Table
import TermGraph.Proofs.Lists

/-!
# Reading words back

The words of a node and the demands of a comparison are written down apart
from each other, kind by kind.  This file ties them together, and it is the
only place where the kinds are gone through.

Two layouts *match* when they have the same words at the same places and alike
parts at the same places (`Piece.Match`).  They are *read in step* when, as
long as the words read so far agree, the next pieces are two words or two
parts of one category (`Piece.InStep`).  The demands on two nodes *fit* the
layouts of the nodes (`Demand.Fit`): they hold exactly when the layouts match,
they are about parts of the layouts, and the layouts are read in step.  That
is shown for names, expressions, requirements and constraints in turn
(`ExprKind.fit` and its fellows).
-/

namespace TermGraph

open List

/-- The category of the node that a part is. -/
def Part.category : Part → Category
  | .name _ => .name
  | .expr _ => .expr
  | .req _ => .requirement

/-- Equal words, or alike parts. -/
def Piece.Match (alike : Part → Part → Prop) : Piece → Piece → Prop
  | .word v, .word w => v = w
  | .part p, .part q => alike p q
  | _, _ => False

/-- The demand holds of parts that are alike. -/
def Demand.Holds (alike : Part → Part → Prop) : Demand → Prop
  | .holds b => b = true
  | .alike x y => alike x y

/-- As long as the words so far agree, the next pieces are two words or two
parts of one category, and the layouts end together. -/
def Piece.InStep : List Piece → List Piece → Prop
  | [], [] => True
  | .word v :: ps, .word w :: qs => v = w → InStep ps qs
  | .part p :: ps, .part q :: qs => p.category = q.category ∧ InStep ps qs
  | _, _ => False

section Unfolding

variable (alike : Part → Part → Prop)

/-- A demand that was decided at once holds when it was found to. -/
@[simp]
theorem Demand.holds_iff (b : Bool) : (Demand.holds b).Holds alike ↔ b = true := .rfl

/-- A demand on two parts holds when they are alike. -/
@[simp]
theorem Demand.alike_iff (x y : Part) : (Demand.alike x y).Holds alike ↔ alike x y := .rfl

/-- Words match when they are equal. -/
@[simp]
theorem Piece.match_word_word (v w : Nat) : (Piece.word v).Match alike (.word w) ↔ v = w := .rfl

/-- Parts match when they are alike. -/
@[simp]
theorem Piece.match_part_part (p q : Part) :
    (Piece.part p).Match alike (.part q) ↔ alike p q := .rfl

@[simp]
theorem Piece.match_word_part (v : Nat) (q : Part) : (Piece.word v).Match alike (.part q) ↔ False :=
  .rfl

@[simp]
theorem Piece.match_part_word (p : Part) (w : Nat) : (Piece.part p).Match alike (.word w) ↔ False :=
  .rfl

@[simp]
theorem Piece.inStep_nil : Piece.InStep [] [] := trivial

/-- Behind equal words the layouts have to be in step; behind different ones
nothing is read. -/
@[simp]
theorem Piece.inStep_word_word (v w : Nat) (ps qs : List Piece) :
    Piece.InStep (.word v :: ps) (.word w :: qs) ↔ (v = w → Piece.InStep ps qs) := .rfl

/-- Two parts that are read together are of one category. -/
@[simp]
theorem Piece.inStep_part_part (p q : Part) (ps qs : List Piece) :
    Piece.InStep (.part p :: ps) (.part q :: qs) ↔
      p.category = q.category ∧ Piece.InStep ps qs := .rfl

end Unfolding

/-! ## Lists

A list is laid out as its length and its entries, and compared entry by
entry. -/

section Lists

variable {alike : Part → Part → Prop}

/-- Layouts of lists match when those of the entries do, one by one. -/
theorem Piece.match_list {α : Type} (layout : α → List Piece)
    (hlayout : ∀ x y, (layout x).length = (layout y).length) (xs ys : List α) :
    Forall₂ (Piece.Match alike) (.word xs.length :: xs.flatMap layout)
        (.word ys.length :: ys.flatMap layout) ↔
      Forall₂ (fun x y => Forall₂ (Piece.Match alike) (layout x) (layout y)) xs ys := by
  rw [forall₂_cons, Piece.match_word_word]
  constructor
  · rintro ⟨hlen, h⟩
    induction xs generalizing ys with
    | nil => simp [length_eq_zero_iff.mp hlen.symm]
    | cons x xs ih =>
        cases ys with
        | nil => simp at hlen
        | cons y ys =>
          rw [flatMap_cons, flatMap_cons, forall₂_append_iff (hlayout x y)] at h
          exact .cons h.1 (ih ys (Nat.succ.inj hlen) h.2)
  · intro h
    refine ⟨h.length_eq, ?_⟩
    induction h with
    | nil => exact .nil
    | cons hxy _ ih =>
        rw [flatMap_cons, flatMap_cons, forall₂_append_iff (hlayout _ _)]
        exact ⟨hxy, ih⟩

/-- Lists of expressions match when they are alike, one by one. -/
@[simp]
theorem Piece.match_exprs (xs ys : List ExprId) :
    Forall₂ (Piece.Match alike) (Piece.exprs xs) (Piece.exprs ys) ↔
      Forall₂ (fun x y => alike (.expr x) (.expr y)) xs ys := by
  simpa [Piece.exprs, ← map_eq_flatMap] using
    Piece.match_list (fun e : ExprId => [.part (.expr e)]) (by simp) xs ys

@[simp]
theorem Piece.match_reqs (xs ys : List ReqId) :
    Forall₂ (Piece.Match alike) (Piece.reqs xs) (Piece.reqs ys) ↔
      Forall₂ (fun x y => alike (.req x) (.req y)) xs ys := by
  simpa [Piece.reqs, ← map_eq_flatMap] using
    Piece.match_list (fun r : ReqId => [.part (.req r)]) (by simp) xs ys

/-- Lists of terms match when their layouts do, one by one. -/
@[simp]
theorem Piece.match_terms (xs ys : List Term) :
    Forall₂ (Piece.Match alike) (Piece.terms xs) (Piece.terms ys) ↔
      Forall₂ (fun x y => Forall₂ (Piece.Match alike) x.pieces y.pieces) xs ys :=
  Piece.match_list Term.pieces (fun x y => by cases x <;> cases y <;> rfl) xs ys

variable (alike) in
/-- Demands on lists hold when those on the entries do, one by one. -/
theorem Demand.zipWith_iff {α : Type} (demand : α → α → Demand) (xs ys : List α) :
    (xs.length = ys.length ∧ ∀ d ∈ xs.zipWith demand ys, d.Holds alike) ↔
      Forall₂ (fun x y => (demand x y).Holds alike) xs ys := by
  induction xs generalizing ys with
  | nil => cases ys <;> simp
  | cons x xs ih =>
      cases ys with
      | nil => simp
      | cons y ys =>
        rw [forall₂_cons, ← ih, zipWith_cons_cons, forall_mem_cons, length_cons, length_cons,
          Nat.add_right_cancel_iff, and_left_comm]

/-- Demands on lists of expressions hold when the expressions are alike, one by
one. -/
@[simp]
theorem Demand.exprs_iff (xs ys : List ExprId) :
    (∀ d ∈ Demand.exprs xs ys, d.Holds alike) ↔
      Forall₂ (fun x y => alike (.expr x) (.expr y)) xs ys := by
  simpa [Demand.exprs] using
    Demand.zipWith_iff alike (fun x y => .alike (.expr x) (.expr y)) xs ys

@[simp]
theorem Demand.reqs_iff (xs ys : List ReqId) :
    (∀ d ∈ Demand.reqs xs ys, d.Holds alike) ↔
      Forall₂ (fun x y => alike (.req x) (.req y)) xs ys := by
  simpa [Demand.reqs] using
    Demand.zipWith_iff alike (fun x y => .alike (.req x) (.req y)) xs ys

/-- Demands on lists of terms hold when the layouts of the terms match, one by
one. -/
@[simp]
theorem Demand.terms_iff (xs ys : List Term) :
    (∀ d ∈ Demand.terms xs ys, d.Holds alike) ↔
      Forall₂ (fun x y => Forall₂ (Piece.Match alike) x.pieces y.pieces) xs ys := by
  have hterm (x y : Term) :
      (Demand.term x y).Holds alike ↔ Forall₂ (Piece.Match alike) x.pieces y.pieces := by
    cases x <;> cases y <;> simp [Demand.term, Term.pieces, Handle.index_inj]
  simpa [Demand.terms, hterm] using
    Demand.zipWith_iff alike Demand.term xs ys

/-- Two lists of handles, and what follows them. -/
@[simp]
theorem Piece.handles_append_iff {c : Category} (xs ys : List (Handle c)) (ps qs : List Piece) :
    Forall₂ (Piece.Match alike) (Piece.handles xs ++ ps) (Piece.handles ys ++ qs) ↔
      xs = ys ∧ Forall₂ (Piece.Match alike) ps qs := by
  by_cases hlen : xs.length = ys.length
  · rw [forall₂_append_iff (by simp [Piece.handles, hlen])]
    simp [Piece.handles, hlen, Handle.index_inj, forall₂_eq_eq_eq]
  · have hne : xs ≠ ys := fun h => hlen (congrArg length h)
    simp [Piece.handles, hlen, hne]

/-- Two literals. -/
@[simp]
theorem Piece.literal_iff (v w : Int64) :
    (Piece.literal v).Match alike (.literal w) ↔ v = w := by
  rw [Piece.literal, Piece.literal, Piece.match_word_word, UInt64.toNat_inj]
  exact ⟨fun h => by simpa using congrArg UInt64.toInt64 h, congrArg _⟩

end Lists

/-! ## Demands hold where layouts match -/

section Demands

variable {alike : Part → Part → Prop}

/-- The demands on two names hold exactly when the layouts match. -/
theorem NameKind.demands_iff (j k : NameKind) :
    (∀ d ∈ j.demands k, d.Holds alike) ↔ Forall₂ (Piece.Match alike) j.pieces k.pieces := by
  cases j <;> cases k <;>
    simp [NameKind.demands, NameKind.pieces, Demand.never, Handle.index_inj, Operator.toNat_inj,
      Symbol.index_inj]

/-- The demands on two expressions hold exactly when the layouts match. -/
theorem ExprKind.demands_iff (j k : ExprKind) :
    (∀ d ∈ j.demands k, d.Holds alike) ↔ Forall₂ (Piece.Match alike) j.pieces k.pieces := by
  unfold ExprKind.demands
  cases j <;> cases k <;>
    simp [ExprKind.pieces, Demand.never, Handle.index_inj, BinaryOp.toNat_inj, UnaryOp.toNat_inj,
      bool_toNat_inj, and_comm]

/-- The demands on two requirements hold exactly when the layouts match. -/
theorem ReqKind.demands_iff (j k : ReqKind) :
    (∀ d ∈ j.demands k, d.Holds alike) ↔ Forall₂ (Piece.Match alike) j.pieces k.pieces := by
  cases j <;> cases k <;>
    simp [ReqKind.demands, ReqKind.pieces, Demand.never, Handle.index_inj, and_comm]

/-- The demands on two constraints hold exactly when the layouts match. -/
theorem ConstraintKind.demands_iff (j k : ConstraintKind) :
    (∀ d ∈ j.demands k, d.Holds alike) ↔ Forall₂ (Piece.Match alike) j.pieces k.pieces := by
  cases j <;> cases k <;>
    simp [ConstraintKind.demands, ConstraintKind.pieces, Demand.never, Handle.index_inj, and_comm]

end Demands

/-! ## Demands are about parts of the layouts -/

section Occurs

/-- The demand is about a part of the first layout and a part of the second. -/
def Demand.Within (ps qs : List Piece) : Demand → Prop
  | .holds _ => True
  | .alike x y => .part x ∈ ps ∧ .part y ∈ qs

variable {ps qs : List Piece}

@[simp]
theorem Demand.within_holds (b : Bool) : (Demand.holds b).Within ps qs := trivial

/-- A demand on two parts is about these. -/
@[simp]
theorem Demand.within_alike (x y : Part) :
    (Demand.alike x y).Within ps qs ↔ .part x ∈ ps ∧ .part y ∈ qs := .rfl

/-- A demand stays within longer layouts. -/
theorem Demand.Within.mono {d : Demand} {rs ss : List Piece} (h : d.Within ps qs)
    (hps : ps ⊆ rs) (hqs : qs ⊆ ss) : d.Within rs ss := by
  cases d with
  | holds b => trivial
  | alike x y => exact ⟨hps h.1, hqs h.2⟩

/-- Demands on lists are within the layouts of the lists. -/
theorem Demand.zipWith_within {α : Type} {demand : α → α → Demand} {layout : α → List Piece}
    (h : ∀ x y, (demand x y).Within (layout x) (layout y)) (xs ys : List α) :
    ∀ d ∈ xs.zipWith demand ys, d.Within (xs.flatMap layout) (ys.flatMap layout) := by
  induction xs generalizing ys with
  | nil => simp
  | cons x xs ih =>
      cases ys with
      | nil => simp
      | cons y ys =>
        rw [zipWith_cons_cons, forall_mem_cons, flatMap_cons, flatMap_cons]
        exact ⟨(h x y).mono (subset_append_left ..) (subset_append_left ..), fun d hd =>
          (ih ys d hd).mono (subset_append_right ..) (subset_append_right ..)⟩

/-- So they are within anything longer, their length included. -/
theorem Demand.list_within {α : Type} {demand : α → α → Demand} (layout : α → List Piece)
    (h : ∀ x y, (demand x y).Within (layout x) (layout y)) {xs ys : List α} (b : Bool)
    (hps : .word xs.length :: xs.flatMap layout ⊆ ps)
    (hqs : .word ys.length :: ys.flatMap layout ⊆ qs) :
    ∀ d ∈ .holds b :: xs.zipWith demand ys, d.Within ps qs := by
  rw [forall_mem_cons]
  exact ⟨trivial, fun d hd => (zipWith_within h xs ys d hd).mono
    (List.Subset.trans (subset_cons_self ..) hps) (List.Subset.trans (subset_cons_self ..) hqs)⟩

/-- Demands on lists of terms are within the layouts of the lists. -/
theorem Demand.terms_within {xs ys : List Term} (hps : Piece.terms xs ⊆ ps)
    (hqs : Piece.terms ys ⊆ qs) : ∀ d ∈ Demand.terms xs ys, d.Within ps qs :=
  list_within Term.pieces
    (fun x y => by cases x <;> cases y <;> simp [Demand.term, Term.pieces]) _ hps hqs

/-- Demands on lists of expressions are within the layouts of the lists. -/
theorem Demand.exprs_within {xs ys : List ExprId} (hps : Piece.exprs xs ⊆ ps)
    (hqs : Piece.exprs ys ⊆ qs) : ∀ d ∈ Demand.exprs xs ys, d.Within ps qs :=
  list_within (fun e => [.part (.expr e)]) (by simp) _
    (by simpa [Piece.exprs, ← map_eq_flatMap] using hps)
    (by simpa [Piece.exprs, ← map_eq_flatMap] using hqs)

theorem Demand.reqs_within {xs ys : List ReqId} (hps : Piece.reqs xs ⊆ ps)
    (hqs : Piece.reqs ys ⊆ qs) : ∀ d ∈ Demand.reqs xs ys, d.Within ps qs :=
  list_within (fun r => [.part (.req r)]) (by simp) _
    (by simpa [Piece.reqs, ← map_eq_flatMap] using hps)
    (by simpa [Piece.reqs, ← map_eq_flatMap] using hqs)

end Occurs

/-! ## Layouts are read in step -/

namespace Piece.InStep

/-- Layouts that are read in step may be followed by such. -/
theorem append {ps qs rs ss : List Piece} (h : InStep ps qs) (hrest : InStep rs ss) :
    InStep (ps ++ rs) (qs ++ ss) := by
  fun_induction InStep ps qs with
  | case1 => exact hrest
  | case2 v ps w qs ih => exact fun hword => ih (h hword)
  | case3 p ps q qs ih => exact ⟨h.1, ih h.2⟩
  | case4 => exact h.elim

/-- A list that says its length, each entry read in step with every other. -/
theorem list {α : Type} (layout : α → List Piece) (h : ∀ x y, InStep (layout x) (layout y))
    (xs ys : List α) :
    InStep (.word xs.length :: xs.flatMap layout) (.word ys.length :: ys.flatMap layout) := by
  rw [InStep]
  intro hlen
  induction xs generalizing ys with
  | nil => simp [length_eq_zero_iff.mp hlen.symm]
  | cons x xs ih =>
      cases ys with
      | nil => simp at hlen
      | cons y ys => exact (h x y).append (ih ys (Nat.succ.inj hlen))

/-- Handles, expressions, requirements and terms are such lists. -/
theorem handles_append {c : Category} (xs ys : List (Handle c)) {ps qs : List Piece}
    (h : InStep ps qs) : InStep (Piece.handles xs ++ ps) (Piece.handles ys ++ qs) := by
  refine append ?_ h
  simpa [Piece.handles, ← map_eq_flatMap] using
    list (fun h : Handle c => [.word h.index]) (by simp) xs ys

/-- Two lists of expressions are read in step. -/
@[simp]
theorem exprs (xs ys : List ExprId) : InStep (Piece.exprs xs) (Piece.exprs ys) := by
  simpa [Piece.exprs, ← map_eq_flatMap] using
    list (fun e : ExprId => [.part (.expr e)]) (by simp [Part.category]) xs ys

@[simp]
theorem reqs (xs ys : List ReqId) : InStep (Piece.reqs xs) (Piece.reqs ys) := by
  simpa [Piece.reqs, ← map_eq_flatMap] using
    list (fun r : ReqId => [.part (.req r)]) (by simp [Part.category]) xs ys

/-- Two lists of terms are read in step: every term says what it is before it is
read. -/
@[simp]
theorem terms (xs ys : List Term) : InStep (Piece.terms xs) (Piece.terms ys) :=
  list Term.pieces (fun x y => by cases x <;> cases y <;> simp [Term.pieces, Part.category]) xs ys

end Piece.InStep

/-! ## The kinds, one by one -/

/-- Demands *fit* two layouts when they ask just that the layouts match, are
about parts of the layouts only, and the layouts are read in step. -/
structure Demand.Fit (ds : List Demand) (ps qs : List Piece) : Prop where
  holds_iff : ∀ alike, (∀ d ∈ ds, d.Holds alike) ↔ Forall₂ (Piece.Match alike) ps qs
  within : ∀ d ∈ ds, d.Within ps qs
  inStep : Piece.InStep ps qs

/-- The demands on two names fit their layouts. -/
theorem NameKind.fit (j k : NameKind) : Demand.Fit (j.demands k) j.pieces k.pieces where
  holds_iff _ := j.demands_iff k
  within := by
    cases j <;> cases k <;> simp [NameKind.demands, NameKind.pieces, Demand.never]
    case template.template | concept.concept => exact Demand.terms_within (by simp) (by simp)
  inStep := by cases j <;> cases k <;> simp [NameKind.pieces, Part.category]

/-- The demands on two expressions fit their layouts. -/
theorem ExprKind.fit (j k : ExprKind) : Demand.Fit (j.demands k) j.pieces k.pieces where
  holds_iff _ := j.demands_iff k
  within := by
    unfold ExprKind.demands
    cases j <;> cases k <;> simp [ExprKind.pieces, Demand.never]
    case check.check => exact Demand.terms_within (by simp) (by simp)
    case call.call => exact Demand.exprs_within (by simp) (by simp)
    case requires.requires =>
      exact Demand.reqs_within (fun p hp => by simp [hp]) (fun p hp => by simp [hp])
    case directInit.directInit => exact Demand.exprs_within (by simp) (by simp)
    case aggregateInit.aggregateInit => exact Demand.exprs_within (by simp) (by simp)
  inStep := by
    cases j <;> cases k <;>
      simp [ExprKind.pieces, Piece.literal, Part.category, Piece.InStep.handles_append]

/-- So do those on two expressions with their types. -/
theorem Expr.fit (x y : Expr) : Demand.Fit (.holds (x.ty = y.ty) :: x.kind.demands y.kind)
    (.word x.ty.index :: x.kind.pieces) (.word y.ty.index :: y.kind.pieces) where
  holds_iff alike := by
    rw [forall_mem_cons, forall₂_cons, (x.kind.fit y.kind).holds_iff alike]
    simp [Handle.index_inj]
  within := by
    rw [forall_mem_cons]
    exact ⟨trivial, fun d hd =>
      ((x.kind.fit y.kind).within d hd).mono (subset_cons_self ..) (subset_cons_self ..)⟩
  inStep _ := (x.kind.fit y.kind).inStep

/-- The demands on two requirements fit their layouts. -/
theorem ReqKind.fit (j k : ReqKind) : Demand.Fit (j.demands k) j.pieces k.pieces where
  holds_iff _ := j.demands_iff k
  within := by cases j <;> cases k <;> simp [ReqKind.demands, ReqKind.pieces, Demand.never]
  inStep := by cases j <;> cases k <;> simp [ReqKind.pieces, Part.category]

/-- The demands on two constraints fit their layouts. -/
theorem ConstraintKind.fit (j k : ConstraintKind) : Demand.Fit (j.demands k) j.pieces k.pieces where
  holds_iff _ := j.demands_iff k
  within := by
    cases j <;> cases k <;> simp [ConstraintKind.demands, ConstraintKind.pieces, Demand.never]
    case concept.concept => exact Demand.terms_within (by simp) (by simp)
  inStep := by
    cases j <;> cases k <;>
      simp [ConstraintKind.pieces, Part.category, Piece.InStep.handles_append]

end TermGraph
