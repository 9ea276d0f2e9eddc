import TermGraph.Proofs.Constraint.Unfoldable

/-!
# Constraints, fully unfolded

What a constraint says, with nothing left to look up: every handle of a name,
an expression, a requirement or another constraint is replaced by the tree of
that node.  Declarations and types stay handles.  The name written in an
id-expression or a member access is not part of what the expression says and
has no place in its tree.

A node is unfolded by an `Opening`, which tells the trees of the nodes it
mentions (`ExprKind.expand` and its fellows).  Trees are made from the
structure of nodes alone and know nothing of words or demands; this file ties
them to layouts.  Two nodes that unfold have equal trees exactly when their
layouts match with equal trees for parts (`ExprKind.tree_eq_iff` and its
fellows), provided that equal trees of constraints come from equal handles.
-/

namespace TermGraph

open List

/-! ## Trees -/

mutual

/-- A name, unfolded; `κ` are the trees of constraints. -/
inductive NameTree (κ : Type) where
  | simple (sym : Symbol)
  | placeholder (n : Nat)
  | operator (op : Operator)
  | destructor (ty : TypeId)
  | template (template : DeclId) (args : List (TermTree κ))
  | concept (concept : DeclId) (args : List (TermTree κ))
  | qualified (scope : DeclId) (name : NameTree κ)
  | global

inductive TermTree (κ : Type) where
  | name (name : NameTree κ)
  | type (id : TypeId)
  | expr (expr : ExprTree κ)
  | decl (id : DeclId)
  | constraint (constraint : κ)

/-- An expression, unfolded: its type and what it is. -/
inductive ExprTree (κ : Type) where
  | mk (ty : TypeId) (kind : ExprKindTree κ)

/-- What an expression is, unfolded. -/
inductive ExprKindTree (κ : Type) where
  | boolean (value : Bool)
  | integer (value : Int64)
  | object (decl : DeclId)
  | function (decl : DeclId)
  | field (object : ExprTree κ) (decl : DeclId)
  | method (object : ExprTree κ) (decl : DeclId)
  | check (concept : DeclId) (args : List (TermTree κ))
  | unary (op : UnaryOp) (operand : ExprTree κ)
  | binary (op : BinaryOp) (lhs rhs : ExprTree κ)
  | call (callee : ExprTree κ) (args : List (ExprTree κ))
  | requires (tparms parms : List DeclId) (reqs : List (ReqTree κ))
  | synthetic (decl : DeclId)
  | trivialInit
  | copyInit (expr : ExprTree κ)
  | bindInit (expr : ExprTree κ)
  | directInit (ctor : DeclId) (args : List (ExprTree κ))
  | aggregateInit (args : List (ExprTree κ))

inductive ReqTree (κ : Type) where
  | basic (expr : ExprTree κ) (ty : TypeId)
  | conversion (expr : ExprTree κ) (ty : TypeId)
  | syntactic (expr : ExprTree κ)

end

inductive ConstraintTree where
  | concept (concept : DeclId) (args : List (TermTree ConstraintTree))
  | predicate (expr : ExprTree ConstraintTree)
  | expression (expr : ExprTree ConstraintTree) (ty : TypeId)
  | conversion (expr : ExprTree ConstraintTree) (ty : TypeId)
  | parameterized (parms : List DeclId) (constraint : ConstraintTree)
  | conjunction (lhs rhs : ConstraintTree)
  | disjunction (lhs rhs : ConstraintTree)

/-! ## Unfolding one node -/

/-- The trees of the nodes that a node mentions, as far as they have any. -/
structure Opening (κ : Type) where
  name : NameId → Option (NameTree κ)
  expr : ExprId → Option (ExprTree κ)
  req : ReqId → Option (ReqTree κ)
  constraint : ConsId → Option κ

section Expand

variable {κ : Type} (o : Opening κ)

/-- A term with its nodes opened. -/
def Term.expand : Term → Option (TermTree κ)
  | .name n => do return .name (← o.name n)
  | .type t => some (.type t)
  | .expr e => do return .expr (← o.expr e)
  | .decl d => some (.decl d)
  | .constraint c => do return .constraint (← o.constraint c)

def NameKind.expand : NameKind → Option (NameTree κ)
  | .simple sym => some (.simple sym)
  | .placeholder n => some (.placeholder n)
  | .operator op => some (.operator op)
  | .destructor ty => some (.destructor ty)
  | .template d args => do return .template d (← args.mapM (Term.expand o))
  | .concept d args => do return .concept d (← args.mapM (Term.expand o))
  | .qualified scope name => do return .qualified scope (← o.name name)
  | .global => some .global

/-- An expression without its type, with its nodes opened. -/
def ExprKind.expand : ExprKind → Option (ExprKindTree κ)
  | .boolean value => some (.boolean value)
  | .integer value => some (.integer value)
  | .object _ d => some (.object d)
  | .function _ d => some (.function d)
  | .field obj _ d => do return .field (← o.expr obj) d
  | .method obj _ d => do return .method (← o.expr obj) d
  | .check c args => do return .check c (← args.mapM (Term.expand o))
  | .unary op operand => do return .unary op (← o.expr operand)
  | .binary op lhs rhs => do return .binary op (← o.expr lhs) (← o.expr rhs)
  | .call callee args => do return .call (← o.expr callee) (← args.mapM o.expr)
  | .requires tparms parms reqs => do return .requires tparms parms (← reqs.mapM o.req)
  | .synthetic d => some (.synthetic d)
  | .trivialInit => some .trivialInit
  | .copyInit expr => do return .copyInit (← o.expr expr)
  | .bindInit expr => do return .bindInit (← o.expr expr)
  | .directInit ctor args => do return .directInit ctor (← args.mapM o.expr)
  | .aggregateInit args => do return .aggregateInit (← args.mapM o.expr)

/-- An expression with its nodes opened. -/
def Expr.expand (x : Expr) : Option (ExprTree κ) := do return .mk x.ty (← x.kind.expand o)

def ReqKind.expand : ReqKind → Option (ReqTree κ)
  | .basic expr ty => do return .basic (← o.expr expr) ty
  | .conversion expr ty => do return .conversion (← o.expr expr) ty
  | .syntactic expr => do return .syntactic (← o.expr expr)

end Expand

def ConstraintKind.expand (o : Opening ConstraintTree) : ConstraintKind → Option ConstraintTree
  | .concept c args => do return .concept c (← args.mapM (Term.expand o))
  | .predicate expr => do return .predicate (← o.expr expr)
  | .expression expr ty => do return .expression (← o.expr expr) ty
  | .conversion expr ty => do return .conversion (← o.expr expr) ty
  | .parameterized parms c => do return .parameterized parms (← o.constraint c)
  | .conjunction lhs rhs => do return .conjunction (← o.constraint lhs) (← o.constraint rhs)
  | .disjunction lhs rhs => do return .disjunction (← o.constraint lhs) (← o.constraint rhs)

/-! ## Equal trees are matching layouts -/

namespace Opening

variable {κ : Type} (o : Opening κ)

/-- Two parts of one category with the same tree, or without one. -/
def Same : Part → Part → Prop
  | .name x, .name y => o.name x = o.name y
  | .expr x, .expr y => o.expr x = o.expr y
  | .req x, .req y => o.req x = o.req y
  | _, _ => False

/-- Names are the same part when they have the same tree. -/
@[simp]
theorem same_name (x y : NameId) : o.Same (.name x) (.name y) ↔ o.name x = o.name y := .rfl

@[simp]
theorem same_expr (x y : ExprId) : o.Same (.expr x) (.expr y) ↔ o.expr x = o.expr y := .rfl

@[simp]
theorem same_req (x y : ReqId) : o.Same (.req x) (.req y) ↔ o.req x = o.req y := .rfl

/-- Equal trees of constraints come from equal handles. -/
def Distinct : Prop :=
  ∀ ⦃c d : ConsId⦄ ⦃s : κ⦄, o.constraint c = some s → o.constraint d = some s → c = d

end Opening

section Same

variable {κ : Type} {o : Opening κ}

/-- Terms with equal trees have matching layouts. -/
theorem Term.match_of_expand (ho : o.Distinct) {x y : Term} {s : TermTree κ}
    (hx : x.expand o = some s) (hy : y.expand o = some s) :
    Forall₂ (Piece.Match o.Same) x.pieces y.pieces := by
  cases s <;> cases x <;> simp [expand, Option.bind_eq_some_iff] at hx <;>
    cases y <;> simp [expand, Option.bind_eq_some_iff] at hy <;>
    simp [pieces, hx, hy, Handle.index_inj]
  exact ho hx hy

/-- Terms with matching layouts have equal trees. -/
theorem Term.expand_eq_of_match {x y : Term}
    (h : Forall₂ (Piece.Match o.Same) x.pieces y.pieces) : x.expand o = y.expand o := by
  cases x <;> cases y <;> simp [pieces, Handle.index_inj] at h <;> simp [expand, h]

/-- Names with equal trees have matching layouts. -/
theorem NameKind.match_of_expand (ho : o.Distinct) {x y : NameKind} {s : NameTree κ}
    (hx : x.expand o = some s) (hy : y.expand o = some s) :
    Forall₂ (Piece.Match o.Same) x.pieces y.pieces := by
  cases s <;> cases x <;> simp [expand, Option.bind_eq_some_iff] at hx <;>
    cases y <;> simp [expand, Option.bind_eq_some_iff] at hy <;> simp [pieces, hx, hy]
  all_goals exact forall₂_of_mapM (fun _ _ _ => Term.match_of_expand ho) hx.1 hy.1

/-- Names with matching layouts have equal trees. -/
theorem NameKind.expand_eq_of_match {x y : NameKind}
    (h : Forall₂ (Piece.Match o.Same) x.pieces y.pieces) : x.expand o = y.expand o := by
  cases x <;> cases y <;>
    simp [pieces, Handle.index_inj, Symbol.index_inj, Operator.toNat_inj] at h <;>
    simp [expand, h]
  all_goals rw [mapM_congr (h.2.imp fun _ _ => Term.expand_eq_of_match)]

/-- Expressions with equal trees have matching layouts. -/
theorem ExprKind.match_of_expand (ho : o.Distinct) {x y : ExprKind} {s : ExprKindTree κ}
    (hx : x.expand o = some s) (hy : y.expand o = some s) :
    Forall₂ (Piece.Match o.Same) x.pieces y.pieces := by
  cases s <;> cases x <;> simp [expand, Option.bind_eq_some_iff] at hx <;>
    cases y <;> simp [expand, Option.bind_eq_some_iff] at hy <;> simp [pieces, hx, hy]
  case check.check.check =>
    exact forall₂_of_mapM (fun _ _ _ => Term.match_of_expand ho) hx.1 hy.1
  case call.call.call => exact forall₂_eq_of_mapM hx.2 hy.2
  case requires.requires.requires => exact forall₂_eq_of_mapM hx.1 hy.1
  case directInit.directInit.directInit => exact forall₂_eq_of_mapM hx.1 hy.1
  case aggregateInit.aggregateInit.aggregateInit => exact forall₂_eq_of_mapM hx hy

/-- Expressions with matching layouts have equal trees. -/
theorem ExprKind.expand_eq_of_match {x y : ExprKind}
    (h : Forall₂ (Piece.Match o.Same) x.pieces y.pieces) : x.expand o = y.expand o := by
  cases x <;> cases y <;>
    simp [pieces, Handle.index_inj, UnaryOp.toNat_inj, BinaryOp.toNat_inj, bool_toNat_inj] at h <;>
    simp [expand, h]
  case check.check => rw [mapM_congr (h.2.imp fun _ _ => Term.expand_eq_of_match)]
  case call.call => rw [mapM_congr h.2]
  case requires.requires => rw [mapM_congr h.2.2]
  case directInit.directInit => rw [mapM_congr h.2]
  case aggregateInit.aggregateInit => rw [mapM_congr h]

/-- Two expressions have equal trees exactly when their types are equal and
their layouts match. -/
theorem Expr.tree_eq_iff (ho : o.Distinct) {x y : Expr} {s t : ExprTree κ}
    (hs : x.expand o = some s) (ht : y.expand o = some t) :
    s = t ↔ Forall₂ (Piece.Match o.Same) (.word x.ty.index :: x.kind.pieces)
      (.word y.ty.index :: y.kind.pieces) := by
  obtain ⟨s', hs', hs⟩ := Option.bind_eq_some_iff.mp hs
  obtain ⟨t', ht', ht⟩ := Option.bind_eq_some_iff.mp ht
  cases hs
  cases ht
  rw [forall₂_cons, Piece.match_word_word, Handle.index_inj, ExprTree.mk.injEq]
  refine and_congr_right fun _ => ⟨?_, fun h => ?_⟩
  · rintro rfl
    exact ExprKind.match_of_expand ho hs' ht'
  · have hsame : some s' = some t' := by rw [← hs', ← ht', ExprKind.expand_eq_of_match h]
    exact Option.some.inj hsame

/-- Two names have equal trees exactly when their layouts match. -/
theorem NameKind.tree_eq_iff (ho : o.Distinct) {x y : NameKind} {s t : NameTree κ}
    (hs : x.expand o = some s) (ht : y.expand o = some t) :
    s = t ↔ Forall₂ (Piece.Match o.Same) x.pieces y.pieces := by
  refine ⟨?_, fun h => ?_⟩
  · rintro rfl
    exact match_of_expand ho hs ht
  · have hsame : some s = some t := by rw [← hs, ← ht, expand_eq_of_match h]
    exact Option.some.inj hsame

/-- Two requirements have equal trees exactly when their layouts match; they
mention no constraints. -/
theorem ReqKind.tree_eq_iff {x y : ReqKind} {s t : ReqTree κ}
    (hs : x.expand o = some s) (ht : y.expand o = some t) :
    s = t ↔ Forall₂ (Piece.Match o.Same) x.pieces y.pieces := by
  cases x <;> simp [expand, Option.bind_eq_some_iff] at hs <;>
    cases y <;> simp [expand, Option.bind_eq_some_iff] at ht <;>
    obtain ⟨a, ha, rfl⟩ := hs <;> obtain ⟨b, hb, rfl⟩ := ht <;>
    simp [pieces, ha, hb, Handle.index_inj]

end Same

/-- Constraints with equal trees have matching layouts. -/
theorem ConstraintKind.match_of_expand {o : Opening ConstraintTree} (ho : o.Distinct)
    {x y : ConstraintKind} {s : ConstraintTree} (hx : x.expand o = some s)
    (hy : y.expand o = some s) : Forall₂ (Piece.Match o.Same) x.pieces y.pieces := by
  cases s <;> cases x <;> simp [expand, Option.bind_eq_some_iff] at hx <;>
    cases y <;> simp [expand, Option.bind_eq_some_iff] at hy <;>
    simp [pieces, hx, hy, Handle.index_inj]
  case concept.concept.concept =>
    exact forall₂_of_mapM (fun _ _ _ => Term.match_of_expand ho) hx.1 hy.1
  case parameterized.parameterized.parameterized => exact ho hx.1 hy.1
  case conjunction.conjunction.conjunction => exact ⟨ho hx.1 hy.1, ho hx.2 hy.2⟩
  case disjunction.disjunction.disjunction => exact ⟨ho hx.1 hy.1, ho hx.2 hy.2⟩

/-- Constraints with matching layouts have equal trees. -/
theorem ConstraintKind.expand_eq_of_match {o : Opening ConstraintTree} {x y : ConstraintKind}
    (h : Forall₂ (Piece.Match o.Same) x.pieces y.pieces) : x.expand o = y.expand o := by
  cases x <;> cases y <;> simp [pieces, Handle.index_inj] at h <;> simp [expand, h]
  case concept.concept => rw [mapM_congr (h.2.imp fun _ _ => Term.expand_eq_of_match)]

/-- Two constraints have equal trees exactly when their layouts match. -/
theorem ConstraintKind.tree_eq_iff {o : Opening ConstraintTree} (ho : o.Distinct)
    {x y : ConstraintKind} {s t : ConstraintTree} (hs : x.expand o = some s)
    (ht : y.expand o = some t) : s = t ↔ Forall₂ (Piece.Match o.Same) x.pieces y.pieces := by
  refine ⟨?_, fun h => ?_⟩
  · rintro rfl
    exact match_of_expand ho hs ht
  · have hsame : some s = some t := by rw [← hs, ← ht, expand_eq_of_match h]
    exact Option.some.inj hsame

/-! ## What unfolds -/

/-- The constraint that a term names, if any. -/
def Term.constraints : Term → List ConsId
  | .constraint c => [c]
  | .name _ | .type _ | .expr _ | .decl _ => []

def NameKind.constraints : NameKind → List ConsId
  | .template _ args | .concept _ args => args.flatMap Term.constraints
  | _ => []

def ExprKind.constraints : ExprKind → List ConsId
  | .check _ args => args.flatMap Term.constraints
  | _ => []

def ConstraintKind.constraints : ConstraintKind → List ConsId
  | .concept _ args => args.flatMap Term.constraints
  | .predicate _ | .expression _ _ | .conversion _ _ => []
  | .parameterized _ c => [c]
  | .conjunction lhs rhs | .disjunction lhs rhs => [lhs, rhs]

/-- The part has a tree. -/
def Opening.Opens {κ : Type} (o : Opening κ) : Part → Prop
  | .name n => (o.name n).isSome
  | .expr e => (o.expr e).isSome
  | .req r => (o.req r).isSome

section Opens

variable {κ : Type} {o : Opening κ}

/-- A name is opened when it has a tree. -/
@[simp]
theorem Opening.opens_name (n : NameId) : o.Opens (.name n) ↔ (o.name n).isSome := .rfl

@[simp]
theorem Opening.opens_expr (e : ExprId) : o.Opens (.expr e) ↔ (o.expr e).isSome := .rfl

@[simp]
theorem Opening.opens_req (r : ReqId) : o.Opens (.req r) ↔ (o.req r).isSome := .rfl

/-- A term unfolds when what it names has a tree. -/
theorem Term.expand_isSome {x : Term} : (x.expand o).isSome ↔
    (∀ p ∈ x.parts, o.Opens p) ∧ ∀ c ∈ x.constraints, (o.constraint c).isSome := by
  cases x <;> simp [expand, parts, constraints]

/-- Arguments unfold when all that they name has trees. -/
theorem Term.mapM_expand_isSome {xs : List Term} : (xs.mapM (Term.expand o)).isSome ↔
    (∀ p ∈ xs.flatMap parts, o.Opens p) ∧
      ∀ c ∈ xs.flatMap constraints, (o.constraint c).isSome := by
  simp only [mapM_isSome, expand_isSome, mem_flatMap]
  grind

/-- A name unfolds when its parts and the constraints it mentions have trees. -/
theorem NameKind.expand_isSome {x : NameKind} : (x.expand o).isSome ↔
    (∀ p ∈ x.parts, o.Opens p) ∧ ∀ c ∈ x.constraints, (o.constraint c).isSome := by
  cases x with
  | template d args | concept d args =>
      refine Iff.trans ?_ Term.mapM_expand_isSome
      simp [expand]
  | _ => simp [expand, parts, constraints]

/-- An expression unfolds when its parts and the constraints it mentions have
trees. -/
theorem ExprKind.expand_isSome {x : ExprKind} : (x.expand o).isSome ↔
    (∀ p ∈ x.parts, o.Opens p) ∧ ∀ c ∈ x.constraints, (o.constraint c).isSome := by
  cases x with
  | check c args =>
      refine Iff.trans ?_ Term.mapM_expand_isSome
      simp [expand]
  | _ => simp [expand, parts, constraints, mapM_isSome]

/-- The type of an expression stays a handle and needs no tree. -/
theorem Expr.expand_isSome {x : Expr} : (x.expand o).isSome ↔ (x.kind.expand o).isSome := by
  simp [expand]

/-- A requirement unfolds when its expression does. -/
theorem ReqKind.expand_isSome {x : ReqKind} :
    (x.expand o).isSome ↔ ∀ p ∈ x.parts, o.Opens p := by
  cases x <;> simp [expand, parts, ReqKind.expr]

end Opens

/-- A constraint unfolds when its parts and the constraints it mentions have
trees. -/
theorem ConstraintKind.expand_isSome {o : Opening ConstraintTree} {x : ConstraintKind} :
    (x.expand o).isSome ↔
      (∀ p ∈ x.parts, o.Opens p) ∧ ∀ c ∈ x.constraints, (o.constraint c).isSome := by
  cases x with
  | concept c args =>
      refine Iff.trans ?_ Term.mapM_expand_isSome
      simp [expand]
  | _ => simp [expand, parts, constraints]

/-- The parts of a name that unfolds have trees. -/
theorem NameKind.opens_of_expand {κ : Type} {o : Opening κ} {x : NameKind} {s : NameTree κ}
    (hs : x.expand o = some s) (p : Part) (hp : .part p ∈ x.pieces) : o.Opens p := by
  have hsome : (x.expand o).isSome := Option.isSome_of_eq_some hs
  obtain ⟨hparts, _⟩ := expand_isSome.mp hsome
  exact hparts p (x.mem_parts.mpr hp)

/-- The parts of an expression that unfolds have trees. -/
theorem Expr.opens_of_expand {κ : Type} {o : Opening κ} {x : Expr} {s : ExprTree κ}
    (hs : x.expand o = some s) (p : Part) (hp : .part p ∈ Piece.word x.ty.index :: x.kind.pieces) :
    o.Opens p := by
  have hsome : (x.kind.expand o).isSome := Expr.expand_isSome.mp (Option.isSome_of_eq_some hs)
  have hkind : .part p ∈ x.kind.pieces := by simpa using hp
  obtain ⟨hparts, _⟩ := ExprKind.expand_isSome.mp hsome
  exact hparts p (x.kind.mem_parts.mpr hkind)

theorem ReqKind.opens_of_expand {κ : Type} {o : Opening κ} {x : ReqKind} {s : ReqTree κ}
    (hs : x.expand o = some s) (p : Part) (hp : .part p ∈ x.pieces) : o.Opens p := by
  have hsome : (x.expand o).isSome := Option.isSome_of_eq_some hs
  exact expand_isSome.mp hsome p (x.mem_parts.mpr hp)

/-- The parts of a constraint that unfolds have trees. -/
theorem ConstraintKind.opens_of_expand {o : Opening ConstraintTree} {x : ConstraintKind}
    {s : ConstraintTree} (hs : x.expand o = some s) (p : Part) (hp : .part p ∈ x.pieces) :
    o.Opens p := by
  have hsome : (x.expand o).isSome := Option.isSome_of_eq_some hs
  obtain ⟨hparts, _⟩ := expand_isSome.mp hsome
  exact hparts p (x.mem_parts.mpr hp)

/-! ## Trees stay -/

/-- What the first opening tells, the second tells too. -/
structure Opening.Le {κ : Type} (o o' : Opening κ) : Prop where
  name : ∀ n s, o.name n = some s → o'.name n = some s
  expr : ∀ e s, o.expr e = some s → o'.expr e = some s
  req : ∀ r s, o.req r = some s → o'.req r = some s
  constraint : ∀ c s, o.constraint c = some s → o'.constraint c = some s

section Le

variable {κ : Type} {o o' : Opening κ}

/-- A term keeps its tree when the opening tells more. -/
theorem Term.expand_mono (h : o.Le o') (x : Term) (s : TermTree κ) (hs : x.expand o = some s) :
    x.expand o' = some s := by
  cases x <;> simp [expand, Option.bind_eq_some_iff] at hs ⊢ <;>
    grind [h.name, h.expr, h.constraint]

/-- A name keeps its tree when the opening tells more. -/
theorem NameKind.expand_mono (h : o.Le o') {x : NameKind} {s : NameTree κ}
    (hs : x.expand o = some s) : x.expand o' = some s := by
  cases x <;> simp [expand, Option.bind_eq_some_iff] at hs ⊢ <;>
    grind [h.name, mapM_mono (Term.expand_mono h)]

/-- What an expression is keeps its tree when the opening tells more. -/
theorem ExprKind.expand_mono (h : o.Le o') {x : ExprKind} {s : ExprKindTree κ}
    (hs : x.expand o = some s) : x.expand o' = some s := by
  cases x <;> simp [expand, Option.bind_eq_some_iff] at hs ⊢ <;>
    grind [h.expr, mapM_mono h.expr, mapM_mono h.req, mapM_mono (Term.expand_mono h)]

/-- An expression keeps its tree when the opening tells more. -/
theorem Expr.expand_mono (h : o.Le o') {x : Expr} {s : ExprTree κ} (hs : x.expand o = some s) :
    x.expand o' = some s := by
  obtain ⟨t, ht, hs⟩ := Option.bind_eq_some_iff.mp hs
  exact Option.bind_eq_some_iff.mpr ⟨t, ExprKind.expand_mono h ht, hs⟩

/-- A requirement keeps its tree when the opening tells more. -/
theorem ReqKind.expand_mono (h : o.Le o') {x : ReqKind} {s : ReqTree κ}
    (hs : x.expand o = some s) : x.expand o' = some s := by
  cases x <;> simp [expand, Option.bind_eq_some_iff] at hs ⊢ <;> grind [h.expr]

end Le

/-- A constraint keeps its tree when the opening tells more. -/
theorem ConstraintKind.expand_mono {o o' : Opening ConstraintTree} (h : o.Le o')
    {x : ConstraintKind} {s : ConstraintTree} (hs : x.expand o = some s) :
    x.expand o' = some s := by
  cases x <;> simp [expand, Option.bind_eq_some_iff] at hs ⊢ <;>
    grind [h.expr, h.constraint, mapM_mono (Term.expand_mono h)]

end TermGraph
