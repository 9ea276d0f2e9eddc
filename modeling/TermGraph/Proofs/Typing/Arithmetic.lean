import TermGraph.Proofs.Expr.Congruence
import TermGraph.Proofs.Types.Formed
import TermGraph.Proofs.Typing.Runs

/-!
# The types of arithmetic

Arithmetic is of the type of its first operand with one reference and then the
qualifiers taken off.  An expression that refers to an object has a reference
around the type that was declared, so of an object that was declared as a value
the type of the value is left.

Qualifiers do not stand around qualifiers, so none are left, whatever the type of
the operand was (`Context.ValueType.isBare`).  References do stand around
references, so one may be left.  `Context.ValueType.isReference_iff` says when:
the type of the operand has to have a reference or qualifiers around a reference
already.  For an object, a parameter or a field that is the case exactly if it
was declared as a reference (`Context.coversReference_iff`).
-/

namespace TermGraph

/-- The operand whose type an arithmetic expression takes over: the first one,
unless the operation tells a truth value. -/
def ExprRequest.arithmetic? : ExprRequest → Option ExprId
  | .unary op operand => if op = .not then none else some operand
  | .binary op lhs _ => if op.isLogical || op.isComparison then none else some lhs
  | _ => none

namespace Context

/-- A type of references. -/
def IsReference (cx : Context) (ty : TypeId) : Prop :=
  ∃ inner, cx.type ty = .ok (.wrapped .reference inner)

/-- A type of references, perhaps with qualifiers. -/
def IsAlias (cx : Context) (ty : TypeId) : Prop :=
  cx.IsReference ty ∨ ∃ base quals, cx.type ty = .ok (.qualified base quals) ∧ cx.IsReference base

/-- Something that arithmetic takes off stands around a type of references. -/
inductive CoversReference (cx : Context) (ty : TypeId) : Prop
  | reference {inner : TypeId} (h : cx.type ty = .ok (.wrapped .reference inner))
    (hinner : cx.IsAlias inner)
  | qualifiers {base : TypeId} {quals : Qualifiers} (h : cx.type ty = .ok (.qualified base quals))
    (hbase : cx.IsReference base)

/-- The expression refers to an object, a parameter or a field that was declared
to be of the type. -/
def RefersTo (cx : Context) (declared : TypeId) : ExprKind → Prop
  | .object _ d => cx.arena.Declares d DeclKind.objectType? declared
  | .field _ _ d => cx.arena.Declares d DeclKind.fieldType? declared
  | _ => False

/-- How an arithmetic expression is typed by its first operand. -/
structure TypesArithmetic (cx : Context) (operand result : Expr) : Prop where
  bare : cx.IsBare result.ty
  reference_iff : cx.IsReference result.ty ↔ cx.CoversReference operand.ty
  declared_iff : ∀ declared, cx.RefersTo declared operand.kind →
    (cx.IsReference result.ty ↔ cx.IsAlias declared)

variable {cx : Context} {ty stripped : TypeId}

/-! ## What is left of a type -/

/-- Where types are formed no qualifiers are left. -/
theorem Unqualified.isBare (hcx : cx.Formed) (h : cx.Unqualified stripped ty) : cx.IsBare ty := by
  cases h with
  | qualified h =>
    obtain ⟨_, _, hbare⟩ := hcx stripped _ h
    exact hbare
  | other h hno => exact ⟨_, h, hno⟩

/-- A reference is left under qualifiers. -/
theorem Unqualified.isReference_iff (h : cx.Unqualified stripped ty) :
    cx.IsReference ty ↔ cx.IsAlias stripped := by
  cases h with
  | qualified h =>
    constructor
    · exact fun href => .inr ⟨ty, _, h, href⟩
    · rintro (⟨inner, hinner⟩ | ⟨base, quals, hbase, href⟩)
      · cases Except.ok.inj (h.symm.trans hinner)
      · cases Except.ok.inj (h.symm.trans hbase)
        exact href
  | other h hno =>
    constructor
    · exact .inl
    · rintro (href | ⟨base, quals, hbase, _⟩)
      · exact href
      · exact (hno base quals (Except.ok.inj (h.symm.trans hbase))).elim

/-- A reference, perhaps with qualifiers, is left where something that is taken
off stood around one. -/
theorem Unreferenced.isAlias_iff (h : cx.Unreferenced ty stripped) :
    cx.IsAlias stripped ↔ cx.CoversReference ty := by
  cases h with
  | reference h =>
    constructor
    · exact .reference h
    · rintro (⟨hinner, halias⟩ | ⟨hqualified, _⟩)
      · cases Except.ok.inj (h.symm.trans hinner)
        exact halias
      · cases Except.ok.inj (h.symm.trans hqualified)
  | other h hno =>
    constructor
    · rintro (⟨inner, hinner⟩ | ⟨base, quals, hqualified, hbase⟩)
      · exact (hno inner (Except.ok.inj (h.symm.trans hinner))).elim
      · exact .qualifiers hqualified hbase
    · rintro (⟨hinner, _⟩ | ⟨hqualified, hbase⟩)
      · exact (hno _ (Except.ok.inj (h.symm.trans hinner))).elim
      · exact .inr ⟨_, _, hqualified, hbase⟩

/-- **No qualifiers are left**, whatever the type of the expression was. -/
theorem ValueType.isBare (hcx : cx.Formed) {e : ExprId} (h : cx.ValueType e ty) : cx.IsBare ty := by
  obtain ⟨x, stripped, _, _, hqual⟩ := h
  exact hqual.isBare hcx

/-- **When a reference is left.** -/
theorem ValueType.isReference_iff {e : ExprId} {x : Expr} (h : cx.ValueType e ty)
    (hx : cx.arena.expr e = .ok x) : cx.IsReference ty ↔ cx.CoversReference x.ty := by
  obtain ⟨y, stripped, hy, href, hqual⟩ := h
  obtain rfl : x = y := Except.ok.inj (hx.symm.trans hy)
  exact hqual.isReference_iff.trans href.isAlias_iff

/-- Around a type of references to a type, a reference is left exactly if that is
one of references. -/
theorem coversReference_iff {declared : TypeId}
    (h : cx.type ty = .ok (.wrapped .reference declared)) :
    cx.CoversReference ty ↔ cx.IsAlias declared :=
  (Unreferenced.reference h).isAlias_iff.symm

/-- An expression that refers to an object or to a field has a reference around
the type that was declared. -/
theorem HasType.type_of_refersTo {kind : ExprKind} {declared : TypeId} (h : cx.HasType ty kind)
    (hdeclared : cx.RefersTo declared kind) : cx.type ty = .ok (.wrapped .reference declared) := by
  cases kind with
  | object name d =>
    obtain ⟨_, found, hfound, hty⟩ := h
    rwa [← hfound.unique hdeclared]
  | field obj name d =>
    obtain ⟨_, found, hfound, hty⟩ := h
    rwa [← hfound.unique hdeclared]
  | _ => exact hdeclared.elim

/-- **Arithmetic is typed by its first operand** where types are formed and
expressions are well-typed. -/
theorem ValueType.typesArithmetic (hformed : cx.Formed) (htyped : cx.WellTyped) {e : ExprId}
    {operand result : Expr} (hoperand : cx.arena.expr e = .ok operand)
    (h : cx.ValueType e result.ty) : cx.TypesArithmetic operand result where
  bare := h.isBare hformed
  reference_iff := h.isReference_iff hoperand
  declared_iff declared hdeclared := by
    have hty := (htyped e operand hoperand).type_of_refersTo hdeclared
    rw [h.isReference_iff hoperand, coversReference_iff hty]

/-- What the judgment says is what the code strips off. -/
theorem valueTypeOf_eq_ok {e : ExprId} : cx.valueTypeOf e = .ok ty ↔ cx.ValueType e ty := by
  refine ⟨valueType_of_valueTypeOf, fun h => ?_⟩
  obtain ⟨x, stripped, hx, href, hqual⟩ := h
  have hsplit : ∃ quals, cx.splitQualifiers stripped = .ok (ty, quals) := by
    cases hqual with
    | qualified h => exact ⟨_, splitQualifiers_eq_ok.mpr (.inl h)⟩
    | other h hno => exact ⟨_, splitQualifiers_eq_ok.mpr (.inr ⟨rfl, rfl, _, h, hno⟩)⟩
  obtain ⟨quals, hsplit⟩ := hsplit
  refine bind_eq_ok.mpr ⟨x.ty, map_eq_ok.mpr ⟨x, hx, rfl⟩, ?_⟩
  cases href with
  | reference h =>
    exact bind_eq_ok.mpr ⟨_, h, bind_eq_ok.mpr ⟨_, rfl, bind_eq_ok.mpr ⟨_, hsplit, rfl⟩⟩⟩
  | other h hno =>
    refine bind_eq_ok.mpr ⟨_, h, ?_⟩
    split
    · next inner => exact (hno inner rfl).elim
    · exact bind_eq_ok.mpr ⟨_, rfl, bind_eq_ok.mpr ⟨_, hsplit, rfl⟩⟩

end Context

/-! ## Requests for arithmetic -/

/-- Arithmetic is built by looking for the value type of the operand, which is
the type that it is stored with. -/
theorem ExprRequest.perform_arithmetic {r : ExprRequest} {operand : ExprId}
    (h : r.arithmetic? = some operand) :
    ∃ kind, r.perform = (Build.read fun cx => cx.valueTypeOf operand) >>= Build.pushExpr kind := by
  cases r with
  | unary op x =>
    cases op with
    | not => cases h
    | neg | pos | bitNot =>
      cases h
      exact ⟨_, rfl⟩
  | binary op lhs rhs =>
    rw [arithmetic?] at h
    split at h
    · cases h
    · next hvalued =>
      cases h
      exact ⟨.binary op operand rhs, if_neg hvalued⟩
  | _ => cases h

namespace Workspace

variable {w : Workspace} {r : ExprRequest} {operand : ExprId}

/-- Arithmetic is answered exactly if the operand has a value type. -/
theorem answers_arithmetic (h : r.arithmetic? = some operand) :
    (∃ e, (w.step (.ask (.expr r))).1 = .ok (.node .expr e)) ↔
      ∃ ty, w.context.ValueType operand ty := by
  obtain ⟨kind, hperform⟩ := ExprRequest.perform_arithmetic h
  rw [step_expr, hperform]
  cases hread : w.context.valueTypeOf operand with
  | ok ty =>
    rw [Build.runOn_read_bind hread]
    exact ⟨fun _ => ⟨ty, Context.valueTypeOf_eq_ok.mp hread⟩, fun _ => ⟨_, rfl⟩⟩
  | error fault =>
    rw [Build.runOn_bind, Build.runOn_read, hread]
    constructor
    · rintro ⟨e, hanswer⟩
      cases hanswer
    · rintro ⟨ty, hty⟩
      cases hread.symm.trans (Context.valueTypeOf_eq_ok.mpr hty)

/-- What is answered has been stored with the value type of the operand. -/
theorem stored_arithmetic (h : r.arithmetic? = some operand) {e : ExprId}
    (hanswer : (w.step (.ask (.expr r))).1 = .ok (.node .expr e)) :
    ∃ x, (w.step (.ask (.expr r))).2.context.arena.expr e = .ok x ∧
      w.context.ValueType operand x.ty := by
  obtain ⟨kind, hperform⟩ := ExprRequest.perform_arithmetic h
  obtain ⟨ty, hty⟩ := (answers_arithmetic h).mp ⟨e, hanswer⟩
  rw [step_expr, hperform, Build.runOn_read_bind (Context.valueTypeOf_eq_ok.mpr hty)] at hanswer ⊢
  cases hanswer
  exact ⟨⟨ty, kind⟩, fetch_push_size _ _, hty⟩

/-- **The types of arithmetic.**  After any run arithmetic is answered exactly if
its first operand has a value type.  The type of the answer is then, and however
the run goes on, without qualifiers.  It is a type of references exactly if in
the type of the operand a reference or qualifiers stand around one; so for an
operand that refers to an object, a parameter or a field, exactly if that was
declared of a type of references, with or without qualifiers. -/
theorem arithmetic_typed {config : Config} {digest : List Nat → UInt64} {commands : List Command}
    {r : ExprRequest} {operand : ExprId} (hr : r.arithmetic? = some operand) :
    ((∃ e, ((reached config digest commands).step (.ask (.expr r))).1 = .ok (.node .expr e)) ↔
      ∃ ty, (reached config digest commands).context.ValueType operand ty) ∧
    ∀ e, ((reached config digest commands).step (.ask (.expr r))).1 = .ok (.node .expr e) →
      ∀ rest, ∃ x y,
        (reached config digest (commands ++ .ask (.expr r) :: rest)).context.arena.expr operand
          = .ok x ∧
        (reached config digest (commands ++ .ask (.expr r) :: rest)).context.arena.expr e = .ok y ∧
        (reached config digest (commands ++ .ask (.expr r) :: rest)).context.TypesArithmetic
          x y := by
  refine ⟨answers_arithmetic hr, fun e hanswer rest => ?_⟩
  obtain ⟨y, hy, hvalue⟩ := stored_arithmetic hr hanswer
  have hle : ((reached config digest commands).step (.ask (.expr r))).2.context.Precedes
      (reached config digest (commands ++ .ask (.expr r) :: rest)).context := by
    rw [reached, reached, run_append]
    exact run_precedes _ rest
  -- what the value type of the operand was it is in the end
  have hlater := hvalue.later ((step_precedes _ (.ask (.expr r))).trans hle)
  obtain ⟨x, _, hx, _⟩ := id hlater
  exact ⟨x, y, hx, hle.arena.expr hy,
    hlater.typesArithmetic (formed_reached _ _ _) (wellTyped_reached _ _ _) hx⟩

/-- A run that declares a variable of a type of references, refers to it and
negates it. -/
def aliasRun : List Command :=
  [.ask (.type .int), .ask (.type (.wrapped .reference ⟨3⟩)), .ask (.name (.identifier "r")),
    .ask (.decl (.var ⟨1⟩ ⟨4⟩ none)), .ask (.expr (.reference ⟨1⟩)), .ask (.expr (.unary .neg ⟨0⟩))]

/-- The negation of the variable, multiplied by the variable, is of the type of a
value. -/
theorem arithmetic_typed_aliasRun :
    (ExprRequest.binary .mul ⟨1⟩ ⟨0⟩).arithmetic? = some ⟨1⟩ ∧
      ∃ e y, ((reached .standard ConstraintTable.polynomialDigest aliasRun).step
          (.ask (.expr (.binary .mul ⟨1⟩ ⟨0⟩)))).1 = .ok (.node .expr e) ∧
        (reached .standard ConstraintTable.polynomialDigest
          (aliasRun ++ [.ask (.expr (.binary .mul ⟨1⟩ ⟨0⟩))])).context.arena.expr e = .ok y ∧
        (reached .standard ConstraintTable.polynomialDigest
          (aliasRun ++ [.ask (.expr (.binary .mul ⟨1⟩ ⟨0⟩))])).context.IsBare y.ty ∧
        ¬ (reached .standard ConstraintTable.polynomialDigest
          (aliasRun ++ [.ask (.expr (.binary .mul ⟨1⟩ ⟨0⟩))])).context.IsReference y.ty := by
  have hr : (ExprRequest.binary .mul ⟨1⟩ ⟨0⟩).arithmetic? = some ⟨1⟩ := rfl
  have hanswer : ((reached .standard ConstraintTable.polynomialDigest aliasRun).step
      (.ask (.expr (.binary .mul ⟨1⟩ ⟨0⟩)))).1 = .ok (.node .expr ⟨2⟩) := rfl
  obtain ⟨x, y, hx, hy, htypes⟩ := (arithmetic_typed hr).2 ⟨2⟩ hanswer []
  refine ⟨hr, ⟨2⟩, y, hanswer, hy, htypes.bare, ?_⟩
  -- the negation is of a type of references to a value
  have hnegation : (reached .standard ConstraintTable.polynomialDigest
      (aliasRun ++ [.ask (.expr (.binary .mul ⟨1⟩ ⟨0⟩))])).context.arena.expr ⟨1⟩
        = .ok ⟨⟨4⟩, .unary .neg ⟨0⟩⟩ := rfl
  obtain rfl := Except.ok.inj (hnegation.symm.trans hx)
  have hreference : (reached .standard ConstraintTable.polynomialDigest
      (aliasRun ++ [.ask (.expr (.binary .mul ⟨1⟩ ⟨0⟩))])).context.type ⟨4⟩
        = .ok (.wrapped .reference ⟨3⟩) := rfl
  rw [htypes.reference_iff, Context.coversReference_iff hreference]
  rintro (⟨_, h⟩ | ⟨_, _, h, _⟩) <;> cases h

/-- **Arithmetic may be of a type of references.**  The negation of the variable
is. -/
theorem alias_negated :
    (ExprRequest.unary .neg ⟨0⟩).arithmetic? = some ⟨0⟩ ∧
      ((reached .standard ConstraintTable.polynomialDigest (aliasRun.take 5)).step
        (.ask (.expr (.unary .neg ⟨0⟩)))).1 = .ok (.node .expr ⟨1⟩) ∧
      (reached .standard ConstraintTable.polynomialDigest aliasRun).context.arena.expr ⟨1⟩
        = .ok ⟨⟨4⟩, .unary .neg ⟨0⟩⟩ ∧
      (reached .standard ConstraintTable.polynomialDigest aliasRun).context.IsReference ⟨4⟩ :=
  ⟨rfl, rfl, rfl, ⟨3⟩, rfl⟩

end Workspace

end TermGraph
