import TermGraph.Proofs.Stability

/-!
# The types of expressions

An expression is stored together with a type that was computed when it was
built.  This file says which type that has to be, without looking at the code
that computes it: `cx.HasType ty kind` says that in the graph `cx` an
expression of structure `kind` is of type `ty`.

The judgment looks at the types of the operands and at the declarations
referred to.  Both are only ever added to, and a declaration may be given
another definition but nothing else, so what has a type has it for ever
(`Context.HasType.later`).

Of literals and initializers the type is chosen by whoever builds them, and
the judgment asks nothing.
-/

namespace TermGraph

/-! ## Stripping a type -/

/-- One reference around the type is taken off, if there is one. -/
inductive Context.Unreferenced (cx : Context) : TypeId → TypeId → Prop
  | reference {ty inner : TypeId} (h : cx.type ty = .ok (.wrapped .reference inner)) :
      cx.Unreferenced ty inner
  | other {ty : TypeId} {kind : TypeKind} (h : cx.type ty = .ok kind)
      (hno : ∀ inner, kind ≠ .wrapped .reference inner) : cx.Unreferenced ty ty

/-- One set of qualifiers around the type is taken off, if there is one. -/
inductive Context.Unqualified (cx : Context) : TypeId → TypeId → Prop
  | qualified {ty base : TypeId} {quals : Qualifiers} (h : cx.type ty = .ok (.qualified base quals)) :
      cx.Unqualified ty base
  | other {ty : TypeId} {kind : TypeKind} (h : cx.type ty = .ok kind)
      (hno : ∀ base quals, kind ≠ .qualified base quals) : cx.Unqualified ty ty

/-- The type of an expression without one reference and then without its
qualifiers. -/
def Context.ValueType (cx : Context) (e : ExprId) (ty : TypeId) : Prop :=
  ∃ x stripped, cx.arena.expr e = .ok x ∧ cx.Unreferenced x.ty stripped ∧
    cx.Unqualified stripped ty

/-! ## Declarations referred to -/

namespace DeclKind

/-- The type of an object or of a parameter that stands for one. -/
def objectType? : DeclKind → Option TypeId
  | .var _ ty _ | .objectParm _ ty | .valueParm _ _ ty => some ty
  | _ => none

def fieldType? : DeclKind → Option TypeId
  | .field _ ty _ => some ty
  | _ => none

/-- The type of a function of the flavor. -/
def functionType? (flavor : FunctionFlavor) : DeclKind → Option TypeId
  | .function found _ ty _ _ => if found = flavor then some ty else none
  | _ => none

/-- What is said of a declaration by its type alone does not look at its
definition. -/
theorem objectType?_header (kind : DeclKind) : kind.header.objectType? = kind.objectType? := by
  cases kind <;> rfl

theorem fieldType?_header (kind : DeclKind) : kind.header.fieldType? = kind.fieldType? := by
  cases kind <;> rfl

theorem functionType?_header (flavor : FunctionFlavor) (kind : DeclKind) :
    kind.header.functionType? flavor = kind.functionType? flavor := by
  cases kind <;> rfl

end DeclKind

/-- The declaration stands for another of this kind: for what it wraps if it
is a template, else for itself. -/
def Arena.StandsFor (a : Arena) (d : DeclId) (kind : DeclKind) : Prop :=
  ∃ target, a.parameterized d = .ok target ∧ a.decl target = .ok kind

/-- A declaration that has a type of the sort asked for, one template around
it looked through. -/
def Arena.Declares (a : Arena) (d : DeclId) (type? : DeclKind → Option TypeId) (ty : TypeId) :
    Prop :=
  ∃ kind, a.StandsFor d kind ∧ type? kind = some ty

/-- A declaration has one type of a sort. -/
theorem Arena.Declares.unique {a : Arena} {d : DeclId} {type? : DeclKind → Option TypeId}
    {ty ty' : TypeId} (h : a.Declares d type? ty) (h' : a.Declares d type? ty') : ty = ty' := by
  obtain ⟨kind, ⟨target, htarget, hkind⟩, hty⟩ := h
  obtain ⟨kind', ⟨target', htarget', hkind'⟩, hty'⟩ := h'
  obtain rfl := Except.ok.inj (htarget.symm.trans htarget')
  obtain rfl := Except.ok.inj (hkind.symm.trans hkind')
  exact Option.some.inj (hty.symm.trans hty')

/-! ## The judgment -/

/-- The type of an operation: that of truth values, or the value type of its
first operand. -/
def Context.ResultType (cx : Context) (truthValued : Bool) (operand : ExprId) (ty : TypeId) :
    Prop :=
  if truthValued then ty = .bool else cx.ValueType operand ty

/-- An expression of this structure is of this type. -/
def Context.HasType (cx : Context) (ty : TypeId) : ExprKind → Prop
  | .boolean _ | .check _ _ | .requires _ _ _ => ty = .bool
  | .unary op operand => cx.ResultType (op = .not) operand ty
  | .binary op lhs _ => cx.ResultType (op.isLogical || op.isComparison) lhs ty
  | .object name d => cx.arena.declName d = .ok name ∧
      ∃ declared, cx.arena.Declares d DeclKind.objectType? declared ∧
        cx.type ty = .ok (.wrapped .reference declared)
  | .field _ name d => cx.arena.declName d = .ok name ∧
      ∃ declared, cx.arena.Declares d DeclKind.fieldType? declared ∧
        cx.type ty = .ok (.wrapped .reference declared)
  | .function name d => cx.arena.declName d = .ok name ∧
      cx.arena.Declares d (DeclKind.functionType? .free) ty
  | .method _ name d => cx.arena.declName d = .ok name ∧
      cx.arena.Declares d (DeclKind.functionType? .method) ty
  | .synthetic d => (Build.declaredType d).runOn cx = (.ok ty, cx)
  | .call callee args => ∃ called params, cx.ValueType callee called ∧
      cx.type called = .ok (.function params ty) ∧ params.length = args.length
  | .integer _ | .trivialInit | .copyInit _ | .bindInit _ | .directInit _ _ | .aggregateInit _ =>
    True

/-! ## What has a type keeps it -/

/-- An expression keeps its type and its structure. -/
theorem Arena.Precedes.expr {a b : Arena} (hle : a.Precedes b) {e : ExprId} {x : Expr}
    (h : a.expr e = .ok x) : b.expr e = .ok x :=
  fetch_later hle.exprs h

/-- A declaration keeps its name. -/
theorem Arena.Precedes.declName {a b : Arena} (hle : a.Precedes b) {d : DeclId} {n : NameId}
    (h : a.declName d = .ok n) : b.declName d = .ok n := by
  obtain ⟨⟨core, kind⟩, hcore, hname⟩ := map_eq_ok.mp h
  obtain ⟨kind', hcore', hheader⟩ := hle.core hcore
  have hsame : kind'.name? = kind.name? :=
    DeclKind.congr_header (fun kind => by cases kind <;> rfl) hheader
  refine map_eq_ok.mpr ⟨(core, kind'), hcore', ?_⟩
  rw [← hname, hsame]

/-- A declaration keeps its type, if that is no part of its definition. -/
theorem Arena.Declares.later {a b : Arena} (hle : a.Precedes b) {d : DeclId}
    {type? : DeclKind → Option TypeId} {ty : TypeId}
    (hheader : ∀ kind, type? kind.header = type? kind) (h : a.Declares d type? ty) :
    b.Declares d type? ty := by
  obtain ⟨kind, ⟨target, htarget, hkind⟩, hty⟩ := h
  obtain ⟨kind', hkind', hsame⟩ := hle.decl hkind
  refine ⟨kind', ⟨target, hle.parameterized htarget, hkind'⟩, ?_⟩
  rw [DeclKind.congr_header hheader hsame, hty]

namespace Context

variable {cx cx' : Context}

/-- A type refers to the same type later, or still to none. -/
theorem Unreferenced.later (hle : cx.Precedes cx') {ty stripped : TypeId}
    (h : cx.Unreferenced ty stripped) : cx'.Unreferenced ty stripped := by
  cases h with
  | reference h => exact .reference (hle.type h)
  | other h hno => exact .other (hle.type h) hno

/-- A type has the same qualifiers later, or still none. -/
theorem Unqualified.later (hle : cx.Precedes cx') {ty stripped : TypeId}
    (h : cx.Unqualified ty stripped) : cx'.Unqualified ty stripped := by
  cases h with
  | qualified h => exact .qualified (hle.type h)
  | other h hno => exact .other (hle.type h) hno

/-- An expression keeps its value type. -/
theorem ValueType.later (hle : cx.Precedes cx') {e : ExprId} {ty : TypeId}
    (h : cx.ValueType e ty) : cx'.ValueType e ty := by
  obtain ⟨x, stripped, hx, href, hqual⟩ := h
  exact ⟨x, stripped, hle.arena.expr hx, href.later hle, hqual.later hle⟩

/-- The type of an operation stays what it is. -/
theorem ResultType.later (hle : cx.Precedes cx') {truthValued : Bool} {operand : ExprId}
    {ty : TypeId} (h : cx.ResultType truthValued operand ty) :
    cx'.ResultType truthValued operand ty := by
  cases truthValued with
  | true => exact h
  | false => exact ValueType.later hle h

/-- A declared type that is known is known at every later state. -/
theorem declaredType_later (hle : cx.Precedes cx') {d : DeclId} {ty : TypeId}
    (h : (Build.declaredType d).runOn cx = (.ok ty, cx)) :
    (Build.declaredType d).runOn cx' = (.ok ty, cx') :=
  Build.declaredType_repeats ty cx cx' h hle hle

/-- **What has a type keeps it.** -/
theorem HasType.later (hle : cx.Precedes cx') {ty : TypeId} {kind : ExprKind}
    (h : cx.HasType ty kind) : cx'.HasType ty kind := by
  cases kind with
  | boolean | check | requires | integer | trivialInit | copyInit | bindInit | directInit
  | aggregateInit => exact h
  | unary op operand => exact ResultType.later hle h
  | binary op lhs rhs => exact ResultType.later hle h
  | object name d =>
    obtain ⟨hname, declared, hdeclared, hty⟩ := h
    exact ⟨hle.arena.declName hname, declared,
      hdeclared.later hle.arena DeclKind.objectType?_header, hle.type hty⟩
  | field obj name d =>
    obtain ⟨hname, declared, hdeclared, hty⟩ := h
    exact ⟨hle.arena.declName hname, declared,
      hdeclared.later hle.arena DeclKind.fieldType?_header, hle.type hty⟩
  | function name d =>
    obtain ⟨hname, hdeclared⟩ := h
    exact ⟨hle.arena.declName hname,
      hdeclared.later hle.arena (DeclKind.functionType?_header .free)⟩
  | method obj name d =>
    obtain ⟨hname, hdeclared⟩ := h
    exact ⟨hle.arena.declName hname,
      hdeclared.later hle.arena (DeclKind.functionType?_header .method)⟩
  | synthetic d => exact declaredType_later hle h
  | call callee args =>
    obtain ⟨called, params, hcallee, hcalled, hlength⟩ := h
    exact ⟨called, params, hcallee.later hle, hle.type hcalled, hlength⟩

/-! ## The judgment and the code -/

/-- What the code strips off is what the judgment says. -/
theorem valueType_of_valueTypeOf {e : ExprId} {ty : TypeId} (h : cx.valueTypeOf e = .ok ty) :
    cx.ValueType e ty := by
  obtain ⟨held, hheld, h⟩ := bind_eq_ok.mp h
  obtain ⟨x, hx, rfl⟩ := map_eq_ok.mp hheld
  obtain ⟨kind, hkind, h⟩ := bind_eq_ok.mp h
  -- what is left to do after the reference, for whatever is left of the type
  have hqual : ∀ stripped, (do return (← cx.splitQualifiers stripped).1 : Except Fault TypeId)
      = .ok ty → cx.Unqualified stripped ty := by
    intro stripped hread
    obtain ⟨parts, hparts, hread⟩ := bind_eq_ok.mp hread
    cases hread
    obtain ⟨found, hfound, hparts⟩ := bind_eq_ok.mp hparts
    split at hparts
    · cases hparts
      exact .qualified hfound
    · next hno =>
      cases hparts
      exact .other hfound fun base quals heq => hno base quals heq
  split at h
  · exact ⟨x, _, hx, .reference hkind, hqual _ h⟩
  · next hno => exact ⟨x, _, hx, .other hkind fun inner heq => hno inner heq, hqual _ h⟩

end Context

end TermGraph
