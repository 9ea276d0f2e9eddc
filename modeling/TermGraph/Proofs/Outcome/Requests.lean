import TermGraph.Proofs.Outcome.Basic

/-!
# What requests come to

Every construction is atomic, two apart: the call of a declared function stores
the reference to the function before the call is checked, and a definition that
is built and linked is stored before it is known whether it can be linked.
Both are an atomic construction after another one and are taken apart by
`Build.Atomic.then_atomic`.

One lemma per construction, each following its code.  Where a new node is asked
for the postcondition is `Context.Makes`: the effects fit, they add one node of
the category, and the answer is its handle.  Type requests add nothing to the
arena (`Context.Silent`), the one for a made-up type apart.
-/

namespace TermGraph

open Build

/-! ## Postconditions -/

/-- The effects fit and add no node of the category. -/
def Context.Spares (cx : Context) (c : Category) (es : List Effect) : Prop :=
  cx.Fitting es ∧ c.pushed es = 0

/-- The effects fit and add nothing to the arena. -/
def Context.Silent (cx : Context) (es : List Effect) : Prop := ∀ c, cx.Spares c es

/-- The effects fit, they add one node of the category, and the handle is that
of the node. -/
def Context.Makes (cx : Context) {c : Category} (id : Handle c) (es : List Effect) : Prop :=
  cx.Fitting es ∧ cx.Adds 0 id es

/-- The handle of a definition that carries nothing, which is shared. -/
def DefKind.shared? : DefKind → Option DefId
  | .empty => some .empty
  | .deleted => some .deleted
  | .defaulted => some .defaulted
  | _ => none

/-- What a definition comes to: the shared handle, if it carries nothing, else
a new node and its handle. -/
def Context.Defines (cx : Context) (kind : DefKind) (body : DefId) (es : List Effect) : Prop :=
  match kind.shared? with
  | some shared => body = shared ∧ es = []
  | none => body = ⟨cx.count .definition⟩ ∧ es = [.definition kind]

namespace Context

variable {cx : Context}

theorem silent_nil : cx.Silent [] := fun _ => ⟨trivial, rfl⟩

/-- Storing a type that is formed adds nothing to the arena. -/
theorem silent_type {kind : TypeKind} (h : cx.Forms kind) : cx.Silent [.type kind] :=
  fun _ => ⟨⟨h, trivial⟩, rfl⟩

/-- Effects that add nothing to the arena fit. -/
theorem Silent.fitting {es : List Effect} (h : cx.Silent es) : cx.Fitting es := (h .name).1

/-- Two lists of effects that both spare a category spare it together. -/
theorem Spares.append {c : Category} {es fs : List Effect} (h : cx.Spares c es)
    (k : (cx.after es).Spares c fs) : cx.Spares c (es ++ fs) := by
  refine ⟨fitting_append.mpr ⟨h.1, k.1⟩, ?_⟩
  calc c.pushed (es ++ fs)
      = c.pushed es + c.pushed fs := List.countP_append
    _ = 0 := by rw [h.2, k.2]

/-- The last of several effects makes a node, the others none of its
category. -/
theorem Makes.last {c : Category} (hc : c.isInterned = false) {before : List Effect} {e : Effect}
    (hbefore : cx.Spares c before) (hpush : e.pushes? = some c) (he : e.Fits (cx.after before)) :
    cx.Makes (⟨(cx.after before).count c⟩ : Handle c) (before ++ [e]) := by
  refine ⟨fitting_append.mpr ⟨hbefore.1, he, trivial⟩, ?_, ?_⟩
  · rw [count_after hc, hbefore.2]
  · have hone : c.pushed [e] = 1 := by simp [Category.pushed, hpush]
    calc c.pushed (before ++ [e])
        = c.pushed before + c.pushed [e] := List.countP_append
      _ = 0 + 1 := by rw [hbefore.2, hone]

/-- The only effect makes a node. -/
theorem Makes.only {c : Category} (hc : c.isInterned = false) {e : Effect}
    (hpush : e.pushes? = some c) (he : e.Fits cx) :
    cx.Makes (⟨cx.count c⟩ : Handle c) [e] :=
  .last hc (silent_nil c) hpush he

/-- Of two nodes made in a row the second one's handle is the next. -/
theorem Makes.next {c : Category} (hc : c.isInterned = false) {x y : Handle c}
    {es fs : List Effect} (hx : cx.Makes x es) (hy : (cx.after es).Makes y fs) :
    cx.Fitting (es ++ fs) ∧ cx.Adds 1 y (es ++ fs) := by
  obtain ⟨hfits, _, hpushed⟩ := hx
  obtain ⟨hfits', hindex, hpushed'⟩ := hy
  have hcount := count_after hc cx es
  have hboth : c.pushed (es ++ fs) = c.pushed es + c.pushed fs := List.countP_append
  exact ⟨fitting_append.mpr ⟨hfits, hfits'⟩, by omega, by omega⟩

end Context

namespace Build

variable {α β : Type} {b : Build α} {cx : Context}

/-- What repeats answers the same right afterwards. -/
theorem Atomic.again {post : α → List Effect → Prop} (hrepeats : b.Repeats cx)
    (h : b.Atomic cx post) :
    b.Atomic cx fun x es => post x es ∧ b.runOn (cx.after es) = (.ok x, cx.after es) := by
  rcases h with hfail | ⟨x, es, hrun, hx⟩
  · exact .inl hfail
  · have hle := cx.precedes_after es
    exact .inr ⟨x, es, hrun, hx, hrepeats x (cx.after es) (cx.after es) hrun hle (.refl _)⟩

/-- An atomic construction after another one: either the first fails and
nothing has changed, or its effects stay, whether the second one then fails or
answers. -/
theorem Atomic.then_atomic {f : α → Build β} {post : α → List Effect → Prop}
    {post₂ : α → List Effect → β → List Effect → Prop} (hb : b.Atomic cx post)
    (hf : ∀ x es, post x es → (f x).Atomic (cx.after es) (post₂ x es)) :
    (∃ failure, b.runOn cx = (.error failure, cx) ∧ (b >>= f).runOn cx = (.error failure, cx)) ∨
    ∃ x es, b.runOn cx = (.ok x, cx.after es) ∧ post x es ∧
      ((∃ failure, (b >>= f).runOn cx = (.error failure, cx.after es)) ∨
        ∃ y fs, (b >>= f).runOn cx = (.ok y, cx.after (es ++ fs)) ∧ post₂ x es y fs) := by
  rcases hb with ⟨failure, hrun⟩ | ⟨x, es, hrun, hx⟩
  · exact .inl ⟨failure, hrun, by rw [runOn_bind, hrun]⟩
  · refine .inr ⟨x, es, hrun, hx, ?_⟩
    have hbind : (b >>= f).runOn cx = (f x).runOn (cx.after es) := by rw [runOn_bind, hrun]
    rcases hf x es hx with ⟨failure, hfail⟩ | ⟨y, fs, hrun', hy⟩
    · exact .inl ⟨failure, hbind.trans hfail⟩
    · exact .inr ⟨y, fs, by rw [hbind, hrun', Context.after_append], hy⟩

/-! ## Names -/

/-- The number is drawn and the name stored, and neither can fail. -/
theorem placeholderName_sure : placeholderName.Sure cx fun n es => cx.Makes n es :=
  .bind (.freshPlaceholder (.pushName
    (.last rfl ⟨⟨trivial, trivial⟩, rfl⟩ rfl trivial)))

/-- A name that is stored is new. -/
theorem pushName_atomic {kind : NameKind} : (pushName kind).Atomic cx fun n es => cx.Makes n es :=
  .sure (.pushName (.only rfl rfl trivial))

/-- Reading the name for the report is all that happens before it. -/
theorem doesNotName_atomic {d : DeclId} {wanted : DeclSort} {post : α → List Effect → Prop} :
    Atomic (doesNotName d wanted) cx post :=
  .read_bind fun _ _ => .throw

/-- A template-id is new, or the declaration is no template and nothing has
happened. -/
theorem templateId_atomic {d : DeclId} {args : List Term} :
    (templateId d args).Atomic cx fun n es => cx.Makes n es := by
  refine .read_bind fun kind _ => ?_
  split
  · exact pushName_atomic
  · exact doesNotName_atomic

theorem conceptId_atomic {d : DeclId} {args : List Term} :
    (conceptId d args).Atomic cx fun n es => cx.Makes n es := by
  refine .read_bind fun kind _ => ?_
  split
  · exact pushName_atomic
  · exact doesNotName_atomic

end Build

/-- The name of the global namespace is shared, every other name is new. -/
theorem NameRequest.perform_atomic {cx : Context} {request : NameRequest}
    (h : request ≠ .global) : request.perform.Atomic cx fun n es => cx.Makes n es := by
  cases request with
  | identifier s =>
    exact .sure (.bind (.symbol (.pushName
      (.last rfl ⟨⟨trivial, trivial⟩, rfl⟩ rfl trivial))))
  | ofSymbol | operator | qualified => exact pushName_atomic
  | placeholder => exact .sure placeholderName_sure
  | destructor => exact .throw
  | templateId => exact templateId_atomic
  | conceptId => exact conceptId_atomic
  | global => exact (h rfl).elim

namespace Build

variable {cx : Context}

/-! ## Types -/

/-- Interning a type that is formed is sure. -/
theorem internType_sure {kind : TypeKind} (h : cx.Forms kind) :
    (internType kind).Sure cx fun _ es => cx.Silent es :=
  .internType (Context.silent_type h)

/-- The type is split before its qualified form is stored. -/
theorem qualifiedType_atomic {ty : TypeId} {quals : Qualifiers} :
    (qualifiedType ty quals).Atomic cx fun _ es => cx.Silent es := by
  unfold qualifiedType
  split
  · exact .sure (.pure Context.silent_nil)
  · next hquals =>
    refine .read_bind fun ⟨base, held⟩ hsplit => .sure (internType_sure ?_)
    exact ⟨ty, held, quals, hsplit, Bool.not_eq_true _ ▸ hquals, rfl⟩

/-- The types of the parameters are read before the function type is stored. -/
theorem functionType_atomic {parms : List DeclId} {ret : TypeId} :
    (functionType parms ret).Atomic cx fun _ es => cx.Silent es :=
  .read_bind fun _ _ => .sure (internType_sure trivial)

/-- The declaration is looked at before the type that it stands for is stored. -/
theorem typenameType_atomic {parm : DeclId} :
    (typenameType parm).Atomic cx fun _ es => cx.Silent es := by
  refine .read_bind fun kind hkind => ?_
  split
  · exact .sure (internType_sure ⟨_, _, _, hkind⟩)
  · exact .throw

/-- The type of a declared type parameter is there for the asking. -/
theorem typenameType_sure {parm : DeclId} {index : ParmIndex} {name : NameId}
    {default : Option TypeId} (h : cx.arena.decl parm = .ok (.typeParm index name default)) :
    (typenameType parm).Sure cx fun _ es => cx.Silent es := by
  obtain ⟨ty, es, hrun, hsilent⟩ : (internType (.typename parm)).Sure cx fun _ es => cx.Silent es :=
    internType_sure ⟨index, name, default, h⟩
  refine ⟨ty, es, ?_, hsilent⟩
  rw [typenameType, runOn_bind, Build.decl, runOn_read, h]
  exact hrun

/-- The parameter behind a made-up type is the one just stored, so nothing can
fail. -/
theorem placeholderType_sure : placeholderType.Sure cx fun _ es => cx.Fitting es := by
  refine .bind (placeholderName_sure.mono fun name es hname => .bind (.pushDecl ?_))
  -- the parameter that is asked for a type is the one just stored
  have hparm : ((cx.after es).after [.decl (.typeParm ⟨0, 0⟩ name none)]).arena.decl
      ⟨(cx.after es).count .decl⟩ = .ok (.typeParm ⟨0, 0⟩ name none) :=
    fetch_eq_ok.mpr Array.getElem?_push_size
  refine (typenameType_sure hparm).mono fun ty fs hty => ?_
  exact Context.fitting_append.mpr ⟨hname.1, Context.fitting_append.mpr ⟨⟨trivial, trivial⟩, hty.fitting⟩⟩

/-- What the declaration stands for is looked at before its type is stored. -/
theorem userType_atomic {d : DeclId} : (userType d).Atomic cx fun _ es => cx.Silent es := by
  refine .read_bind fun target _ => .read_bind fun kind hkind => ?_
  split
  · exact .sure (internType_sure ⟨_, _, _, hkind⟩)
  · exact .throw

/-- The declared type is read, or it is that of a class. -/
theorem declaredType_atomic {d : DeclId} :
    (declaredType d).Atomic cx fun _ es => cx.Silent es := by
  refine .read_bind fun core _ => ?_
  obtain ⟨core, kind⟩ := core
  cases kind with
  | superclass | var | function | field | objectParm | valueParm | typeParm | concept =>
    exact .sure (.pure Context.silent_nil)
  | classType => exact userType_atomic
  | template | nameSpace => exact .throw

/-- The plain integer types are stored at once. -/
theorem plainInteger_sure {signed : Bool} :
    (plainInteger signed).Sure cx fun _ es => cx.Silent es := by
  have hint : (internType (.integer signed cx.config.intPrecision)).Sure cx fun _ es =>
      cx.Silent es := internType_sure trivial
  exact hint

end Build

/-- **Requests for types are atomic**, and they store only types that are
formed. -/
theorem TypeRequest.perform_atomic {cx : Context} (request : TypeRequest) :
    request.perform.Atomic cx fun _ es => cx.Fitting es := by
  by_cases h : request = .placeholder
  · subst h
    exact .sure placeholderType_sure
  · -- All other type requests leave the arena alone.
    have hsilent : request.perform.Atomic cx fun _ es => cx.Silent es := by
      cases request with
      | void | bool | typeOfTypes => exact .sure (.pure Context.silent_nil)
      | byte | integer | float | auto | declauto | functionOf | wrapped | synthetic | union
      | enum => exact .sure (internType_sure trivial)
      | int | uint => exact .sure plainInteger_sure
      | placeholder => exact (h rfl).elim
      | decltype | array | dynarray => exact .throw
      | function => exact functionType_atomic
      | qualified => exact qualifiedType_atomic
      | typename => exact typenameType_atomic
      | user => exact userType_atomic
      | declared => exact declaredType_atomic
    exact hsilent.mono fun _ _ h => h.fitting

namespace Build

variable {cx : Context}

/-! ## Expressions -/

/-- An expression that has the type with which it is stored. -/
theorem pushExpr_atomic {kind : ExprKind} {ty : TypeId} (h : cx.HasType ty kind) :
    (pushExpr kind ty).Atomic cx fun e es => cx.Makes e es :=
  .sure (.pushExpr (.only rfl rfl h))

/-- An expression stored after types that it needs. -/
theorem pushExpr_after {kind : ExprKind} {ty : TypeId} {es : List Effect} (hes : cx.Silent es)
    (h : (cx.after es).HasType ty kind) :
    (pushExpr kind ty).Sure (cx.after es) fun e fs => cx.Makes e (es ++ fs) :=
  .pushExpr (.last rfl (hes .expr) rfl h)

/-- What a reference to a declaration comes to: a type of references to what
was declared, if an object was, and then the reference. -/
def Refers (cx : Context) (d : DeclId) (e : ExprId) (es : List Effect) : Prop :=
  e.index = cx.count .expr ∧ ∃ types kind ty, es = types ++ [.expr kind ty] ∧
    (types = [] ∨ ∃ declared, cx.arena.Declares d DeclKind.objectType? declared ∧
      types = [.type (.wrapped .reference declared)]) ∧
    (cx.after types).HasType ty kind ∧ kind.referencedDecl? = some d

/-- A reference that was made is a new expression: the type stored before it is
none. -/
theorem Refers.makes {d : DeclId} {e : ExprId} {es : List Effect} (h : Refers cx d e es) :
    cx.Makes e es := by
  obtain ⟨hindex, types, kind, ty, rfl, htypes, hty, _⟩ := h
  have hsilent : cx.Silent types := by
    rcases htypes with rfl | ⟨declared, _, rfl⟩
    · exact Context.silent_nil
    · exact Context.silent_type trivial
  have hmakes : cx.Makes (⟨(cx.after types).count .expr⟩ : ExprId) (types ++ [.expr kind ty]) :=
    .last rfl (hsilent .expr) rfl hty
  have he : e = ⟨(cx.after types).count .expr⟩ := by
    apply Handle.index_inj.mp
    rw [hindex, Context.count_after rfl, (hsilent .expr).2, Nat.add_zero]
  exact he ▸ hmakes

/-- A node of a reference type is stored after the type. -/
theorem pushExpr_reference_sure {kind : ExprKind} {ty : TypeId} {post : ExprId → List Effect → Prop}
    (h : ∀ ref, (cx.after [.type (.wrapped .reference ty)]).type ref = .ok (.wrapped .reference ty) →
      post ⟨cx.count .expr⟩ [.type (.wrapped .reference ty), .expr kind ref]) :
    Sure (do pushExpr kind (← referenceType ty)) cx post :=
  .bind (.internType (.pushExpr (h _ (cx.type_intern _))))

/-- Name, target and declaration are looked at before the type of references is
stored. -/
theorem reference_atomic {d : DeclId} : (reference d).Atomic cx fun e es => Refers cx d e es := by
  refine .read_bind fun name hname => .read_bind fun target htarget => ?_
  refine .read_bind fun kind hkind => ?_
  have hobject : ∀ ty, kind.objectType? = some ty →
      Sure (do pushExpr (.object name d) (← referenceType ty)) cx fun e es => Refers cx d e es := by
    intro ty hty
    have hdeclares : cx.arena.Declares d DeclKind.objectType? ty :=
      ⟨kind, ⟨target, htarget, hkind⟩, hty⟩
    refine pushExpr_reference_sure fun ref href => ?_
    exact ⟨rfl, [.type (.wrapped .reference ty)], _, _, rfl, .inr ⟨ty, hdeclares, rfl⟩,
      ⟨hname, ty, hdeclares, href⟩, rfl⟩
  split
  · exact .sure (hobject _ rfl)
  · exact .sure (hobject _ rfl)
  · exact .sure (hobject _ rfl)
  · next n ty parms body =>
    refine .sure (.pushExpr ⟨rfl, [], _, _, rfl, .inl rfl, ⟨hname, ?_⟩, rfl⟩)
    exact ⟨_, ⟨target, htarget, hkind⟩, rfl⟩
  · exact .read_bind fun _ _ => .throw

/-- Name, target and declaration are looked at before the type of references is
stored; a method needs no such type. -/
theorem memberReference_atomic {obj : ExprId} {d : DeclId} :
    (memberReference obj d).Atomic cx fun e es => cx.Makes e es := by
  refine .read_bind fun name hname => .read_bind fun target htarget => ?_
  refine .read_bind fun kind hkind => ?_
  split
  · next n ty body =>
    have hdeclares : cx.arena.Declares d DeclKind.fieldType? ty :=
      ⟨_, ⟨target, htarget, hkind⟩, rfl⟩
    have hsilent : cx.Silent [.type (.wrapped .reference ty)] := Context.silent_type trivial
    refine .sure (pushExpr_reference_sure fun ref href => ?_)
    exact Context.Makes.last rfl (hsilent .expr) rfl ⟨hname, ty, hdeclares, href⟩
  · exact pushExpr_atomic ⟨hname, _, ⟨target, htarget, hkind⟩, rfl⟩
  · exact .read_bind fun _ _ => .throw

/-- The concept is looked at before the check is stored. -/
theorem check_atomic {d : DeclId} {args : List Term} :
    (check d args).Atomic cx fun e es => cx.Makes e es := by
  refine .read_bind fun kind _ => ?_
  split
  · exact pushExpr_atomic rfl
  · exact .read_bind fun _ _ => .read_bind fun _ _ => .throw

/-- The value type of the operand is read before the expression is stored. -/
theorem unary_atomic {op : UnaryOp} {operand : ExprId} :
    (unary op operand).Atomic cx fun e es => cx.Makes e es := by
  cases op with
  | not => exact pushExpr_atomic rfl
  | neg | pos | bitNot =>
    exact .read_bind fun ty hty => pushExpr_atomic (Context.valueType_of_valueTypeOf hty)

/-- The value type of the left operand is read before the expression is stored. -/
theorem binary_atomic {op : BinaryOp} {lhs rhs : ExprId} :
    (binary op lhs rhs).Atomic cx fun e es => cx.Makes e es := by
  unfold binary
  by_cases htruth : (op.isLogical || op.isComparison) = true
  · rw [if_pos htruth]
    refine pushExpr_atomic ?_
    show cx.ResultType (op.isLogical || op.isComparison) lhs .bool
    rw [htruth]
    rfl
  · rw [if_neg htruth]
    refine .read_bind fun ty hty => pushExpr_atomic ?_
    show cx.ResultType (op.isLogical || op.isComparison) lhs ty
    rw [Bool.not_eq_true] at htruth
    rw [htruth]
    exact Context.valueType_of_valueTypeOf hty

/-- The number of arguments is checked before the call is stored. -/
theorem call_atomic {callee : ExprId} {args : List ExprId} :
    (call callee args).Atomic cx fun e es => cx.Makes e es := by
  refine .read_bind fun called hcalled => .read_bind fun kind hkind => ?_
  split
  · next params ret =>
    split
    · next hlength =>
      exact pushExpr_atomic ⟨called, params, Context.valueType_of_valueTypeOf hcalled, hkind,
        hlength⟩
    · exact .throw
  · exact .throw

/-- The call of a declared function is the reference to it and then the call;
the reference stays even if the call is refused. -/
theorem callDecl_outcome (cx : Context) (d : DeclId) (args : List ExprId) :
    (∃ failure, (reference d).runOn cx = (.error failure, cx) ∧
      (callDecl d args).runOn cx = (.error failure, cx)) ∨
    ∃ callee es, (reference d).runOn cx = (.ok callee, cx.after es) ∧ Refers cx d callee es ∧
      ((∃ failure, (callDecl d args).runOn cx = (.error failure, cx.after es)) ∨
        ∃ e fs, (callDecl d args).runOn cx = (.ok e, cx.after (es ++ fs)) ∧
          (cx.after es).Makes e fs) :=
  reference_atomic.then_atomic fun _ _ _ => call_atomic

/-- The type of a declaration may have to be stored, and then the expression
is. -/
theorem synthesized_atomic {d : DeclId} :
    Atomic (do pushExpr (.synthetic d) (← declaredType d)) cx fun e es => cx.Makes e es :=
  .bind ((declaredType_atomic.again declaredType_repeats).mono fun _ _ hty =>
    pushExpr_after hty.1 hty.2)

/-- The plain integer type and a literal of it. -/
theorem plainLiteral_sure {signed : Bool} {value : Int64} :
    Sure (do pushExpr (.integer value) (← plainInteger signed)) cx fun e es => cx.Makes e es :=
  .bind (plainInteger_sure.mono fun _ _ hty => pushExpr_after hty trivial)

end Build

/-- Every expression is new and of the right type; the call of a declared
function is treated on its own. -/
theorem ExprRequest.perform_atomic {cx : Context} {request : ExprRequest}
    (h : ∀ d args, request ≠ .callDecl d args) :
    request.perform.Atomic cx fun e es => cx.Makes e es := by
  cases request with
  | boolean | requires => exact pushExpr_atomic rfl
  | integer | trivialInit | copyInit | bindInit | directInit | aggregateInit =>
    exact pushExpr_atomic trivial
  | int | uint => exact .sure plainLiteral_sure
  | reference => exact reference_atomic.mono fun _ _ hrefers => hrefers.makes
  | memberReference => exact memberReference_atomic
  | check => exact check_atomic
  | synthesized => exact synthesized_atomic
  | unary => exact unary_atomic
  | binary => exact binary_atomic
  | call => exact call_atomic
  | callDecl d args => exact (h d args rfl).elim

namespace Build

variable {cx : Context}

/-! ## Definitions and declarations -/

/-- A definition is predefined or stored, and neither can fail. -/
theorem define_sure (kind : DefKind) :
    (define kind).Sure cx fun body es => cx.Defines kind body es := by
  cases kind with
  | empty | deleted | defaulted => exact .pure ⟨rfl, rfl⟩
  | expression | function | type | classBody | concept => exact .pushDef ⟨rfl, rfl⟩

/-- A definition, as part of a declaration, is no declaration. -/
theorem define_spares (kind : DefKind) :
    (define kind).Sure cx fun _ es => cx.Spares .decl es := by
  refine (define_sure kind).mono fun body es hdefines => ?_
  unfold Context.Defines at hdefines
  split at hdefines
  · rw [hdefines.2]
    exact Context.silent_nil .decl
  · rw [hdefines.2]
    exact ⟨⟨trivial, trivial⟩, rfl⟩

/-- What initializes a variable is no declaration. -/
theorem initializer_spares (init : Option ExprId) :
    (initializer init).Sure cx fun _ es => cx.Spares .decl es := by
  cases init with
  | none => exact .pure (Context.silent_nil .decl)
  | some expr => exact define_spares (.expression expr)

theorem functionBody_spares (body : Option FunctionBody) :
    (functionBody body).Sure cx fun _ es => cx.Spares .decl es := by
  cases body with
  | none => exact .pure (Context.silent_nil .decl)
  | some body => exact define_spares body.definition

theorem pushDecl_atomic {kind : DeclKind} : (pushDecl kind).Atomic cx fun d es => cx.Makes d es :=
  .sure (.pushDecl (.only rfl rfl trivial))

/-- A declaration stored after what it needs. -/
theorem pushDecl_after (kind : DeclKind) {es : List Effect} (hes : cx.Spares .decl es) :
    (pushDecl kind).Sure (cx.after es) fun d fs => cx.Makes d (es ++ fs) :=
  .pushDecl (.last rfl hes rfl trivial)

/-- A function is stored after its type and its body; all that can fail is reading
the parameters. -/
theorem functionDecl_atomic {flavor : FunctionFlavor} {name : NameId} {parms : List DeclId}
    {ret : TypeId} {body : Option FunctionBody} :
    (DeclRequest.perform (.function flavor name parms ret body)).Atomic cx
      fun d es => cx.Makes d es := by
  refine .bind (functionType_atomic.mono fun ty es hty => .bind ?_)
  refine (functionBody_spares body).mono fun body fs hbody => ?_
  have hpush := pushDecl_after (.function flavor name ty parms body) ((hty .decl).append hbody)
  rw [Context.after_append] at hpush
  exact hpush.mono fun d gs hmakes => by rwa [← List.append_assoc]

end Build

/-- **Requests for declarations are atomic**, and what they make is new. -/
theorem DeclRequest.perform_atomic {cx : Context} (request : DeclRequest) :
    request.perform.Atomic cx fun d es => cx.Makes d es := by
  cases request with
  | superclass | classType | template | concept | objectParm | valueParm | typeParm =>
    exact pushDecl_atomic
  | var _ _ init | field _ _ init =>
    exact .sure (.bind ((initializer_spares init).mono fun _ _ hes => pushDecl_after _ hes))
  | function => exact functionDecl_atomic
  | conceptOf => exact .sure (.bind ((define_spares _).mono fun _ _ hes => pushDecl_after _ hes))
  | nameSpace => exact .throw

namespace Build

variable {cx : Context}

/-! ## Linking -/

/-- The effects are one linking of the definition, to what the declaration
stands for, and that can be defined. -/
def Links (cx : Context) (d : DeclId) (body : DefId) (es : List Effect) : Prop :=
  ∃ target kind, cx.arena.parameterized d = .ok target ∧ cx.arena.decl target = .ok kind ∧
    (kind.define? body).isSome ∧ es = [.link target body]

/-- The declaration is looked at before its slot is written. -/
theorem attach_atomic {d : DeclId} {body : DefId} :
    (attach d body).Atomic cx fun _ es => Links cx d body es := by
  refine .read_bind fun target htarget => .read_bind fun kind hkind => ?_
  split
  · next defined hdef =>
    refine .sure ⟨(), [.link target body], ?_, target, kind, htarget, hkind, by simp [hdef], rfl⟩
    simp only [runOn, Build.setDecl, Arena.setDecl_eq_link hkind hdef]
    rfl
  · exact .throw

/-- Attaching answers with the definition that was handed in. -/
theorem attach_perform_atomic (cx : Context) (d : DeclId) (body : DefId) :
    (LinkRequest.attach d body).perform.Atomic cx fun x es => x = body ∧ Links cx d body es :=
  .bind (attach_atomic.mono fun _ es hlinks => .pure ⟨rfl, by rwa [List.append_nil]⟩)

/-- A definition that is built stays, whether it can be linked or not. -/
theorem define_attach_outcome (cx : Context) (d : DeclId) (kind : DefKind) :
    ∃ body es, cx.Defines kind body es ∧
      ((∃ failure, (LinkRequest.define d kind).perform.runOn cx = (.error failure, cx.after es)) ∨
        ∃ fs, (LinkRequest.define d kind).perform.runOn cx = (.ok body, cx.after (es ++ fs)) ∧
          Links cx d body fs) := by
  have hsure : (define kind).Sure cx fun body es => cx.Defines kind body es := define_sure kind
  obtain ⟨body, es, hrun, hdefines⟩ := hsure
  refine ⟨body, es, hdefines, ?_⟩
  have hbind : (LinkRequest.define d kind).perform.runOn cx
      = (LinkRequest.attach d body).perform.runOn (cx.after es) := by
    show (define kind >>= fun body => (LinkRequest.attach d body).perform).runOn cx = _
    rw [runOn_bind, hrun]
  -- building a definition leaves the declarations alone
  have hdecls : (cx.after es).arena.decls = cx.arena.decls := by
    unfold Context.Defines at hdefines
    split at hdefines <;> rw [hdefines.2] <;> rfl
  rcases attach_perform_atomic (cx.after es) d body with
    ⟨failure, hfail⟩ | ⟨x, fs, hok, rfl, target, found, htarget, hfound, hdef⟩
  · exact .inl ⟨failure, hbind.trans hfail⟩
  · refine .inr ⟨fs, ?_, target, found, ?_, ?_, hdef⟩
    · rw [hbind, hok, Context.after_append]
    · rw [← htarget, Arena.parameterized, Arena.parameterized, Arena.decl, Arena.decl, hdecls]
    · rw [← hfound, Arena.decl, Arena.decl, hdecls]

end Build

end TermGraph
