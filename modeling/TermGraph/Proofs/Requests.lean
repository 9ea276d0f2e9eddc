import TermGraph.Proofs.Safety

/-!
# Requests are safe

Every request whose handles have been issued is safe: on a closed context it
only grows it, by nodes whose own handles have been issued, and the handles in
its answer have been issued too.  One lemma per construction, each following
its code; what is read on the way is issued because the context is closed.

For commands and runs the lemmas are put together in `Workspace.step_sound`
and `Workspace.run_sound`, headers that are pending included.
-/

namespace TermGraph

open Build

/-! ## Reading from closed contexts -/

/-- An entry that was read is in the table. -/
theorem mem_of_fetch {α : Type} {table : Array α} {index : Nat} {entry : α}
    (h : fetch table index = .ok entry) : entry ∈ table :=
  Array.mem_of_getElem? (fetch_eq_ok.mp h)

/-- The declaration inside all templates is read from the table and is no
template. -/
theorem Arena.coreWithin_eq_ok {a : Arena} {steps : Nat} {d core : DeclId} {kind : DeclKind}
    (h : a.coreWithin steps d = .ok (core, kind)) :
    a.decl core = .ok kind ∧ ∀ parms inner constraint, kind ≠ .template parms inner constraint := by
  induction steps generalizing d with
  | zero => cases h
  | succ steps ih =>
      obtain ⟨found, hfound, h⟩ := bind_eq_ok.mp h
      split at h
      · exact ih h
      · next hno =>
        cases h
        exact ⟨hfound, fun parms inner constraint heq => hno parms inner constraint heq⟩

/-- Every declaration that is no template has a name among its handles. -/
theorem DeclKind.name_mem_handles {kind : DeclKind}
    (h : ∀ parms inner constraint, kind ≠ .template parms inner constraint) :
    (kind.name?.getD .invalid).any ∈ kind.handles := by
  cases kind with
  | template parms inner constraint => exact (h parms inner constraint rfl).elim
  | _ => simp [name?, handles]

namespace Context

variable {cx : Context}

/-- A declaration that was read has been issued. -/
theorem issued_of_decl {d : DeclId} {kind : DeclKind} (h : cx.arena.decl d = .ok kind) :
    cx.Issued d :=
  lt_of_fetch h

namespace Closed

/-- What a stored declaration mentions has been issued. -/
theorem decl (hcx : cx.Closed) {d : DeclId} {kind : DeclKind} (h : cx.arena.decl d = .ok kind) :
    cx.AllIssued kind.handles :=
  hcx.decls kind (mem_of_fetch h)

/-- What a stored type mentions has been issued. -/
theorem type (hcx : cx.Closed) {ty : TypeId} {kind : TypeKind} (h : cx.type ty = .ok kind) :
    cx.AllIssued kind.handles :=
  hcx.types kind (mem_of_fetch h)

/-- The name of a declaration has been issued: it stands in the declaration inside
all templates. -/
theorem declName (hcx : cx.Closed) {d : DeclId} {n : NameId} (h : cx.arena.declName d = .ok n) :
    cx.Issued n := by
  obtain ⟨⟨core, kind⟩, hcore, rfl⟩ := map_eq_ok.mp h
  obtain ⟨hread, hno⟩ := Arena.coreWithin_eq_ok hcore
  exact hcx.decl hread _ (DeclKind.name_mem_handles hno)

/-- What a declaration stands for has been issued: the declaration itself, or the
one that its template is of. -/
theorem parameterized (hcx : cx.Closed) {d target : DeclId} (hd : cx.Issued d)
    (h : cx.arena.parameterized d = .ok target) : cx.Issued target := by
  obtain ⟨kind, hkind, h⟩ := bind_eq_ok.mp h
  have hissued := hcx.decl hkind
  split at h
  · cases h
    simp only [DeclKind.handles, allIssued_cons] at hissued
    exact hissued.1
  · cases h
    exact hd

/-- The type of a parameter has been issued, that of types included. -/
theorem parameterType (hcx : cx.Closed) {d : DeclId} {ty : TypeId}
    (h : cx.arena.parameterType d = .ok ty) : cx.Issued ty := by
  obtain ⟨kind, hkind, h⟩ := bind_eq_ok.mp h
  have hissued := hcx.decl hkind
  split at h
  · cases h
    simp only [DeclKind.handles, allIssued_cons] at hissued
    exact hissued.2.1
  · cases h

/-- The definition in the slot of a declaration has been issued, the shared empty
one included. -/
theorem definitionOf (hcx : cx.Closed) {d : DeclId} {body : DefId}
    (h : cx.arena.definitionOf d = .ok body) : cx.Issued body := by
  obtain ⟨target, _, h⟩ := bind_eq_ok.mp h
  obtain ⟨kind, hkind, h⟩ := bind_eq_ok.mp h
  have hissued := hcx.decl hkind
  cases kind <;> simp [DeclKind.definition?, pure, Except.pure] at h <;> subst h <;>
    simp [DeclKind.handles] at hissued <;> simp [hissued]

/-- The type under the qualifiers has been issued, whether it was split off or
there are none. -/
theorem splitQualifiers (hcx : cx.Closed) {ty : TypeId} {parts : TypeId × Qualifiers}
    (hty : cx.Issued ty) (h : cx.splitQualifiers ty = .ok parts) : cx.Issued parts.1 := by
  obtain ⟨kind, hkind, h⟩ := bind_eq_ok.mp h
  have hissued := hcx.type hkind
  split at h
  · cases h
    simp only [TypeKind.handles, allIssued_cons] at hissued
    exact hissued.1
  · cases h
    exact hty

/-- The value type of an expression has been issued: its type, or what that refers
to, less qualifiers. -/
theorem valueTypeOf (hcx : cx.Closed) {e : ExprId} {ty : TypeId}
    (h : cx.valueTypeOf e = .ok ty) : cx.Issued ty := by
  obtain ⟨held, hheld, h⟩ := bind_eq_ok.mp h
  obtain ⟨x, hx, rfl⟩ := map_eq_ok.mp hheld
  have hty : cx.Issued x.ty := hcx.exprs x (mem_of_fetch hx) _ List.mem_cons_self
  obtain ⟨kind, hkind, h⟩ := bind_eq_ok.mp h
  have hsplit : ∀ stripped, cx.Issued stripped →
      (do return (← cx.splitQualifiers stripped).1 : Except Fault TypeId) = .ok ty →
        cx.Issued ty := by
    intro stripped hstripped hread
    obtain ⟨parts, hparts, hread⟩ := bind_eq_ok.mp hread
    cases hread
    exact hcx.splitQualifiers hstripped hparts
  -- what is split is the type referred to, or the type itself
  have hissued := hcx.type hkind
  split at h
  · simp only [TypeKind.handles, allIssued_cons] at hissued
    exact hsplit _ hissued.1 h
  · exact hsplit _ hty h

end Closed

end Context

namespace Build

variable {α : Type} {cx : Context}

/-! ## Names -/

/-- The name of a placeholder mentions a number only. -/
theorem placeholderName_safe : Safe placeholderName cx fun n cx' => cx'.Issued n :=
  Safe.freshPlaceholder.bind fun _ _ _ _ => .pushName Context.allIssued_nil

/-- A report about the sort of a declaration is a mistake with the name read
first, so anything may be promised. -/
theorem doesNotName_safe {d : DeclId} {wanted : DeclSort} {post : α → Context → Prop} :
    Safe (doesNotName d wanted) cx post :=
  .read_bind fun _ _ _ => .mistake

/-- A template-id mentions the template and the arguments that were handed in. -/
theorem templateId_safe {d : DeclId} {args : List Term}
    (h : cx.AllIssued (d.any :: args.map Term.handle)) :
    Safe (templateId d args) cx fun n cx' => cx'.Issued n := by
  refine .read_bind fun _ kind _ => ?_
  split
  · exact .pushName h
  · exact doesNotName_safe

theorem conceptId_safe {d : DeclId} {args : List Term}
    (h : cx.AllIssued (d.any :: args.map Term.handle)) :
    Safe (conceptId d args) cx fun n cx' => cx'.Issued n := by
  refine .read_bind fun _ kind _ => ?_
  split
  · exact .pushName h
  · exact doesNotName_safe

end Build

/-- **Requests for names are safe.** -/
theorem NameRequest.perform_safe {cx : Context} (request : NameRequest)
    (h : cx.AllIssued request.handles) : Safe request.perform cx fun n cx' => cx'.Issued n := by
  cases request with
  | identifier s => exact (Safe.symbol s).bind fun _ _ _ _ => .pushName Context.allIssued_nil
  | ofSymbol sym => exact .pushName Context.allIssued_nil
  | placeholder => exact placeholderName_safe
  | operator op => exact .pushName Context.allIssued_nil
  | destructor ty => exact .unsupported
  | templateId d args => exact templateId_safe h
  | conceptId d args => exact conceptId_safe h
  | qualified scope name => exact .pushName h
  | global => exact .pure fun hcx => hcx.starts List.mem_cons_self

namespace Build

variable {cx : Context}

/-! ## Types -/

/-- A qualified type mentions the type under the qualifiers that there are
already; without qualifiers to add it is the type handed in. -/
theorem qualifiedType_safe {ty : TypeId} {quals : Qualifiers} (hty : cx.Issued ty) :
    Safe (qualifiedType ty quals) cx fun t cx' => cx'.Issued t := by
  unfold qualifiedType
  split
  · exact .pure fun _ => hty
  · refine .read_bind fun hcx parts hparts => .internType ?_
    simpa [TypeKind.handles] using hcx.splitQualifiers hty hparts

/-- Reading along a list reads the types of parameters that were issued. -/
theorem issued_of_mapM_parameterType (hcx : cx.Closed) {parms : List DeclId} {params : List TypeId}
    (h : parms.mapM cx.arena.parameterType = .ok params) : ∀ t ∈ params, cx.Issued t := by
  rw [mapM_eq_ok] at h
  induction h with
  | nil => simp
  | cons hd _ ih => simpa using ⟨hcx.parameterType hd, ih⟩

/-- A function type mentions the types of its parameters, which are read, so only
the result type need have been issued. -/
theorem functionType_safe {parms : List DeclId} {ret : TypeId} (hret : cx.Issued ret) :
    Safe (functionType parms ret) cx fun t cx' => cx'.Issued t := by
  refine .read_bind fun hcx params hparams => .internType ?_
  simpa [TypeKind.handles, hret] using issued_of_mapM_parameterType hcx hparams

/-- The type that a type parameter stands for mentions the parameter. -/
theorem typenameType_safe {parm : DeclId} (h : cx.Issued parm) :
    Safe (typenameType parm) cx fun t cx' => cx'.Issued t := by
  refine .read_bind fun _ kind _ => ?_
  split
  · exact .internType (by simpa [TypeKind.handles] using h)
  · exact .violation

/-- A made-up type mentions the type parameter that was stored for it just
before. -/
theorem placeholderType_safe : Safe placeholderType cx fun t cx' => cx'.Issued t := by
  refine placeholderName_safe.bind fun name cx₁ _ hname => ?_
  refine Safe.bind (.pushDecl (by simpa [DeclKind.handles] using hname)) fun parm cx₂ _ hparm => ?_
  exact typenameType_safe hparm

/-- The type that a class stands for mentions what the declaration handed in
stands for. -/
theorem userType_safe {d : DeclId} (hd : cx.Issued d) :
    Safe (userType d) cx fun t cx' => cx'.Issued t := by
  refine .read_bind fun hcx target htarget => .read_bind fun _ kind _ => ?_
  split
  · exact .internType (by simpa [TypeKind.handles] using hcx.parameterized hd htarget)
  · exact .violation

/-- The type of a declaration is read off the declaration inside all templates, so
not even the handle handed in need have been issued. -/
theorem declaredType_safe {d : DeclId} :
    Safe (declaredType d) cx fun t cx' => cx'.Issued t := by
  refine .read_bind fun hcx core hcore => ?_
  obtain ⟨core, kind⟩ := core
  have hread := (Arena.coreWithin_eq_ok hcore).1
  have hissued := hcx.decl hread
  cases kind with
  | superclass | var | function | field | objectParm | valueParm =>
    simp only [DeclKind.handles, Context.allIssued_cons] at hissued
    exact .pure fun _ => hissued.2.1
  | classType => exact userType_safe (Context.issued_of_decl hread)
  | typeParm | concept => exact .pure fun hcx => hcx.starts (by simp [predefinedHandles])
  | template | nameSpace => exact .violation

theorem plainInteger_safe {signed : Bool} :
    Safe (plainInteger signed) cx fun t cx' => cx'.Issued t := by
  intro hcx
  have hnothing : cx.AllIssued (TypeKind.integer signed cx.config.intPrecision).handles :=
    Context.allIssued_nil
  exact Safe.internType hnothing hcx

end Build

/-- **Requests for types are safe.** -/
theorem TypeRequest.perform_safe {cx : Context} (request : TypeRequest)
    (h : cx.AllIssued request.handles) : Safe request.perform cx fun t cx' => cx'.Issued t := by
  cases request with
  | void | bool | typeOfTypes => exact .pure fun hcx => hcx.starts (by simp [predefinedHandles])
  | byte | integer | float | auto | declauto => exact .internType Context.allIssued_nil
  | int | uint => exact plainInteger_safe
  | placeholder => exact placeholderType_safe
  | decltype | array | dynarray => exact .unsupported
  | function parms ret => exact functionType_safe (Context.allIssued_cons.mp h).1
  | functionOf params ret => exact .internType h
  | qualified ty quals => exact qualifiedType_safe (Context.allIssued_cons.mp h).1
  | wrapped | synthetic | union | enum => exact .internType h
  | typename parm => exact typenameType_safe (Context.allIssued_cons.mp h).1
  | user d => exact userType_safe (Context.allIssued_cons.mp h).1
  | declared d => exact declaredType_safe

namespace Build

variable {cx : Context}

/-! ## Expressions -/

/-- A type of references mentions the type referred to. -/
theorem referenceType_safe {ty : TypeId} (hty : cx.Issued ty) :
    Safe (referenceType ty) cx fun t cx' => cx'.Issued t :=
  .internType (by simpa [TypeKind.handles] using hty)

/-- A node of a reference type is pushed after the type, when what it mentions
is still there. -/
theorem pushExpr_reference_safe {kind : ExprKind} {ty : TypeId} (hty : cx.Issued ty)
    (h : cx.AllIssued kind.handles) :
    Safe (do pushExpr kind (← referenceType ty)) cx fun e cx' => cx'.Issued e :=
  (referenceType_safe hty).bind fun _ _ hle href => .pushExpr href (h.later hle)

/-- A reference mentions the declaration and its name, and its type is made of the
declared one: three branches for objects, one for functions, else a mistake. -/
theorem reference_safe {d : DeclId} (hd : cx.Issued d) :
    Safe (reference d) cx fun e cx' => cx'.Issued e := by
  refine .read_bind fun hcx name hname => .read_bind fun _ target _ => ?_
  refine .read_bind fun _ kind hkind => ?_
  have hn : cx.Issued name := hcx.declName hname
  have hissued := hcx.decl hkind
  cases kind with
  | var | objectParm | valueParm =>
    simp only [DeclKind.handles, Context.allIssued_cons] at hissued
    exact pushExpr_reference_safe hissued.2.1 (by simp [ExprKind.handles, hn, hd])
  | function flavor =>
    simp only [DeclKind.handles, Context.allIssued_cons] at hissued
    cases flavor with
    | free => exact .pushExpr hissued.2.1 (by simp [ExprKind.handles, hn, hd])
    | _ => exact .read_bind fun _ _ _ => .mistake
  | _ => exact .read_bind fun _ _ _ => .mistake

/-- A reference to a member mentions the object besides, and is one to a field or
to a method. -/
theorem memberReference_safe {obj : ExprId} {d : DeclId} (hobj : cx.Issued obj)
    (hd : cx.Issued d) : Safe (memberReference obj d) cx fun e cx' => cx'.Issued e := by
  refine .read_bind fun hcx name hname => .read_bind fun _ target _ => ?_
  refine .read_bind fun _ kind hkind => ?_
  have hn : cx.Issued name := hcx.declName hname
  have hissued := hcx.decl hkind
  split
  · simp only [DeclKind.handles, Context.allIssued_cons] at hissued
    exact pushExpr_reference_safe hissued.2.1 (by simp [ExprKind.handles, hobj, hn, hd])
  · simp only [DeclKind.handles, Context.allIssued_cons] at hissued
    exact .pushExpr hissued.2.1 (by simp [ExprKind.handles, hobj, hn, hd])
  · exact .read_bind fun _ _ _ => .mistake

/-- An expression that is a truth value. -/
theorem pushExpr_bool_safe {kind : ExprKind} (h : cx.AllIssued kind.handles) :
    Safe (pushExpr kind .bool) cx fun e cx' => cx'.Issued e :=
  fun hcx => Safe.pushExpr (hcx.starts (by simp [predefinedHandles])) h hcx

/-- A check is a truth value and mentions the concept and its arguments. -/
theorem check_safe {d : DeclId} {args : List Term}
    (h : cx.AllIssued (d.any :: args.map Term.handle)) :
    Safe (check d args) cx fun e cx' => cx'.Issued e := by
  refine .read_bind fun _ kind _ => ?_
  split
  · exact pushExpr_bool_safe h
  · exact .read_bind fun _ _ _ => .read_bind fun _ _ _ => .mistake

/-- An expression of the type of its first operand, less reference and
qualifiers. -/
theorem pushExpr_value_safe {kind : ExprKind} {e : ExprId} (h : cx.AllIssued kind.handles) :
    Safe (do pushExpr kind (← read fun cx => cx.valueTypeOf e)) cx fun e cx' => cx'.Issued e :=
  .read_bind fun hcx _ hty => .pushExpr (hcx.valueTypeOf hty) h

/-- A negation is a truth value; the other unary expressions have the value type
of the operand. -/
theorem unary_safe {op : UnaryOp} {operand : ExprId} (h : cx.Issued operand) :
    Safe (unary op operand) cx fun e cx' => cx'.Issued e := by
  have hkind : cx.AllIssued (ExprKind.unary op operand).handles := by
    simpa [ExprKind.handles] using h
  cases op with
  | not => exact pushExpr_bool_safe hkind
  | neg | pos | bitNot => exact pushExpr_value_safe hkind

/-- Comparisons and logical connectives are truth values; the other binary
expressions have the value type of the left operand. -/
theorem binary_safe {op : BinaryOp} {lhs rhs : ExprId} (hl : cx.Issued lhs)
    (hr : cx.Issued rhs) : Safe (binary op lhs rhs) cx fun e cx' => cx'.Issued e := by
  have hkind : cx.AllIssued (ExprKind.binary op lhs rhs).handles := by
    simp [ExprKind.handles, hl, hr]
  unfold binary
  split
  · exact pushExpr_bool_safe hkind
  · exact pushExpr_value_safe hkind

/-- The type of a call is the result type, read off the type of the callee. -/
theorem call_safe {callee : ExprId} {args : List ExprId}
    (h : cx.AllIssued (ExprKind.call callee args).handles) :
    Safe (call callee args) cx fun e cx' => cx'.Issued e := by
  refine .read_bind fun hcx ty hty => .read_bind fun _ kind hkind => ?_
  split
  · have hissued := hcx.type hkind
    simp only [TypeKind.handles, Context.allIssued_cons] at hissued
    split
    · exact .pushExpr hissued.1 h
    · exact .mistake
  · exact .mistake

/-- The call of a declaration is the call of the reference made for it, so the
arguments have to be issued still after that. -/
theorem callDecl_safe {d : DeclId} {args : List ExprId}
    (h : cx.AllIssued (d.any :: args.map Handle.any)) :
    Safe (callDecl d args) cx fun e cx' => cx'.Issued e := by
  rw [Context.allIssued_cons] at h
  refine (reference_safe h.1).bind fun callee cx' hle hcallee => call_safe ?_
  simp only [ExprKind.handles, Context.allIssued_cons]
  exact ⟨hcallee, h.2.later hle⟩

end Build

/-- **Requests for expressions are safe.** -/
theorem ExprRequest.perform_safe {cx : Context} (request : ExprRequest)
    (h : cx.AllIssued request.handles) : Safe request.perform cx fun e cx' => cx'.Issued e := by
  cases request with
  | boolean value => exact pushExpr_bool_safe Context.allIssued_nil
  | integer ty value =>
    exact .pushExpr (Context.allIssued_cons.mp h).1 Context.allIssued_nil
  | int value | uint value =>
    exact plainInteger_safe.bind fun _ _ _ hty => .pushExpr hty Context.allIssued_nil
  | reference d => exact reference_safe (Context.allIssued_cons.mp h).1
  | memberReference obj d =>
    simp only [handles, Context.allIssued_cons] at h
    exact memberReference_safe h.1 h.2.1
  | check d args => exact check_safe h
  | synthesized d =>
    exact declaredType_safe.bind fun _ _ hle hty => .pushExpr hty (Context.AllIssued.later hle h)
  | unary op operand => exact unary_safe (Context.allIssued_cons.mp h).1
  | binary op lhs rhs =>
    simp only [handles, Context.allIssued_cons] at h
    exact binary_safe h.1 h.2.1
  | call callee args => exact call_safe h
  | callDecl d args => exact callDecl_safe h
  | requires tparms parms reqs => exact pushExpr_bool_safe h
  | trivialInit ty | copyInit ty expr | bindInit ty expr | directInit ty ctor args
  | aggregateInit ty args =>
    exact .pushExpr (Context.allIssued_cons.mp h).1 (Context.allIssued_cons.mp h).2

namespace Build

variable {cx : Context}

/-! ## Definitions and declarations -/

/-- A definition that carries nothing is predefined, any other is stored. -/
theorem define_safe {kind : DefKind} (h : cx.AllIssued kind.handles) :
    Safe (define kind) cx fun d cx' => cx'.Issued d := by
  cases kind with
  | empty | deleted | defaulted =>
    exact .pure fun hcx => hcx.starts (by simp [predefinedHandles])
  | expression | function | type | classBody | concept => exact .pushDef h

/-- What initializes a variable is the expression handed in, or the shared empty
definition. -/
theorem initializer_safe {init : Option ExprId}
    (h : cx.AllIssued (init.toList.map Handle.any)) :
    Safe (initializer init) cx fun d cx' => cx'.Issued d := by
  cases init with
  | none => exact .pure fun hcx => hcx.starts (by simp [predefinedHandles])
  | some expr => exact define_safe h

theorem functionBody_safe {body : Option FunctionBody}
    (h : cx.AllIssued (body.toList.flatMap FunctionBody.handles)) :
    Safe (functionBody body) cx fun d cx' => cx'.Issued d := by
  cases body with
  | none => exact .pure fun hcx => hcx.starts (by simp [predefinedHandles])
  | some body =>
    refine define_safe ?_
    cases body <;> simpa [FunctionBody.definition, FunctionBody.handles, DefKind.handles] using h

/-- A declaration that begins with the shared empty definition. -/
theorem pushDecl_undefined_safe {kind : DeclKind}
    (h : cx.Issued DefId.empty → cx.AllIssued kind.handles) :
    Safe (pushDecl kind) cx fun d cx' => cx'.Issued d :=
  fun hcx => Safe.pushDecl (h (hcx.starts (by simp [predefinedHandles]))) hcx

end Build

/-- **Requests for declarations are safe.** -/
theorem DeclRequest.perform_safe {cx : Context} (request : DeclRequest)
    (h : cx.AllIssued request.handles) : Safe request.perform cx fun d cx' => cx'.Issued d := by
  cases request with
  | superclass name ty | classType name ty =>
    simp only [handles, Context.allIssued_cons] at h
    exact pushDecl_undefined_safe fun hempty => by simp [DeclKind.handles, h, hempty]
  | var name ty init | field name ty init =>
    simp only [handles, Context.allIssued_cons] at h
    refine (initializer_safe h.2.2).bind fun body cx' hle hbody => .pushDecl ?_
    simp [DeclKind.handles, h.1.later hle, h.2.1.later hle, hbody]
  | function flavor name parms ret body =>
    simp only [handles, Context.allIssued_cons, Context.allIssued_append,
      Context.allIssued_map] at h
    obtain ⟨hname, hret, hparms, hbody⟩ := h
    refine (functionType_safe hret).bind fun ty cx₁ hle₁ hty => ?_
    refine (functionBody_safe (hbody.later hle₁)).bind fun body cx₂ hle₂ hbody => .pushDecl ?_
    have hle := hle₁.trans hle₂
    simp only [DeclKind.handles, Context.allIssued_cons, Context.allIssued_map]
    exact ⟨hname.later hle, hty.later hle₂, hbody, fun d hd => (hparms d hd).later hle⟩
  | template parms d => exact .pushDecl (by simpa [DeclKind.handles, handles] using h)
  | concept name parms body => exact .pushDecl h
  | conceptOf name parms body =>
    simp only [handles, Context.allIssued_cons] at h
    obtain ⟨hname, hexpr, hparms⟩ := h
    refine Safe.bind (define_safe (by simpa [DefKind.handles] using hexpr))
      fun body cx' hle hbody => .pushDecl ?_
    simp only [DeclKind.handles, Context.allIssued_cons]
    exact ⟨hname.later hle, hbody, hparms.later hle⟩
  | objectParm name ty | valueParm index name ty | typeParm index name default =>
    exact .pushDecl h
  | nameSpace name => exact .unsupported

namespace Build

variable {cx : Context}

/-! ## Linking -/

/-- The definition goes to what the declaration stands for, which was read. -/
theorem attach_safe {d : DeclId} {body : DefId} (hd : cx.Issued d) (hbody : cx.Issued body) :
    Safe (attach d body) cx fun _ _ => True := by
  refine .read_bind fun hcx target htarget => .read_bind fun _ kind hkind => ?_
  split
  · next defined hdef =>
    exact .setDecl hkind hdef (hcx.parameterized hd htarget) hbody
  · exact .violation

end Build

/-- **Requests about definitions are safe.** -/
theorem LinkRequest.perform_safe {cx : Context} (request : LinkRequest)
    (h : cx.AllIssued request.handles) : Safe request.perform cx fun d cx' => cx'.Issued d := by
  cases request with
  | attach d body =>
    simp only [handles, Context.allIssued_cons] at h
    exact (attach_safe h.1 h.2.1).bind fun _ _ hle _ => .pure fun _ => h.2.1.later hle
  | define d kind =>
    simp only [handles, Context.allIssued_cons] at h
    refine (define_safe h.2).bind fun body cx₁ hle₁ hbody => ?_
    refine (attach_safe (h.1.later hle₁) hbody).bind fun _ _ hle₂ _ => ?_
    exact .pure fun _ => hbody.later hle₂
  | definitionOf d => exact .read fun hcx body hbody => hcx.definitionOf hbody

end TermGraph
