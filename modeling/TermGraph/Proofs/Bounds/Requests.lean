import TermGraph.Proofs.Bounds.Reading

/-!
# Requests stay inside the tables

A construction is *steady* at a context when, the context being whole, it
faults only by breaking a rule of the term model and leaves names spelled
(`Build.Steady`).  Much of what is built is better than that: it does not fault
at all, whatever the context (`Build.Faultless`).  The two differ in what they
ask of the context and in the faults they allow (`Build.Clean`), so what holds
of constructions in a row is shown once for both (`Build.Clean.bind`).

One lemma per construction, each following its code.  What is read on the way
is read by a handle of the request or of a node that was read, and both have
been issued.  Where a construction goes on after it has changed the context,
that the context is still closed is known (`Build.Safe`).

What is rendered for an error message is read in the same way as anything else:
a refusal that names a declaration has looked up its name and spelled it.
-/

namespace TermGraph

open Build

/-! ## Symbols in requests -/

/-- The symbols passed in a request for a name. -/
def NameRequest.symbols : NameRequest → List Symbol
  | .ofSymbol sym => [sym]
  | _ => []

/-- The symbols passed in a request. -/
def Request.symbols : Request → List Symbol
  | .name request => request.symbols
  | _ => []

/-- The symbols passed in a command. -/
def Command.symbols : Command → List Symbol
  | .ask request => request.symbols
  | .header _ _ => []

namespace Build

variable {α β : Type} {cx : Context}

/-- What a construction has come to is clean when it has faulted only in the ways
allowed, if at all, and names are spelled. -/
structure Clean (allowed : Fault → Prop) (result : Except Failure α × Context) : Prop where
  faults : ∀ fault, result.1 = .error (.broken fault) → allowed fault
  spelled : result.2.Spelled

/-- Whatever the context, the construction does not fault, and it leaves names
spelled if they are. -/
def Faultless (b : Build α) : Prop :=
  ∀ cx : Context, cx.Spelled → Clean (fun _ => False) (b.runOn cx)

/-- On a whole context the construction faults only by breaking a rule, and it
leaves names spelled. -/
def Steady (b : Build α) (cx : Context) : Prop :=
  cx.Whole → Clean Fault.BreaksRule (b.runOn cx)

namespace Clean

variable {allowed : Fault → Prop} {b : Build α} {f : α → Build β}

/-- More faults may be allowed. -/
theorem mono {result : Except Failure α × Context} (h : Clean allowed result)
    {more : Fault → Prop} (hmore : ∀ fault, allowed fault → more fault) : Clean more result :=
  ⟨fun fault heq => hmore fault (h.faults fault heq), h.spelled⟩

/-- An answer is no fault. -/
theorem answer {x : α} (h : cx.Spelled) : Clean allowed (.ok x, cx) := by
  refine ⟨fun fault heq => ?_, h⟩
  cases heq

/-- Two constructions in a row come out clean when the first does, and the second
does from where the first has led. -/
theorem bind (hb : Clean allowed (b.runOn cx))
    (hf : ∀ x cx', b.runOn cx = (.ok x, cx') → cx'.Spelled → Clean allowed ((f x).runOn cx')) :
    Clean allowed ((b >>= f).runOn cx) := by
  rw [runOn_bind]
  rcases h : b.runOn cx with ⟨failure | x, cx'⟩
  · rw [h] at hb
    exact ⟨fun fault heq => hb.faults fault (congrArg _ (Except.error.inj heq)), hb.spelled⟩
  · rw [h] at hb
    exact hf x cx' h hb.spelled

/-- Reading comes out clean when what is read does not fault otherwise. -/
theorem read {look : Context → Except Fault α} (h : FaultsOnly allowed (look cx))
    (hcx : cx.Spelled) : Clean allowed ((Build.read look).runOn cx) := by
  refine ⟨fun fault heq => ?_, hcx⟩
  rw [runOn_read] at heq
  cases hlook : look cx with
  | error fault' =>
    rw [hlook] at heq
    cases heq
    exact h _ hlook
  | ok x =>
    rw [hlook] at heq
    cases heq

end Clean

/-! ## Faultless constructions -/

namespace Faultless

/-- What answers at once does not fault. -/
theorem pure {x : α} : Faultless (Pure.pure x) := fun _ => .answer

/-- A refusal is no fault. -/
theorem refuse {error : BuildError} : Faultless (MonadExcept.throw (.refused error) : Build α) :=
  fun _ hcx => ⟨nofun, hcx⟩

/-- Two constructions in a row do not fault when neither does, wherever the second
starts. -/
theorem bind {b : Build α} {f : α → Build β} (hb : Faultless b) (hf : ∀ x, Faultless (f x)) :
    Faultless (b >>= f) :=
  fun cx hcx => (hb cx hcx).bind fun x cx' _ hspelled => hf x cx' hspelled

/-- A change that is one effect, and not that of storing a symbol in a name. -/
theorem change {step : Context → α × Context} (e : Effect) (he : ∀ sym, e ≠ .name (.simple sym))
    (hstep : ∀ cx, (step cx).2 = e.apply cx) : Faultless (Build.change step) := by
  intro cx hcx
  have happly : (step cx).2.Spelled := by
    rw [hstep]
    exact hcx.apply fun sym heq => (he sym heq).elim
  exact .answer happly

theorem mistake {m : Mistake} : Faultless (Build.mistake m : Build α) := refuse

theorem unsupported {feature : String} : Faultless (Build.unsupported feature : Build α) := refuse

/-- Interning a spelling does not fault, and symbols keep theirs. -/
theorem symbol {s : String} : Faultless (Build.symbol s) := change (.spelling s) nofun fun _ => rfl

theorem freshPlaceholder : Faultless Build.freshPlaceholder := change .number nofun fun _ => rfl

/-- Storing a name without a symbol leaves the names spelled. -/
theorem pushName {kind : NameKind} (h : kind.symbol? = none) : Faultless (Build.pushName kind) := by
  refine change (.name kind) (fun sym heq => ?_) fun _ => rfl
  cases heq
  cases h

/-- Storing an expression checks nothing; nor does storing other nodes. -/
theorem pushExpr {kind : ExprKind} {ty : TypeId} : Faultless (Build.pushExpr kind ty) :=
  change (.expr kind ty) nofun fun _ => rfl

theorem pushStmt {kind : StmtKind} : Faultless (Build.pushStmt kind) :=
  change (.stmt kind) nofun fun _ => rfl

theorem pushDecl {kind : DeclKind} : Faultless (Build.pushDecl kind) :=
  change (.decl kind) nofun fun _ => rfl

theorem pushDef {kind : DefKind} : Faultless (Build.pushDef kind) :=
  change (.definition kind) nofun fun _ => rfl

theorem pushReq {kind : ReqKind} : Faultless (Build.pushReq kind) :=
  change (.requirement kind) nofun fun _ => rfl

/-- Interning a type compares entries and looks up nothing. -/
theorem internType {kind : TypeKind} : Faultless (Build.internType kind) :=
  change (.type kind) nofun fun _ => rfl

end Faultless

/-! ## Steady constructions -/

namespace Steady

/-- What never faults is steady wherever the context is whole. -/
theorem faultless {b : Build α} (h : Faultless b) : Steady b cx :=
  fun hcx => (h cx hcx.spelled).mono nofun

/-- Breaking a rule is the fault that is allowed. -/
theorem violation {rule : Violation} : Steady (Build.violation rule : Build α) cx := by
  intro hcx
  refine ⟨fun fault heq => ?_, hcx.spelled⟩
  cases heq
  trivial

/-- Reading changes nothing. -/
theorem read {look : Context → Except Fault α}
    (h : cx.Whole → FaultsOnly Fault.BreaksRule (look cx)) : Steady (Build.read look) cx :=
  fun hcx => .read (h hcx) hcx.spelled

/-- What was read may be used afterwards. -/
theorem read_bind {look : Context → Except Fault α} {f : α → Build β}
    (h : cx.Whole → FaultsOnly Fault.BreaksRule (look cx))
    (hf : cx.Whole → ∀ x, look cx = .ok x → Steady (f x) cx) :
    Steady (Build.read look >>= f) cx := by
  intro hcx
  refine Clean.bind (.read (h hcx) hcx.spelled) fun x cx' hread _ => ?_
  rw [runOn_read] at hread
  cases hlook : look cx with
  | error fault =>
    rw [hlook] at hread
    cases hread
  | ok a =>
    rw [hlook] at hread
    cases hread
    exact hf hcx x hlook hcx

/-- What does not fault may follow, whatever was done before. -/
theorem then_faultless {b : Build α} {f : α → Build β} (hb : Steady b cx)
    (hf : ∀ x, Faultless (f x)) : Steady (b >>= f) cx :=
  fun hcx => (hb hcx).bind fun x cx' _ hspelled => (hf x cx' hspelled).mono nofun

/-- What is steady afterwards may follow: a safe construction leaves the context
whole. -/
theorem bind {b : Build α} {f : α → Build β} {post : α → Context → Prop} (hsafe : Safe b cx post)
    (hb : Steady b cx) (hf : ∀ x cx', cx.Precedes cx' → post x cx' → Steady (f x) cx') :
    Steady (b >>= f) cx := by
  intro hcx
  refine (hb hcx).bind fun x cx' hrun hspelled => ?_
  obtain ⟨hgrows, hpost⟩ := hsafe hcx.closed
  rw [hrun] at hgrows hpost
  have hwhole : cx'.Whole := hcx.grows hgrows hspelled
  exact hf x cx' hgrows.precedes (hpost x rfl) hwhole

/-- What is done to an answer does not fault. -/
theorem map {b : Build α} {f : α → β} (hb : Steady b cx) : Steady (f <$> b) cx :=
  hb.then_faultless fun _ => .pure

/-! ## The primitive constructions -/

/-- A name of a symbol that has a spelling. -/
theorem pushName_simple {sym : Symbol} (h : cx.HasSymbol sym) :
    Steady (Build.pushName (.simple sym)) cx := by
  intro hcx
  have happly : ((Effect.name (.simple sym)).apply cx).Spelled := by
    refine hcx.spelled.apply fun sym' heq => ?_
    cases heq
    exact h
  exact .answer happly

/-- Filing a constraint compares it with those filed before, all of which have
words in a whole context. -/
theorem internConstraint {kind : ConstraintKind} (h : cx.AllIssued kind.handles) :
    Steady (Build.internConstraint kind) cx := by
  intro hcx
  have hintern : FaultsOnly Fault.BreaksRule (cx.constraints.intern cx.arena kind) := hcx.intern h
  have hspelled : ((Effect.constraint kind).apply cx).Spelled := hcx.spelled.apply nofun
  simp only [runOn, Build.internConstraint]
  rcases hfound : cx.constraints.intern cx.arena kind with fault | ⟨c, t⟩
  · refine ⟨fun fault' heq => ?_, hcx.spelled⟩
    cases heq
    exact hintern fault hfound
  · simp only [Effect.apply, hfound] at hspelled
    exact .answer hspelled

/-- Giving a declaration another definition does not fault. -/
theorem setDecl {d : DeclId} {body : DefId} {kind defined : DeclKind}
    (hkind : cx.arena.decl d = .ok kind) (hdef : kind.define? body = some defined) :
    Steady (Build.setDecl d defined) cx := by
  intro hcx
  have hspelled : ((Effect.link d body).apply cx).Spelled := hcx.spelled.apply nofun
  simp only [runOn, Build.setDecl, Arena.setDecl_eq_link hkind hdef]
  exact .answer hspelled

end Steady

/-! ## Names -/

/-- The name of a placeholder is a number, and needs no symbol. -/
theorem placeholderName_faultless : Faultless placeholderName :=
  Faultless.freshPlaceholder.bind fun _ => .pushName rfl

/-- The report spells the declaration by its issued handle. -/
theorem doesNotName_steady {d : DeclId} {wanted : DeclSort} (hd : cx.Issued d) :
    Steady (doesNotName d wanted : Build α) cx :=
  .read_bind (fun hcx => hcx.spellDecl hd) fun _ _ _ => .faultless .mistake

/-- The declaration is read by its issued handle, and what is stored needs no
symbol. -/
theorem templateId_steady {d : DeclId} {args : List Term} (hd : cx.Issued d) :
    Steady (templateId d args) cx := by
  refine .read_bind (fun _ => .fetch hd) fun _ kind _ => ?_
  split
  · exact .faultless (.pushName rfl)
  · exact doesNotName_steady hd

theorem conceptId_steady {d : DeclId} {args : List Term} (hd : cx.Issued d) :
    Steady (conceptId d args) cx := by
  refine .read_bind (fun _ => .fetch hd) fun _ kind _ => ?_
  split
  · exact .faultless (.pushName rfl)
  · exact doesNotName_steady hd

/-- The symbol of a spelling that was just interned has that spelling. -/
theorem identifier_steady {s : String} : Steady (NameRequest.identifier s).perform cx := by
  have hsymbol : Safe (symbol s) cx fun sym cx' => cx'.HasSymbol sym :=
    .change (.spelling s) Context.allIssued_nil rfl
      (Array.getElem?_eq_some_iff.mp (cx.symbols.spellings.getElem?_intern s)).1
  exact .bind hsymbol (.faultless .symbol) fun _ _ _ hsym => .pushName_simple hsym

end Build

/-- **Requests for names are steady**, the symbol passed in having a spelling. -/
theorem NameRequest.perform_steady {cx : Context} (request : NameRequest)
    (h : cx.AllIssued request.handles) (hsymbols : ∀ sym ∈ request.symbols, cx.HasSymbol sym) :
    Steady request.perform cx := by
  cases request with
  | identifier s => exact identifier_steady
  | ofSymbol sym => exact .pushName_simple (hsymbols sym List.mem_cons_self)
  | placeholder => exact .faultless placeholderName_faultless
  | operator | qualified => exact .faultless (.pushName rfl)
  | destructor => exact .faultless .unsupported
  | templateId d args => exact templateId_steady (Context.allIssued_cons.mp h).1
  | conceptId d args => exact conceptId_steady (Context.allIssued_cons.mp h).1
  | global => exact .faultless .pure

namespace Build

variable {cx : Context}

/-! ## Types -/

/-- The type is split by its issued handle. -/
theorem qualifiedType_steady {ty : TypeId} {quals : Qualifiers} (hty : cx.Issued ty) :
    Steady (qualifiedType ty quals) cx := by
  unfold qualifiedType
  split
  · exact .faultless .pure
  · exact .read_bind (fun _ => hty.splitQualifiers) fun _ _ _ => .faultless .internType

/-- The parameters are read by their issued handles, but need not be
parameters. -/
theorem functionType_steady {parms : List DeclId} {ret : TypeId}
    (hparms : ∀ d ∈ parms, cx.Issued d) : Steady (functionType parms ret) cx :=
  .read_bind (fun _ => .mapM fun d hd => (hparms d hd).parameterType)
    fun _ _ _ => .faultless .internType

/-- The declaration is read by its issued handle, but need not be a type
parameter. -/
theorem typenameType_steady {parm : DeclId} (h : cx.Issued parm) :
    Steady (typenameType parm) cx := by
  refine .read_bind (fun _ => .fetch h) fun _ kind _ => ?_
  split
  · exact .faultless .internType
  · exact .violation

/-- The parameter that is made up is there when its type is asked for. -/
theorem placeholderType_steady : Steady placeholderType cx := by
  refine .bind placeholderName_safe (.faultless placeholderName_faultless) fun name cx₁ _ hname => ?_
  have hparm : Safe (pushDecl (.typeParm ⟨0, 0⟩ name none)) cx₁ fun d cx' => cx'.Issued d :=
    .pushDecl (by simpa [DeclKind.handles] using hname)
  exact .bind hparm (.faultless .pushDecl) fun parm cx₂ _ hissued => typenameType_steady hissued

/-- The declaration is read, and then what it stands for, which the closed context
has issued. -/
theorem userType_steady {d : DeclId} (hd : cx.Issued d) : Steady (userType d) cx := by
  refine .read_bind (fun _ => hd.parameterized) fun hcx target htarget => ?_
  refine .read_bind (fun _ => .fetch (hcx.closed.parameterized hd htarget)) fun _ kind _ => ?_
  split
  · exact .faultless .internType
  · exact .violation

/-- The walk through the templates ends, and at an issued declaration. -/
theorem declaredType_steady {d : DeclId} (hd : cx.Issued d) : Steady (declaredType d) cx := by
  refine .read_bind (fun hcx => hcx.core hd) fun hcx core hcore => ?_
  obtain ⟨core, kind⟩ := core
  have hissued : cx.Issued core := Context.issued_of_decl (Arena.coreWithin_eq_ok hcore).1
  cases kind with
  | classType => exact userType_steady hissued
  | template | nameSpace => exact .violation
  | _ => exact .faultless .pure

/-- The plain integer types are stored without reading anything. -/
theorem plainInteger_faultless {signed : Bool} : Faultless (plainInteger signed) := by
  intro cx hcx
  have hint : Faultless (internType (.integer signed cx.config.intPrecision)) := .internType
  exact hint cx hcx

end Build

/-- **Requests for types are steady.** -/
theorem TypeRequest.perform_steady {cx : Context} (request : TypeRequest)
    (h : cx.AllIssued request.handles) : Steady request.perform cx := by
  cases request with
  | void | bool | typeOfTypes => exact .faultless .pure
  | byte | integer | float | auto | declauto | functionOf | wrapped | synthetic | union | enum =>
    exact .faultless .internType
  | int | uint => exact .faultless plainInteger_faultless
  | placeholder => exact placeholderType_steady
  | decltype | array | dynarray => exact .faultless .unsupported
  | function parms ret =>
    simp only [handles, Context.allIssued_cons, Context.allIssued_map] at h
    exact functionType_steady h.2
  | qualified ty quals => exact qualifiedType_steady (Context.allIssued_cons.mp h).1
  | typename parm => exact typenameType_steady (Context.allIssued_cons.mp h).1
  | user d => exact userType_steady (Context.allIssued_cons.mp h).1
  | declared d => exact declaredType_steady (Context.allIssued_cons.mp h).1

namespace Build

variable {cx : Context}

/-! ## Expressions -/

/-- A node of a reference type is stored after the type. -/
theorem pushExpr_reference_faultless {kind : ExprKind} {ty : TypeId} :
    Faultless (do pushExpr kind (← referenceType ty)) :=
  Faultless.internType.bind fun _ => .pushExpr

/-- A refusal that says what something is called spells its name. -/
theorem refuse_steady {name : NameId} (m : String → Mistake) (hname : cx.Issued name) :
    Steady (do mistake (m (← read fun cx => cx.spell name)) : Build ExprId) cx :=
  .read_bind (fun hcx => hcx.spell hname) fun _ _ _ => .faultless .mistake

/-- The name, the target and its declaration are read, all issued; the message of
the refusal is spelled from the name. -/
theorem reference_steady {d : DeclId} (hd : cx.Issued d) : Steady (reference d) cx := by
  refine .read_bind (fun hcx => hcx.declName hd) fun hcx name hname => ?_
  refine .read_bind (fun _ => hd.parameterized) fun _ target htarget => ?_
  refine .read_bind (fun _ => .fetch (hcx.closed.parameterized hd htarget)) fun _ kind _ => ?_
  have hrefused (sort : DeclSort) : Steady _ cx :=
    refuse_steady (.notReferable · sort) (hcx.closed.declName hname)
  cases kind with
  | var | objectParm | valueParm => exact .faultless pushExpr_reference_faultless
  | function flavor =>
    cases flavor with
    | free => exact .faultless .pushExpr
    | _ => exact hrefused _
  | _ => exact hrefused _

/-- As for a plain reference; the object is not looked at. -/
theorem memberReference_steady {obj : ExprId} {d : DeclId} (hd : cx.Issued d) :
    Steady (memberReference obj d) cx := by
  refine .read_bind (fun hcx => hcx.declName hd) fun hcx name hname => ?_
  refine .read_bind (fun _ => hd.parameterized) fun _ target htarget => ?_
  refine .read_bind (fun _ => .fetch (hcx.closed.parameterized hd htarget)) fun _ kind _ => ?_
  split
  · exact .faultless pushExpr_reference_faultless
  · exact .faultless .pushExpr
  · exact refuse_steady (.notMember · _) (hcx.closed.declName hname)

/-- The concept is read by its issued handle; a refusal spells its name. -/
theorem check_steady {d : DeclId} {args : List Term} (hd : cx.Issued d) :
    Steady (check d args) cx := by
  refine .read_bind (fun _ => .fetch hd) fun _ kind _ => ?_
  split
  · exact .faultless .pushExpr
  · refine .read_bind (fun hcx => hcx.declName hd) fun hcx name hname => ?_
    exact refuse_steady (.doesNotName · .concept) (hcx.closed.declName hname)

/-- An expression of the type of its first operand, less reference and
qualifiers. -/
theorem pushExpr_value_steady {kind : ExprKind} {e : ExprId} (he : cx.Issued e) :
    Steady (do pushExpr kind (← read fun cx => cx.valueTypeOf e)) cx :=
  .read_bind (fun hcx => hcx.valueTypeOf he) fun _ _ _ => .faultless .pushExpr

/-- All that is read is the type of the operand, and not even that for a
negation. -/
theorem unary_steady {op : UnaryOp} {operand : ExprId} (h : cx.Issued operand) :
    Steady (unary op operand) cx := by
  cases op with
  | not => exact .faultless .pushExpr
  | neg | pos | bitNot => exact pushExpr_value_steady h

/-- All that is read is the type of the left operand, and not even that for a
truth value. -/
theorem binary_steady {op : BinaryOp} {lhs rhs : ExprId} (h : cx.Issued lhs) :
    Steady (binary op lhs rhs) cx := by
  unfold binary
  split
  · exact .faultless .pushExpr
  · exact pushExpr_value_steady h

/-- The type of the callee is read; a wrong number of arguments is a mistake and
no fault. -/
theorem call_steady {callee : ExprId} {args : List ExprId} (h : cx.Issued callee) :
    Steady (call callee args) cx := by
  refine .read_bind (fun hcx => hcx.valueTypeOf h) fun hcx ty hty => ?_
  refine .read_bind (fun _ => .fetch (hcx.closed.valueTypeOf hty)) fun _ kind _ => ?_
  split
  · split
    · exact .faultless .pushExpr
    · exact .faultless .mistake
  · exact .faultless .mistake

/-- The reference that is called has been issued by then. -/
theorem callDecl_steady {d : DeclId} {args : List ExprId} (hd : cx.Issued d) :
    Steady (callDecl d args) cx :=
  .bind (reference_safe hd) (reference_steady hd) fun _ _ _ hcallee => call_steady hcallee

end Build

/-- **Requests for expressions are steady.** -/
theorem ExprRequest.perform_steady {cx : Context} (request : ExprRequest)
    (h : cx.AllIssued request.handles) : Steady request.perform cx := by
  cases request with
  | boolean | integer | requires | trivialInit | copyInit | bindInit | directInit
  | aggregateInit => exact .faultless .pushExpr
  | int | uint => exact .faultless (plainInteger_faultless.bind fun _ => .pushExpr)
  | reference d => exact reference_steady (Context.allIssued_cons.mp h).1
  | memberReference obj d =>
    simp only [handles, Context.allIssued_cons] at h
    exact memberReference_steady h.2.1
  | check d args => exact check_steady (Context.allIssued_cons.mp h).1
  | synthesized d =>
    have hty := declaredType_steady (Context.allIssued_cons.mp h).1
    exact hty.then_faultless fun _ => .pushExpr
  | unary op operand => exact unary_steady (Context.allIssued_cons.mp h).1
  | binary op lhs rhs => exact binary_steady (Context.allIssued_cons.mp h).1
  | call callee args => exact call_steady (Context.allIssued_cons.mp h).1
  | callDecl d args => exact callDecl_steady (Context.allIssued_cons.mp h).1

namespace Build

variable {cx : Context}

/-! ## Definitions and declarations -/

/-- A definition is predefined or stored, without reading anything. -/
theorem define_faultless {kind : DefKind} : Faultless (define kind) := by
  cases kind with
  | empty | deleted | defaulted => exact .pure
  | expression | function | type | classBody | concept => exact .pushDef

theorem initializer_faultless {init : Option ExprId} : Faultless (initializer init) := by
  cases init with
  | none => exact .pure
  | some expr =>
    have hdefine : Faultless (define (.expression expr)) := define_faultless
    exact hdefine

theorem functionBody_faultless {body : Option FunctionBody} : Faultless (functionBody body) := by
  cases body with
  | none => exact .pure
  | some body =>
    have hdefine : Faultless (define body.definition) := define_faultless
    exact hdefine

end Build

/-- **Requests for declarations are steady**: only a function reads anything, its
parameters. -/
theorem DeclRequest.perform_steady {cx : Context} (request : DeclRequest)
    (h : cx.AllIssued request.handles) : Steady request.perform cx := by
  cases request with
  | superclass | classType | template | concept | objectParm | valueParm | typeParm =>
    exact .faultless .pushDecl
  | var | field => exact .faultless (initializer_faultless.bind fun _ => .pushDecl)
  | function flavor name parms ret body =>
    simp only [handles, Context.allIssued_cons, Context.allIssued_append,
      Context.allIssued_map] at h
    have hty : Steady (functionType parms ret) cx := functionType_steady h.2.2.1
    exact hty.then_faultless fun _ => functionBody_faultless.bind fun _ => .pushDecl
  | conceptOf => exact .faultless (define_faultless.bind fun _ => .pushDecl)
  | nameSpace => exact .faultless .unsupported

namespace Build

variable {cx : Context}

/-! ## Linking -/

/-- What is defined is read first; a declaration that takes no definition breaks a
rule. -/
theorem attach_steady {d : DeclId} {body : DefId} (hd : cx.Issued d) :
    Steady (attach d body) cx := by
  refine .read_bind (fun _ => hd.parameterized) fun hcx target htarget => ?_
  refine .read_bind (fun _ => .fetch (hcx.closed.parameterized hd htarget)) fun _ kind hkind => ?_
  split
  · next defined hdef => exact .setDecl hkind hdef
  · exact .violation

end Build

/-- **Requests about definitions are steady.** -/
theorem LinkRequest.perform_steady {cx : Context} (request : LinkRequest)
    (h : cx.AllIssued request.handles) : Steady request.perform cx := by
  cases request with
  | attach d body =>
    have hattach : Steady (Build.attach d body) cx := attach_steady (Context.allIssued_cons.mp h).1
    exact hattach.then_faultless fun _ => .pure
  | define d kind =>
    obtain ⟨hd, hkind⟩ := Context.allIssued_cons.mp h
    refine .bind (define_safe hkind) (.faultless define_faultless) fun body cx' hle _ => ?_
    exact (attach_steady (hd.later hle)).then_faultless fun _ => .pure
  | definitionOf d => exact .read fun hcx => hcx.definitionOf (Context.allIssued_cons.mp h).1

/-! ## Queries and requests -/

/-- A query on issued handles is answered, or a rule is broken. -/
theorem Query.answer_faultsOnly {cx : Context} (hcx : cx.Whole) (q : Query)
    (h : cx.AllIssued q.handles) : FaultsOnly Fault.BreaksRule (q.answer cx) := by
  cases q with
  | symbol s => exact .ok
  | spelling n => exact (hcx.spell (Context.allIssued_cons.mp h).1).map
  | split ty => exact (Context.allIssued_cons.mp h).1.splitQualifiers.map
  | isValueType ty => exact (hcx.isValueType (Context.allIssued_cons.mp h).1).map
  | alike x y =>
    simp only [handles, Context.allIssued_cons] at h
    exact (hcx.exprsAlike h.1 h.2.1).map
  | declName d => exact (hcx.declName (Context.allIssued_cons.mp h).1).map
  | parameterized d => exact (Context.allIssued_cons.mp h).1.parameterized.map
  | node c id => exact (Context.allIssued_cons.mp h).1.lookUp.map

/-- **Requests are steady** when their handles and symbols have been issued. -/
theorem Request.perform_steady {cx : Context} (request : Request)
    (h : cx.AllIssued request.handles) (hsymbols : ∀ sym ∈ request.symbols, cx.HasSymbol sym) :
    Steady request.perform cx := by
  cases request with
  | intern s => exact .map (.faultless .symbol)
  | name request => exact .map (request.perform_steady h hsymbols)
  | type request => exact .map (request.perform_steady h)
  | expr request => exact .map (request.perform_steady h)
  | stmt kind => exact .map (.faultless .pushStmt)
  | decl request => exact .map (request.perform_steady h)
  | define kind => exact .map (.faultless define_faultless)
  | link request => exact .map (request.perform_steady h)
  | requirement kind => exact .map (.faultless .pushReq)
  | constraint kind => exact .map (.internConstraint h)
  | query q => exact .read fun hcx => q.answer_faultsOnly hcx h

/-- A request about a pending header reads nothing; without a header there is a
rule that it may break. -/
theorem HeaderRequest.perform_steady {cx : Context} (pending : Option TemplateHeader)
    (request : HeaderRequest) : Steady (request.perform pending).1 cx := by
  cases request with
  | start | isPending | reset => exact .faultless .pure
  | constrain expr =>
    cases pending with
    | none => exact .violation
    | some header => exact .faultless .pure
  | templatize d =>
    cases pending with
    | none => exact .faultless .pure
    | some header => exact .map (.faultless .pushDecl)

end TermGraph
