import TermGraph.Proofs.Runs

/-!
# What constructions leave alone

Two things in a context concern few constructions.  One is where its words come
from: spellings, which are interned, and the numbers of made-up names.  Only the
requests of `Request.HasWords` draw on them.  The other is how constraints are
found: the buckets and the digest of their table.  Only interning a constraint
looks at these.

A construction is *wordless* when it leaves the words as they were, whatever
handles it is given and however it ends (`Build.Wordless`).  It is *blind* when,
given a context whose table holds the same constraints but finds them in another
way, it answers the same and leaves the same, that table untouched
(`Build.Blind`).  Most constructions are both, or *neutral* (`Build.Neutral`).
There is a rule for each way of putting neutral constructions together and a
line or two for each construction that is.

For commands this comes to two statements.  Only a request for words adds to the
words of a graph (`Workspace.step_wordless`).  And two workspaces that find the
same constraints in different ways cannot be told apart by any command but the
interning of a constraint (`Workspace.step_blind`).
-/

namespace TermGraph

/-! ## Words, and how constraints are found -/

/-- The context with another table of constraints. -/
def Context.withTable (cx : Context) (t : ConstraintTable) : Context := { cx with constraints := t }

/-- The workspace with another table of constraints. -/
def Workspace.withTable (w : Workspace) (t : ConstraintTable) : Workspace :=
  { w with context := w.context.withTable t }

namespace Context

/-- What is read does not depend on how constraints are found. -/
def Indifferent {α : Type} (look : Context → α) : Prop :=
  ∀ (cx : Context) (t : ConstraintTable), t.kinds = cx.constraints.kinds →
    look (cx.withTable t) = look cx

/-- In the second state there are the same spellings and the same numbers, in
use and to come. -/
structure SameWording (cx cx' : Context) : Prop where
  symbols : cx'.symbols = cx.symbols
  next : cx'.nextPlaceholder = cx.nextPlaceholder
  numbered : ∀ n k, cx'.arena.name n = .ok (.placeholder k) → cx.arena.name n = .ok (.placeholder k)

variable {cx cx' cx'' : Context}

/-- Where nothing happens the words stay. -/
theorem SameWording.refl (cx : Context) : cx.SameWording cx := ⟨rfl, rfl, fun _ _ h => h⟩

/-- Words that stay twice stay. -/
theorem SameWording.trans (h : cx.SameWording cx') (k : cx'.SameWording cx'') : cx.SameWording cx'' where
  symbols := k.symbols.trans h.symbols
  next := k.next.trans h.next
  numbered n i hn := h.numbered n i (k.numbered n i hn)

/-- A name that is pushed without a number adds none. -/
theorem sameWording_pushName {kind : NameKind} (h : ∀ k, kind ≠ .placeholder k) :
    cx.SameWording { cx with arena := (cx.arena.pushName kind).2 } := by
  refine ⟨rfl, rfl, fun n k hn => ?_⟩
  rcases fetch_push_eq_ok hn with hold | ⟨_, hnew⟩
  · exact hold
  · exact (h k hnew.symm).elim

/-- Spelling a name does not look at constraints. -/
theorem indifferent_spell (n : NameId) : Indifferent fun cx => cx.spell n := by
  intro cx t _
  have hwithin (steps : Nat) (n : NameId) :
      (cx.withTable t).spellWithin steps n = cx.spellWithin steps n := by
    induction steps generalizing n with
    | zero => rfl
    | succ steps ih => simp only [spellWithin, ih]; rfl
  exact hwithin _ n

/-- Nor does spelling the name of a declaration. -/
theorem indifferent_spellDecl (d : DeclId) : Indifferent fun cx => cx.spellDecl d := by
  intro cx t ht
  simp only [spellDecl, indifferent_spell _ cx t ht]
  rfl

/-- Nor does the category of a type. -/
theorem indifferent_isValueType (ty : TypeId) : Indifferent fun cx => cx.isValueType ty := by
  intro cx t _
  have hwithin (steps : Nat) (ty : TypeId) :
      (cx.withTable t).isValueTypeWithin steps ty = cx.isValueTypeWithin steps ty := by
    induction steps generalizing ty with
    | zero => rfl
    | succ steps ih => simp only [isValueTypeWithin, ih]; rfl
  exact hwithin _ ty

end Context

/-- Queries look at the constraints, but not at how they are found. -/
theorem Query.indifferent_answer (q : Query) : Context.Indifferent fun cx => q.answer cx := by
  intro cx t ht
  cases q with
  | spelling n => simp only [answer, Context.indifferent_spell n cx t ht]
  | isValueType ty => simp only [answer, Context.indifferent_isValueType ty cx t ht]
  | node c id =>
    cases c with
    | constraint =>
      simp only [answer, Context.lookUp, Context.constraint, ConstraintTable.kind,
        Context.withTable, ht]
    | _ => rfl
  | _ => rfl

namespace Build

variable {α β : Type}

/-! ## Blind, wordless and neutral constructions -/

/-- With another table of the same constraints the construction answers the
same and leaves the same but for that table, which it does not touch. -/
def Blind (b : Build α) : Prop :=
  ∀ (cx : Context) (t : ConstraintTable), t.kinds = cx.constraints.kinds →
    b.runOn (cx.withTable t) = ((b.runOn cx).1, (b.runOn cx).2.withTable t)

/-- However the construction ends, it leaves the words as they were. -/
def Wordless (b : Build α) : Prop := ∀ cx : Context, cx.SameWording (b.runOn cx).2

/-- The construction is blind and wordless. -/
structure Neutral (b : Build α) : Prop where
  blind : Blind b
  wordless : Wordless b

namespace Blind

/-- A blind construction leaves the table of constraints alone. -/
theorem constraints {b : Build α} (hb : Blind b) (cx : Context) :
    (b.runOn cx).2.constraints = cx.constraints := by
  have h := hb cx cx.constraints rfl
  exact congrArg (fun run => run.2.constraints) h

/-- A blind construction after another finds the table untouched, so it too does
the same with another one. -/
theorem bind {b : Build α} {f : α → Build β} (hb : Blind b) (hf : ∀ x, Blind (f x)) :
    Blind (b >>= f) := by
  intro cx t ht
  have hkinds := hb.constraints cx
  rw [runOn_bind, runOn_bind, hb cx t ht]
  rcases hrun : b.runOn cx with ⟨_ | x, cx'⟩
  · rfl
  · rw [hrun] at hkinds
    exact hf x cx' t (ht.trans (congrArg ConstraintTable.kinds hkinds).symm)

/-- What is made of an answer changes nothing. -/
theorem map {b : Build α} {f : α → β} (hb : Blind b) : Blind (f <$> b) := by
  intro cx t ht
  rw [runOn_map, runOn_map, hb cx t ht]

/-- A change to anything else, made without looking at the constraints. -/
theorem change {step : Context → α × Context}
    (h : ∀ cx t, step (cx.withTable t) = ((step cx).1, (step cx).2.withTable t)) :
    Blind (Build.change step) := by
  intro cx t _
  show (Except.ok (step (cx.withTable t)).1, (step (cx.withTable t)).2) = _
  rw [h cx t]
  rfl

/-- Interning a spelling does not look at constraints. -/
theorem symbol {s : String} : Blind (Build.symbol s) := change fun _ _ => rfl

/-- Storing a name does not look at constraints, whatever name it is. -/
theorem pushName {kind : NameKind} : Blind (Build.pushName kind) := change fun _ _ => rfl

/-- Making up a name does not look at constraints. -/
theorem placeholderName : Blind Build.placeholderName := by
  have hnumber : Blind Build.freshPlaceholder := change fun _ _ => rfl
  exact hnumber.bind fun _ => pushName

end Blind

namespace Wordless

/-- Words that two constructions leave alone one after the other stay. -/
theorem bind {b : Build α} {f : α → Build β} (hb : Wordless b) (hf : ∀ x, Wordless (f x)) :
    Wordless (b >>= f) := by
  intro cx
  have hfirst := hb cx
  rw [runOn_bind]
  rcases hrun : b.runOn cx with ⟨_ | x, cx'⟩
  · rwa [hrun] at hfirst
  · rw [hrun] at hfirst
    exact hfirst.trans (hf x cx')

/-- What is made of an answer changes nothing. -/
theorem map {b : Build α} {f : α → β} (hb : Wordless b) : Wordless (f <$> b) := by
  intro cx
  rw [runOn_map]
  exact hb cx

/-- Constraints are interned without words. -/
theorem internConstraint {kind : ConstraintKind} : Wordless (Build.internConstraint kind) := by
  intro cx
  unfold runOn Build.internConstraint
  cases cx.constraints.intern cx.arena kind <;> exact ⟨rfl, rfl, fun _ _ h => h⟩

end Wordless

namespace Neutral

/-! ## Putting neutral constructions together -/

/-- Answering at once. -/
theorem pure {x : α} : Neutral (Pure.pure x) := ⟨fun _ _ _ => rfl, .refl⟩

/-- Failing at once. -/
theorem throw {failure : Failure} : Neutral (MonadExcept.throw failure : Build α) :=
  ⟨fun _ _ _ => rfl, .refl⟩

/-- One after the other. -/
theorem bind {b : Build α} {f : α → Build β} (hb : Neutral b) (hf : ∀ x, Neutral (f x)) :
    Neutral (b >>= f) :=
  ⟨hb.blind.bind fun x => (hf x).blind, hb.wordless.bind fun x => (hf x).wordless⟩

/-- Making something of the answer. -/
theorem map {b : Build α} {f : α → β} (hb : Neutral b) : Neutral (f <$> b) :=
  ⟨hb.blind.map, hb.wordless.map⟩

/-- Reading what does not depend on how constraints are found. -/
theorem read {look : Context → Except Fault α} (h : Context.Indifferent look) :
    Neutral (Build.read look) where
  blind cx t ht := by rw [runOn_read, runOn_read, h cx t ht]
  wordless cx := by
    rw [runOn_read]
    exact .refl cx

/-- Changing something else, without looking at the constraints. -/
theorem change {step : Context → α × Context}
    (hblind : ∀ cx t, step (cx.withTable t) = ((step cx).1, (step cx).2.withTable t))
    (hwords : ∀ cx : Context, cx.SameWording (step cx).2) : Neutral (Build.change step) :=
  ⟨.change hblind, hwords⟩

/-! ## The primitive constructions -/

/-- Refusing a program that is wrong. -/
theorem mistake {m : Mistake} : Neutral (Build.mistake m : Build α) := throw

/-- Refusing what is not supported. -/
theorem unsupported {feature : String} : Neutral (Build.unsupported feature : Build α) := throw

/-- Faulting at a request that makes no sense. -/
theorem violation {rule : Violation} : Neutral (Build.violation rule : Build α) := throw

/-- Storing a name without a number. -/
theorem pushName {kind : NameKind} (h : ∀ k, kind ≠ .placeholder k) :
    Neutral (Build.pushName kind) :=
  ⟨.pushName, fun _ => Context.sameWording_pushName h⟩

/-- Storing an expression. -/
theorem pushExpr {kind : ExprKind} {ty : TypeId} : Neutral (Build.pushExpr kind ty) :=
  change (fun _ _ => rfl) fun _ => ⟨rfl, rfl, fun _ _ h => h⟩

/-- Storing a statement. -/
theorem pushStmt {kind : StmtKind} : Neutral (Build.pushStmt kind) :=
  change (fun _ _ => rfl) fun _ => ⟨rfl, rfl, fun _ _ h => h⟩

/-- Storing a declaration. -/
theorem pushDecl {kind : DeclKind} : Neutral (Build.pushDecl kind) :=
  change (fun _ _ => rfl) fun _ => ⟨rfl, rfl, fun _ _ h => h⟩

/-- Storing a definition. -/
theorem pushDef {kind : DefKind} : Neutral (Build.pushDef kind) :=
  change (fun _ _ => rfl) fun _ => ⟨rfl, rfl, fun _ _ h => h⟩

/-- Storing a requirement. -/
theorem pushReq {kind : ReqKind} : Neutral (Build.pushReq kind) :=
  change (fun _ _ => rfl) fun _ => ⟨rfl, rfl, fun _ _ h => h⟩

/-- Interning a type. -/
theorem internType {kind : TypeKind} : Neutral (Build.internType kind) :=
  change (fun _ _ => rfl) fun _ => ⟨rfl, rfl, fun _ _ h => h⟩

/-- Replacing a declaration, which fails if there is none. -/
theorem setDecl {d : DeclId} {kind : DeclKind} : Neutral (Build.setDecl d kind) where
  blind cx t _ := by
    simp only [runOn, Build.setDecl, Context.withTable]
    cases cx.arena.setDecl d kind <;> rfl
  wordless cx := by
    unfold runOn Build.setDecl Arena.setDecl
    cases cx.arena.decl d <;> exact ⟨rfl, rfl, fun _ _ h => h⟩

/-- Reading a declaration. -/
theorem decl {d : DeclId} : Neutral (Build.decl d) := read fun _ _ _ => rfl

/-- Reading a type. -/
theorem type {ty : TypeId} : Neutral (Build.type ty) := read fun _ _ _ => rfl

end Neutral

/-! ## Names and types -/

/-- The refusal of a declaration spells its name. -/
theorem doesNotName_neutral {d : DeclId} {wanted : DeclSort} :
    Neutral (doesNotName d wanted : Build α) :=
  .bind (.read (Context.indifferent_spellDecl d)) fun _ => .mistake

/-- Applying a template stores a name or is refused. -/
theorem templateId_neutral {d : DeclId} {args : List Term} : Neutral (templateId d args) := by
  refine .bind .decl fun kind => ?_
  split
  · exact .pushName nofun
  · exact doesNotName_neutral

/-- Applying a concept stores a name or is refused. -/
theorem conceptId_neutral {d : DeclId} {args : List Term} : Neutral (conceptId d args) := by
  refine .bind .decl fun kind => ?_
  split
  · exact .pushName nofun
  · exact doesNotName_neutral

/-- Qualifying a type interns at most one. -/
theorem qualifiedType_neutral {ty : TypeId} {quals : Qualifiers} :
    Neutral (qualifiedType ty quals) := by
  unfold qualifiedType
  split
  · exact .pure
  · exact .bind (.read fun _ _ _ => rfl) fun _ => .internType

/-- The types of the parameters are read, then one type is interned. -/
theorem functionType_neutral {parms : List DeclId} {ret : TypeId} :
    Neutral (functionType parms ret) :=
  .bind (.read fun _ _ _ => rfl) fun _ => .internType

/-- What is declared is looked at before its type is interned. -/
theorem typenameType_neutral {parm : DeclId} : Neutral (typenameType parm) := by
  refine .bind .decl fun kind => ?_
  split
  · exact .internType
  · exact .violation

/-- The class inside a template is looked at before its type is interned. -/
theorem userType_neutral {d : DeclId} : Neutral (userType d) := by
  refine .bind (.read fun _ _ _ => rfl) fun target => .bind .decl fun kind => ?_
  split
  · exact .internType
  · exact .violation

/-- Of declarations only classes have their types interned. -/
theorem declaredType_neutral {d : DeclId} : Neutral (declaredType d) := by
  refine .bind (.read fun _ _ _ => rfl) fun core => ?_
  obtain ⟨core, kind⟩ := core
  cases kind with
  | superclass | var | function | field | objectParm | valueParm | typeParm | concept =>
    exact .pure
  | classType => exact userType_neutral
  | template | nameSpace => exact .violation

/-- The width of the plain integers is among the settings, which stay. -/
theorem plainInteger_neutral {signed : Bool} : Neutral (plainInteger signed) := by
  have hint (cx : Context) : Neutral (internType (.integer signed cx.config.intPrecision)) :=
    .internType
  exact ⟨fun cx => (hint cx).blind cx, fun cx => (hint cx).wordless cx⟩

end Build

/-- Requests for names are neutral, but for identifiers and made-up names. -/
theorem NameRequest.perform_neutral {request : NameRequest}
    (hspelled : ∀ s, request ≠ .identifier s) (hnumbered : request ≠ .placeholder) :
    request.perform.Neutral := by
  cases request with
  | identifier s => exact (hspelled s rfl).elim
  | placeholder => exact (hnumbered rfl).elim
  | ofSymbol | operator | qualified => exact .pushName nofun
  | destructor => exact .unsupported
  | templateId => exact Build.templateId_neutral
  | conceptId => exact Build.conceptId_neutral
  | global => exact .pure

/-- Requests for types are neutral, but for that of a made-up parameter. -/
theorem TypeRequest.perform_neutral {request : TypeRequest} (h : request ≠ .placeholder) :
    request.perform.Neutral := by
  cases request with
  | void | bool | typeOfTypes => exact .pure
  | byte | integer | float | auto | declauto | functionOf | wrapped | synthetic | union | enum =>
    exact .internType
  | int | uint => exact Build.plainInteger_neutral
  | placeholder => exact (h rfl).elim
  | decltype | array | dynarray => exact .unsupported
  | function => exact Build.functionType_neutral
  | qualified => exact Build.qualifiedType_neutral
  | typename => exact Build.typenameType_neutral
  | user => exact Build.userType_neutral
  | declared => exact Build.declaredType_neutral

/-! ## Expressions -/

namespace Build

/-- A refusal that says what something is called spells its name. -/
theorem refuse_neutral (m : String → Mistake) (name : NameId) :
    Neutral (do mistake (m (← read fun cx => cx.spell name)) : Build ExprId) :=
  .bind (.read (Context.indifferent_spell name)) fun _ => .mistake

/-- A reference to an object interns a type and stores an expression; what cannot
be referred to is spelled. -/
theorem reference_neutral {d : DeclId} : Neutral (reference d) := by
  refine .bind (.read fun _ _ _ => rfl) fun name => ?_
  refine .bind (.read fun _ _ _ => rfl) fun target => .bind .decl fun kind => ?_
  cases kind with
  | var | objectParm | valueParm => exact .bind .internType fun _ => .pushExpr
  | function flavor =>
    cases flavor with
    | free => exact .pushExpr
    | _ => exact refuse_neutral (.notReferable · _) name
  | _ => exact refuse_neutral (.notReferable · _) name

/-- So do references to members. -/
theorem memberReference_neutral {object : ExprId} {d : DeclId} :
    Neutral (memberReference object d) := by
  refine .bind (.read fun _ _ _ => rfl) fun name => ?_
  refine .bind (.read fun _ _ _ => rfl) fun target => .bind .decl fun kind => ?_
  split
  · exact .bind .internType fun _ => .pushExpr
  · exact .pushExpr
  · exact refuse_neutral (.notMember · _) name

/-- A check stores an expression, or spells what is no concept. -/
theorem check_neutral {d : DeclId} {args : List Term} : Neutral (check d args) := by
  refine .bind .decl fun kind => ?_
  split
  · exact .pushExpr
  · exact .bind (.read fun _ _ _ => rfl) fun name => refuse_neutral (.doesNotName · .concept) name

/-- A unary operation reads at most the type of its operand. -/
theorem unary_neutral {op : UnaryOp} {operand : ExprId} : Neutral (unary op operand) := by
  cases op with
  | not => exact .pushExpr
  | neg | pos | bitNot => exact .bind (.read fun _ _ _ => rfl) fun _ => .pushExpr

/-- A binary operation reads at most the type of its first operand. -/
theorem binary_neutral {op : BinaryOp} {lhs rhs : ExprId} : Neutral (binary op lhs rhs) := by
  unfold binary
  split
  · exact .pushExpr
  · exact .bind (.read fun _ _ _ => rfl) fun _ => .pushExpr

/-- A call reads the type of what is called. -/
theorem call_neutral {callee : ExprId} {args : List ExprId} : Neutral (call callee args) := by
  refine .bind (.read fun _ _ _ => rfl) fun ty => .bind .type fun kind => ?_
  split
  · split
    · exact .pushExpr
    · exact .mistake
  · exact .mistake

end Build

/-- Requests for expressions are neutral. -/
theorem ExprRequest.perform_neutral (request : ExprRequest) : request.perform.Neutral := by
  cases request with
  | boolean | integer | requires | trivialInit | copyInit | bindInit | directInit
  | aggregateInit => exact .pushExpr
  | int | uint => exact .bind Build.plainInteger_neutral fun _ => .pushExpr
  | reference => exact Build.reference_neutral
  | memberReference => exact Build.memberReference_neutral
  | check => exact Build.check_neutral
  | synthesized => exact .bind Build.declaredType_neutral fun _ => .pushExpr
  | unary => exact Build.unary_neutral
  | binary => exact Build.binary_neutral
  | call => exact Build.call_neutral
  | callDecl => exact .bind Build.reference_neutral fun _ => Build.call_neutral

/-! ## Declarations and links -/

namespace Build

/-- A definition that carries nothing is shared, any other is stored. -/
theorem define_neutral {kind : DefKind} : Neutral (define kind) := by
  cases kind with
  | empty | deleted | defaulted => exact .pure
  | expression | function | type | classBody | concept => exact .pushDef

/-- An initializer is a definition, if there is one. -/
theorem initializer_neutral {init : Option ExprId} : Neutral (initializer init) := by
  cases init with
  | none => exact .pure
  | some expr =>
    have h : Neutral (define (.expression expr)) := define_neutral
    exact h

/-- The body of a function is a definition, if there is one. -/
theorem functionBody_neutral {body : Option FunctionBody} : Neutral (functionBody body) := by
  cases body with
  | none => exact .pure
  | some body => exact define_neutral

/-- Linking replaces a declaration that can be defined. -/
theorem attach_neutral {d : DeclId} {body : DefId} : Neutral (attach d body) := by
  refine .bind (.read fun _ _ _ => rfl) fun target => .bind .decl fun kind => ?_
  split
  · exact .setDecl
  · exact .violation

end Build

/-- Requests for declarations are neutral. -/
theorem DeclRequest.perform_neutral (request : DeclRequest) : request.perform.Neutral := by
  cases request with
  | superclass | classType | template | concept | objectParm | valueParm | typeParm =>
    exact .pushDecl
  | var | field => exact .bind Build.initializer_neutral fun _ => .pushDecl
  | function =>
    exact .bind Build.functionType_neutral fun _ =>
      .bind Build.functionBody_neutral fun _ => .pushDecl
  | conceptOf => exact .bind Build.define_neutral fun _ => .pushDecl
  | nameSpace => exact .unsupported

/-- Requests for links are neutral. -/
theorem LinkRequest.perform_neutral (request : LinkRequest) : request.perform.Neutral := by
  cases request with
  | attach => exact .bind Build.attach_neutral fun _ => .pure
  | define => exact .bind Build.define_neutral fun _ => .bind Build.attach_neutral fun _ => .pure
  | definitionOf => exact .read fun _ _ _ => rfl

/-! ## Requests and commands -/

/-- The request spells something or makes up a name. -/
def Request.HasWords : Request → Prop
  | .intern _ | .name (.identifier _) | .name .placeholder | .type .placeholder => True
  | _ => False

/-- Requests are neutral, but for those with words and those for constraints. -/
theorem Request.perform_neutral {request : Request} (hwords : ¬ request.HasWords)
    (hconstraint : ∀ kind, request ≠ .constraint kind) : request.perform.Neutral := by
  cases request with
  | intern s => exact (hwords trivial).elim
  | name request =>
    refine .map (NameRequest.perform_neutral (fun s hs => ?_) fun hp => ?_)
    · exact hwords (hs ▸ trivial)
    · exact hwords (hp ▸ trivial)
  | type request => exact .map (TypeRequest.perform_neutral fun hp => hwords (hp ▸ trivial))
  | expr request => exact .map request.perform_neutral
  | stmt kind => exact .map .pushStmt
  | decl request => exact .map request.perform_neutral
  | define kind => exact .map Build.define_neutral
  | link request => exact .map request.perform_neutral
  | requirement kind => exact .map .pushReq
  | constraint kind => exact (hconstraint kind rfl).elim
  | query q => exact .read q.indifferent_answer

/-- Requests with words are blind all the same. -/
theorem Request.perform_blind {request : Request} (h : ∀ kind, request ≠ .constraint kind) :
    request.perform.Blind := by
  by_cases hwords : request.HasWords
  · match request, hwords with
    | .intern s, _ => exact Build.Blind.symbol.map
    | .name (.identifier s), _ => exact (Build.Blind.symbol.bind fun _ => .pushName).map
    | .name .placeholder, _ => exact Build.Blind.placeholderName.map
    | .type .placeholder, _ =>
      have hparm (name : NameId) :
          Build.Neutral (do Build.typenameType (← Build.pushDecl (.typeParm ⟨0, 0⟩ name none))) :=
        .bind .pushDecl fun _ => Build.typenameType_neutral
      exact (Build.Blind.placeholderName.bind fun name => (hparm name).blind).map
  · exact (perform_neutral hwords h).blind

/-- Requests for constraints are wordless all the same. -/
theorem Request.perform_wordless {request : Request} (h : ¬ request.HasWords) :
    request.perform.Wordless := by
  by_cases hconstraint : ∃ kind, request = .constraint kind
  · obtain ⟨kind, rfl⟩ := hconstraint
    exact Build.Wordless.internConstraint.map
  · exact (perform_neutral h fun kind hkind => hconstraint ⟨kind, hkind⟩).wordless

/-- Requests about the pending header are neutral. -/
theorem HeaderRequest.perform_neutral (pending : Option TemplateHeader) (request : HeaderRequest) :
    (request.perform pending).1.Neutral := by
  cases request with
  | start | isPending | reset => exact .pure
  | constrain =>
    cases pending with
    | none => exact .violation
    | some header => exact .pure
  | templatize =>
    cases pending with
    | none => exact .pure
    | some header => exact .map .pushDecl

namespace Workspace

variable {w : Workspace} {command : Command}

/-- **Commands without words.**  Only a request that spells something or makes up
a name adds to the words of a graph. -/
theorem step_wordless (w : Workspace) {command : Command}
    (h : ∀ request, command = .ask request → ¬ request.HasWords) :
    w.context.SameWording (w.step command).2.context := by
  cases command with
  | ask request => exact Request.perform_wordless (h request rfl) w.context
  | header place request => exact (request.perform_neutral (w.pending place)).wordless w.context

/-- **Two tables of the same constraints.**  Every command but the interning
of a constraint does the same whichever of them is there. -/
theorem step_blind (h : ∀ kind, command ≠ .ask (.constraint kind)) {t : ConstraintTable}
    (ht : t.kinds = w.context.constraints.kinds) :
    (w.withTable t).step command = ((w.step command).1, (w.step command).2.withTable t) := by
  cases command with
  | ask request =>
    have hblind := Request.perform_blind fun kind hkind => h kind (congrArg Command.ask hkind)
    simp only [step, withTable, hblind w.context t ht]
  | header place request =>
    have hblind := (request.perform_neutral (w.pending place)).blind
    simp only [step, withTable, hblind w.context t ht]

/-- Every command but the interning of a constraint leaves the constraints
alone. -/
theorem step_constraints (h : ∀ kind, command ≠ .ask (.constraint kind)) :
    (w.step command).2.context.constraints = w.context.constraints := by
  cases command with
  | ask request =>
    have hblind := Request.perform_blind fun kind hkind => h kind (congrArg Command.ask hkind)
    exact hblind.constraints _
  | header place request => exact (request.perform_neutral _).blind.constraints _

end Workspace

end TermGraph
