import TermGraph.Proofs.Bounds.Runs
import TermGraph.Proofs.Templates
import TermGraph.Proofs.Types.Layers

/-!
# Calls agree with declarations

A function is declared by its parameters and its result, and it is called by a
list of arguments.  Between the two lie the type that was made of the
parameters when the function was declared, the reference to the function, which
has that type, and the call, which reads it off the reference again.

`cx.Signature f flavor name parms params ret ty` is what is true of a function
as long as it is there: its declaration and its type, and that the type lists
the types of the parameters.  Declaring makes it true
(`Build.functionDecl_signature`) and every later state keeps it
(`Context.Signature.later`), since nothing but the definition of a declaration
ever changes.  A call looks at the callee only to see the function type that it
has (`Build.call_run`), so what the signature says decides every call.

Free functions are called by their declaration, methods by a member of an
object, and neither in the way of the other.  One template around a function
makes no difference.
-/

namespace TermGraph

/-! ## Parameters -/

/-- The declaration is an object parameter of that type. -/
def Arena.IsObjectParm (a : Arena) (d : DeclId) (ty : TypeId) : Prop :=
  ∃ name, a.decl d = .ok (.objectParm name ty)

namespace Arena

variable {a b : Arena} {d : DeclId} {ty : TypeId}

/-- Only object parameters have a type that a function type mentions. -/
theorem isObjectParm_of_parameterType (h : a.parameterType d = .ok ty) : a.IsObjectParm d ty := by
  obtain ⟨kind, hkind, h⟩ := bind_eq_ok.mp h
  cases kind with
  | objectParm name ty =>
    cases h
    exact ⟨name, hkind⟩
  | _ => cases h

/-- The types of parameters are read position by position. -/
theorem forall₂_isObjectParm {parms : List DeclId} {params : List TypeId}
    (h : parms.mapM a.parameterType = .ok params) : List.Forall₂ a.IsObjectParm parms params :=
  (mapM_eq_ok.mp h).imp fun _ _ => isObjectParm_of_parameterType

/-- An object parameter stays one, and keeps its type. -/
theorem IsObjectParm.later (h : a.IsObjectParm d ty) (hle : a.Precedes b) :
    b.IsObjectParm d ty := by
  obtain ⟨name, hd⟩ := h
  obtain ⟨kind, hkind, hheader⟩ := hle.decl hd
  cases kind with
  | objectParm name' ty' =>
    cases hheader
    exact ⟨name, hkind⟩
  | _ => cases hheader

end Arena

/-! ## Signatures -/

/-- The function is declared with these parameters and this result: its type is
the function type of the types of the parameters and of the result. -/
structure Context.Signature (cx : Context) (f : DeclId) (flavor : FunctionFlavor) (name : NameId)
    (parms : List DeclId) (params : List TypeId) (ret ty : TypeId) : Prop where
  decl : ∃ body, cx.arena.decl f = .ok (.function flavor name ty parms body)
  parms : List.Forall₂ cx.arena.IsObjectParm parms params
  type : cx.type ty = .ok (.function params ret)

variable {cx cx' : Context} {f d : DeclId} {flavor : FunctionFlavor} {name : NameId}
  {parms : List DeclId} {params : List TypeId} {ret ty : TypeId}

namespace Context.Signature

/-- **A signature stays**, whatever becomes of the definition. -/
theorem later (h : cx.Signature f flavor name parms params ret ty) (hle : cx.Precedes cx') :
    cx'.Signature f flavor name parms params ret ty := by
  obtain ⟨body, hf⟩ := h.decl
  obtain ⟨kind, hkind, hheader⟩ := hle.arena.decl hf
  refine ⟨?_, h.parms.imp fun _ _ hparm => hparm.later hle.arena, hle.type h.type⟩
  cases kind with
  | function flavor' name' ty' parms' body' =>
    cases hheader
    exact ⟨body', hkind⟩
  | _ => cases hheader

/-- A function, or a template directly around it, stands for the function and
has its name. -/
theorem standsFor (h : cx.Signature f flavor name parms params ret ty)
    (hd : cx.arena.parameterized d = .ok f) :
    ∃ body, cx.arena.StandsFor d (.function flavor name ty parms body) ∧
      cx.arena.declName d = .ok name := by
  obtain ⟨body, hf⟩ := h.decl
  obtain ⟨n, hn, haround⟩ := Arena.Around.of_parameterized hf nofun hd
  exact ⟨body, haround.standsFor hn, haround.declName rfl⟩

/-- There are as many parameters as types of them. -/
theorem length_eq (h : cx.Signature f flavor name parms params ret ty) :
    params.length = parms.length :=
  h.parms.length_eq.symm

end Context.Signature

namespace Build

/-- **Declaring a function** gives it the signature of its parameters. -/
theorem functionDecl_signature {body : Option FunctionBody} :
    (DeclRequest.perform (.function flavor name parms ret body)).Atomic cx fun f es =>
      ∃ params ty, (cx.after es).Signature f flavor name parms params ret ty := by
  refine .bind (.read_bind fun params hparams => .sure (.internType (.bind ?_)))
  refine (functionBody_spares body).mono fun body fs _ => .pushDecl ?_
  have hty := cx.type_intern (.function params ret)
  refine ⟨params, (cx.types.intern (.function params ret)).1, ⟨body, ?_⟩, ?_, ?_⟩
  · rw [Context.after_append, Context.after_append]
    exact fetch_push_size _ _
  · exact (Arena.forall₂_isObjectParm hparams).imp fun _ _ hparm =>
      hparm.later (cx.precedes_after _).arena
  · rw [Context.after_append]
    exact (Context.precedes_after _ _).type hty

/-! ## Calling -/

/-- A function type has no reference and no qualifiers that were to be taken
off. -/
theorem valueTypeOf_function {callee : ExprId} {called : Expr}
    (hcallee : cx.arena.expr callee = .ok called)
    (hty : cx.type called.ty = .ok (.function params ret)) :
    cx.valueTypeOf callee = .ok called.ty := by
  rw [Context.valueTypeOf, Arena.exprType, hcallee]
  show (cx.type called.ty >>= _) = _
  rw [hty]
  show (cx.splitQualifiers called.ty >>= _) = _
  rw [Context.splitQualifiers, hty]
  rfl

/-- **A call** of an expression of function type is of the type of the result
if there are as many arguments as parameters, and refused with both numbers if
there are not. -/
theorem call_run {callee : ExprId} {called : Expr} (hcallee : cx.arena.expr callee = .ok called)
    (hty : cx.type called.ty = .ok (.function params ret)) (args : List ExprId) :
    (call callee args).runOn cx =
      if params.length = args.length then
        (.ok ⟨cx.count .expr⟩, cx.after [.expr (.call callee args) ret])
      else (.error (.refused (.semantic (.wrongArity params.length args.length))), cx) := by
  refine (runOn_read_bind (valueTypeOf_function hcallee hty)).trans ?_
  refine (runOn_read_bind hty).trans ?_
  show (if params.length = args.length then pushExpr (.call callee args) ret
    else mistake (.wrongArity params.length args.length)).runOn cx = _
  split <;> rfl

end Build

/-! ## Commands -/

namespace Workspace

variable {w : Workspace}

/-- The requests, one for every list of arguments, come to calls: with that many
arguments to a call of that type, of a callee which is that expression, and
with any other number to a refusal that names both numbers. -/
structure CallsAs (w : Workspace) (request : List ExprId → ExprRequest) (count : Nat)
    (ret : TypeId) (callee : ExprId) (called : Expr) : Prop where
  answers : ∀ args, args.length = count → ∃ e w',
    w.step (.ask (.expr (request args))) = (.ok (.node .expr e), w') ∧
      w'.context.arena.expr e = .ok ⟨ret, .call callee args⟩ ∧
      w'.context.arena.expr callee = .ok called
  refuses : ∀ args, args.length ≠ count →
    (w.step (.ask (.expr (request args)))).1
      = .error (.refused (.semantic (.wrongArity count args.length)))

/-- Calling an expression of function type. -/
theorem callsAs_callee {callee : ExprId} {called : Expr}
    (hcallee : w.context.arena.expr callee = .ok called)
    (hty : w.context.type called.ty = .ok (.function params ret)) :
    w.CallsAs (.call callee) params.length ret callee called where
  answers args hlength := by
    have hrun := Build.call_run hcallee hty args
    rw [if_pos hlength.symm] at hrun
    refine ⟨_, _, step_node rfl hrun, fetch_push_size _ _, ?_⟩
    exact (w.context.precedes_after _).arena.expr hcallee
  refuses args hlength := by
    have hrun := Build.call_run hcallee hty args
    rw [if_neg (Ne.symm hlength)] at hrun
    have hstep : w.step (.ask (.expr (.call callee args))) = (.error _, _) :=
      step_node_error rfl hrun
    rw [hstep]

/-- Calling a declaration is referring to it and then calling that. -/
theorem step_callDecl {callee : ExprId} {cx : Context}
    (h : (Build.reference d).runOn w.context = (.ok callee, cx)) (args : List ExprId) :
    w.step (.ask (.expr (.callDecl d args)))
      = Workspace.step { w with context := cx } (.ask (.expr (.call callee args))) := by
  have hrun : (ExprRequest.callDecl d args).perform.runOn w.context
      = (ExprRequest.call callee args).perform.runOn cx := by
    show (Build.reference d >>= fun callee => Build.call callee args).runOn w.context = _
    rw [Build.runOn_bind, h]
    rfl
  rw [step_ask, step_ask, Request.runOn_expr, Request.runOn_expr, hrun]

/-- How a free function is called, by the declaration `d` that is the function
or a template directly around it. -/
structure CallsFree (w : Workspace) (d : DeclId) (name : NameId) (parms : List DeclId)
    (ret ty : TypeId) : Prop where
  calls : ∃ callee, w.CallsAs (.callDecl d) parms.length ret callee ⟨ty, .function name d⟩
  notMember : ∀ obj, w.step (.ask (.expr (.memberReference obj d)))
    = (.error (w.context.refusal name fun spelled => .notMember spelled .function), w)

/-- How a method is called, by the declaration `d` that is the method or a
template directly around it: as a member of any object, then or later. -/
structure CallsMethod (w : Workspace) (d : DeclId) (name : NameId) (parms : List DeclId)
    (ret ty : TypeId) : Prop where
  calls : ∀ obj, ∃ callee w',
    w.step (.ask (.expr (.memberReference obj d))) = (.ok (.node .expr callee), w') ∧
      ∀ later, (w'.run later).2.CallsAs (.call callee) parms.length ret callee
        ⟨ty, .method obj name d⟩
  notReferable : w.step (.ask (.expr (.reference d)))
    = (.error (w.context.refusal name fun spelled => .notReferable spelled .method), w)

/-- A free function is called by reference to it, and is no member of anything. -/
theorem callsFree_of_signature (h : w.context.Signature f .free name parms params ret ty)
    (hd : w.context.arena.parameterized d = .ok f) : w.CallsFree d name parms ret ty := by
  obtain ⟨body, hstands, hname⟩ := h.standsFor hd
  have hrefers := Build.reference_function hname hstands rfl
  refine ⟨⟨⟨w.context.count .expr⟩, ?_⟩, fun obj => ?_⟩
  · -- the reference is the last expression, and its type is still the function type
    have hcallee : (w.context.after [.expr (.function name d) ty]).arena.expr
        ⟨w.context.count .expr⟩ = .ok ⟨ty, .function name d⟩ := fetch_push_size _ _
    have hty := (w.context.precedes_after [.expr (.function name d) ty]).type h.type
    have hcalls := callsAs_callee (w := ⟨_, w.pending⟩) hcallee hty
    rw [h.length_eq] at hcalls
    constructor
    · intro args hlength
      rw [step_callDecl hrefers]
      exact hcalls.answers args hlength
    · intro args hlength
      rw [step_callDecl hrefers]
      exact hcalls.refuses args hlength
  · exact step_node_error rfl (Build.memberReference_refused hname hstands obj rfl rfl)

/-- A method is called as a member, and is nothing to refer to by itself. -/
theorem callsMethod_of_signature (h : w.context.Signature f .method name parms params ret ty)
    (hd : w.context.arena.parameterized d = .ok f) : w.CallsMethod d name parms ret ty := by
  obtain ⟨body, hstands, hname⟩ := h.standsFor hd
  refine ⟨fun obj => ?_, step_node_error rfl (Build.reference_refused hname hstands rfl rfl)⟩
  refine ⟨_, _, step_node rfl (Build.memberReference_method hname hstands obj rfl), fun later => ?_⟩
  have hcallee : (w.context.after [.expr (.method obj name d) ty]).arena.expr
      ⟨w.context.count .expr⟩ = .ok ⟨ty, .method obj name d⟩ := fetch_push_size _ _
  have hty := (w.context.precedes_after [.expr (.method obj name d) ty]).type h.type
  have hle := run_precedes ⟨w.context.after [.expr (.method obj name d) ty], w.pending⟩ later
  have hcalls := callsAs_callee (hle.arena.expr hcallee) (hle.type hty)
  rwa [h.length_eq] at hcalls

/-- A function that was declared has its signature. -/
theorem signature_of_declared {w' : Workspace} {body : Option FunctionBody}
    (hf : w.step (.ask (.decl (.function flavor name parms ret body)))
      = (.ok (.node .decl f), w')) :
    ∃ params ty, w'.context.Signature f flavor name parms params ret ty := by
  have hatomic : (DeclRequest.perform (.function flavor name parms ret body)).Atomic w.context _ :=
    Build.functionDecl_signature
  rcases hatomic with ⟨failure, hrun⟩ | ⟨f', es, hrun, params, ty, hsignature⟩
  · rw [step_node_error rfl hrun] at hf
    cases hf
  · rw [step_node rfl hrun] at hf
    cases hf
    exact ⟨params, ty, hsignature⟩

/-- The name of a function is spelled where every handle is issued and every
symbol has a spelling. -/
theorem exists_spelling_of_signature (hcx : cx.Whole)
    (h : cx.Signature f flavor name parms params ret ty) :
    ∃ spelled, cx.spell name = .ok spelled := by
  obtain ⟨body, hf⟩ := h.decl
  have hissued : cx.Issued name := (Context.allIssued_cons.mp (hcx.closed.decl hf)).1
  have hfaults : FaultsOnly (fun _ => False) (cx.spell name) := hcx.spell hissued
  exact hfaults.exists_ok

/-- **Calls agree with declarations.**  Whatever handles are passed in a run,
from the moment at which it declares a function the function has the type that
lists the types of its parameters, and asking for that type gives it.  By the
function, or by a template directly around it, a free function is called and a
method is called as a member: with as many arguments as there are parameters
the call has the type of the result, and with any other number it is refused
with both numbers.  Neither is used in the way of the other, and the refusal
spells its name if all handles and symbols that were passed had been issued. -/
theorem calls_agree {config : Config} {digest : List Nat → UInt64} {before : List Command}
    {body : Option FunctionBody} {w : Workspace}
    (hf : (reached config digest before).step
      (.ask (.decl (.function flavor name parms ret body))) = (.ok (.node .decl f), w))
    (after : List Command) :
    ∃ params ty,
      (w.run after).2.context.Signature f flavor name parms params ret ty ∧
      (w.run after).2.step (.ask (.type (.functionOf params ret)))
        = (.ok (.node .type ty), (w.run after).2) ∧
      (∀ d, (w.run after).2.context.arena.parameterized d = .ok f →
        (flavor = .free → (w.run after).2.CallsFree d name parms ret ty) ∧
        (flavor = .method → (w.run after).2.CallsMethod d name parms ret ty)) ∧
      ((start config digest).Proper
          (before ++ .ask (.decl (.function flavor name parms ret body)) :: after) →
        (start config digest).ProperSymbols
            (before ++ .ask (.decl (.function flavor name parms ret body)) :: after) →
          ∃ spelled, (w.run after).2.context.spell name = .ok spelled) := by
  obtain ⟨params, ty, hdeclared⟩ := signature_of_declared hf
  have hsignature := hdeclared.later (w.run_precedes after)
  refine ⟨params, ty, hsignature, step_node rfl (Build.internType_of_type hsignature.type),
    fun d hd => ⟨?_, ?_⟩, fun hproper hsymbols => ?_⟩
  · rintro rfl
    exact callsFree_of_signature hsignature hd
  · rintro rfl
    exact callsMethod_of_signature hsignature hd
  · have hreached : reached config digest
        (before ++ .ask (.decl (.function flavor name parms ret body)) :: after)
          = (w.run after).2 := by
      rw [reached, run_append, ← reached, run_cons, hf]
    have hwhole := whole_reached hproper hsymbols
    rw [hreached] at hwhole
    exact exists_spelling_of_signature hwhole hsignature

/-- A run that declares a parameter. -/
def parameterRun : List Command :=
  [.ask (.name (.identifier "x")), .ask (.type .int), .ask (.decl (.objectParm ⟨1⟩ ⟨3⟩))]

/-- A function of that parameter, called by a template around it. -/
theorem calls_agree_parameterRun :
    ∃ w,
      (reached .standard ConstraintTable.polynomialDigest parameterRun).step
          (.ask (.decl (.function .free ⟨1⟩ [⟨1⟩] .bool none)))
        = (.ok (.node .decl ⟨2⟩), w) ∧
      ∃ params ty,
        (w.run [.ask (.decl (.template [] ⟨2⟩))]).2.context.Signature ⟨2⟩ .free ⟨1⟩ [⟨1⟩] params
          .bool ty ∧
        (w.run [.ask (.decl (.template [] ⟨2⟩))]).2.CallsFree ⟨3⟩ ⟨1⟩ [⟨1⟩] .bool ty ∧
        ∃ spelled, (w.run [.ask (.decl (.template [] ⟨2⟩))]).2.context.spell ⟨1⟩ = .ok spelled := by
  have hf : (reached .standard ConstraintTable.polynomialDigest parameterRun).step
      (.ask (.decl (.function .free ⟨1⟩ [⟨1⟩] .bool none))) = (.ok (.node .decl ⟨2⟩), _) :=
    Prod.ext rfl rfl
  obtain ⟨params, ty, hsignature, _, hcalls, hspelled⟩ :=
    calls_agree hf [.ask (.decl (.template [] ⟨2⟩))]
  exact ⟨_, hf, params, ty, hsignature, (hcalls ⟨3⟩ rfl).1 rfl,
    hspelled (by decide +kernel) (by decide +kernel)⟩

end Workspace

end TermGraph
