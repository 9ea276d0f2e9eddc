import TermGraph.Proofs.Bounds.Runs
import TermGraph.Proofs.Constraint.Canonical
import TermGraph.Proofs.Expr.Concurrence
import TermGraph.Proofs.Frame

/-!
# Building is congruent

Two requests are alike when they ask for the same construction with operands
that are alike (`ExprRequest.Alike`).  Asked one after the other, with anything
in between, such requests come out alike: both are refused in the same way, or
both are answered, by two expressions that are not the same but alike
(`Workspace.Agrees`).  Of operations and calls the converse holds as well, since
what they store is what they were asked for (`ExprRequest.operation?`).

So an expression may be rebuilt around another operand that is alike.  What has
become of a node by replacing a subexpression, any number of levels in, is alike
the node (`Context.Readable.alike_of_replaced`), and interning cannot tell
constraints apart in which that was done.
-/

namespace TermGraph

open List

/-! ## Requests that are alike -/

/-- Whether the request has no operands that are compared by their structure. -/
def ExprRequest.isLeaf : ExprRequest → Bool
  | .boolean _ | .integer _ _ | .int _ | .uint _ | .reference _ | .synthesized _
  | .trivialInit _ => true
  | _ => false

/-- Two requests for one construction, with operands that are alike and
everything else equal. -/
inductive ExprRequest.Alike (a : Arena) : ExprRequest → ExprRequest → Prop
  | leaf {r : ExprRequest} (h : r.isLeaf = true) : Alike a r r
  | memberReference {x y : ExprId} {d : DeclId} (h : a.Alike (.expr x) (.expr y)) :
    Alike a (.memberReference x d) (.memberReference y d)
  | check {c : DeclId} {ss ts : List Term} (h : Forall₂ a.TermsAlike ss ts) :
    Alike a (.check c ss) (.check c ts)
  | unary {op : UnaryOp} {x y : ExprId} (h : a.Alike (.expr x) (.expr y)) :
    Alike a (.unary op x) (.unary op y)
  | binary {op : BinaryOp} {x₁ x₂ y₁ y₂ : ExprId} (hlhs : a.Alike (.expr x₁) (.expr y₁))
    (hrhs : a.Alike (.expr x₂) (.expr y₂)) : Alike a (.binary op x₁ x₂) (.binary op y₁ y₂)
  | call {x y : ExprId} {xs ys : List ExprId} (h : a.Alike (.expr x) (.expr y))
    (hargs : Forall₂ (fun x y => a.Alike (.expr x) (.expr y)) xs ys) :
    Alike a (.call x xs) (.call y ys)
  | callDecl {d : DeclId} {xs ys : List ExprId}
    (h : Forall₂ (fun x y => a.Alike (.expr x) (.expr y)) xs ys) :
    Alike a (.callDecl d xs) (.callDecl d ys)
  | requires {tparms parms : List DeclId} {rs ss : List ReqId}
    (h : Forall₂ (fun r s => a.Alike (.req r) (.req s)) rs ss) :
    Alike a (.requires tparms parms rs) (.requires tparms parms ss)
  | copyInit {ty : TypeId} {x y : ExprId} (h : a.Alike (.expr x) (.expr y)) :
    Alike a (.copyInit ty x) (.copyInit ty y)
  | bindInit {ty : TypeId} {x y : ExprId} (h : a.Alike (.expr x) (.expr y)) :
    Alike a (.bindInit ty x) (.bindInit ty y)
  | directInit {ty : TypeId} {ctor : DeclId} {xs ys : List ExprId}
    (h : Forall₂ (fun x y => a.Alike (.expr x) (.expr y)) xs ys) :
    Alike a (.directInit ty ctor xs) (.directInit ty ctor ys)
  | aggregateInit {ty : TypeId} {xs ys : List ExprId}
    (h : Forall₂ (fun x y => a.Alike (.expr x) (.expr y)) xs ys) :
    Alike a (.aggregateInit ty xs) (.aggregateInit ty ys)

namespace ExprRequest

open Build Context

variable {cx cx' : Context} {r r' : ExprRequest} {kind kind' : ExprKind}

/-- **Requests that are alike concur**, and what they store are twins. -/
theorem Alike.concur (h : r.Alike cx'.arena r') (hcx : cx.Whole) (hcx' : cx'.Whole)
    (hle : cx.Precedes cx') (hissued : cx.AllIssued r.handles) :
    Concur r.perform r'.perform cx cx' Twins := by
  cases h with
  | leaf h =>
    cases r with
    | boolean | integer | trivialInit => exact pushExpr_concurs (by simp [ExprKind.pieces])
    | int | uint =>
      exact pushExpr_after_concurs (.of_repeats plainInteger_repeats hle plainInteger_sure)
        (Atomic.sure plainInteger_sure).precedes (by simp [ExprKind.pieces])
    | reference d => exact reference_concurs hcx hle (allIssued_cons.mp hissued).1
    | synthesized d => exact synthesized_concurs hcx hle (allIssued_cons.mp hissued).1
    | _ => cases h
  | memberReference h =>
    simp only [handles, allIssued_cons] at hissued
    exact memberReference_concurs hcx hle hissued.2.1 h
  | check h => exact check_concurs hcx hle (allIssued_cons.mp hissued).1 h
  | unary h => exact unary_concurs hcx hle (allIssued_cons.mp hissued).1 h
  | binary hlhs hrhs => exact binary_concurs hcx hle (allIssued_cons.mp hissued).1 hlhs hrhs
  | call h hargs => exact call_concurs hcx hle (allIssued_cons.mp hissued).1 h hargs
  | callDecl h => exact callDecl_concurs hcx hcx' hle (allIssued_cons.mp hissued).1 h
  | requires h | copyInit h | bindInit h | directInit h | aggregateInit h =>
    exact pushExpr_concurs (by simp [ExprKind.pieces, h])

end ExprRequest

/-! ## Operations and calls, backwards -/

namespace Build

variable {α : Type} {cx : Context} {kind : ExprKind}

/-- If the construction answers, then by an expression of the structure. -/
def Stores (b : Build ExprId) (cx : Context) (kind : ExprKind) : Prop :=
  ∀ e, (b.runOn cx).1 = .ok e → ∃ ty, (b.runOn cx).2.arena.expr e = .ok ⟨ty, kind⟩

namespace Stores

theorem throw {failure : Failure} : Stores (MonadExcept.throw failure) cx kind := nofun

/-- An expression that was just stored is read. -/
theorem pushExpr {ty : TypeId} : Stores (Build.pushExpr kind ty) cx kind := by
  intro e h
  cases h
  exact ⟨ty, fetch_push_size _ _⟩

/-- Reading first changes nothing about what is stored. -/
theorem read_bind {look : Context → Except Fault α} {f : α → Build ExprId}
    (h : ∀ x, Stores (f x) cx kind) : Stores (Build.read look >>= f) cx kind := by
  intro e he
  cases hlook : look cx with
  | error fault =>
    rw [runOn_bind, runOn_read, hlook] at he
    cases he
  | ok x =>
    rw [runOn_read_bind hlook] at he ⊢
    exact h x e he

end Stores

/-- A unary expression is stored as it was asked for. -/
theorem unary_stores {op : UnaryOp} {x : ExprId} : Stores (unary op x) cx (.unary op x) := by
  cases op with
  | not => exact .pushExpr
  | neg | pos | bitNot => exact .read_bind fun _ => .pushExpr

/-- A binary expression is stored as it was asked for. -/
theorem binary_stores {op : BinaryOp} {x y : ExprId} :
    Stores (binary op x y) cx (.binary op x y) := by
  unfold binary
  split
  · exact .pushExpr
  · exact .read_bind fun _ => .pushExpr

/-- A call is stored as it was asked for, if the callee takes so many
arguments. -/
theorem call_stores {callee : ExprId} {args : List ExprId} :
    Stores (call callee args) cx (.call callee args) := by
  refine .read_bind fun _ => .read_bind fun kind => ?_
  split
  · split
    · exact .pushExpr
    · exact .throw
  · exact .throw

end Build

namespace ExprRequest

open Build Context

variable {cx : Context} {r r' : ExprRequest} {kind kind' : ExprKind}

/-- The structure of the operation or call that is asked for. -/
def operation? : ExprRequest → Option ExprKind
  | .unary op x => some (.unary op x)
  | .binary op x y => some (.binary op x y)
  | .call callee args => some (.call callee args)
  | _ => none

/-- Operations and calls are stored as they are asked for. -/
theorem perform_stores (hkind : r.operation? = some kind) : Stores r.perform cx kind := by
  cases r with
  | unary op x =>
    cases hkind
    exact unary_stores
  | binary op x y =>
    cases hkind
    exact binary_stores
  | call callee args =>
    cases hkind
    exact call_stores
  | _ => cases hkind

/-- What is asked for is made of handles in the request. -/
theorem handles_of_operation? (hkind : r.operation? = some kind) : kind.handles = r.handles := by
  cases r <;> cases hkind <;> rfl

/-- Operations and calls are alike when their layouts match. -/
theorem alike_of_match {a : Arena} (hkind : r.operation? = some kind)
    (hkind' : r'.operation? = some kind')
    (h : Forall₂ (Piece.Match a.Alike) kind.pieces kind'.pieces) : r.Alike a r' := by
  cases r <;> cases hkind <;> cases r' <;> cases hkind'
  case unary.refl.unary.refl op x op' y =>
    simp only [ExprKind.pieces, forall₂_cons, Piece.match_word_word, Piece.match_part_part,
      UnaryOp.toNat_inj] at h
    obtain ⟨_, rfl, halike, _⟩ := h
    exact .unary halike
  case binary.refl.binary.refl op x₁ x₂ op' y₁ y₂ =>
    simp only [ExprKind.pieces, forall₂_cons, Piece.match_word_word, Piece.match_part_part,
      BinaryOp.toNat_inj] at h
    obtain ⟨_, rfl, hlhs, hrhs, _⟩ := h
    exact .binary hlhs hrhs
  case call.refl.call.refl callee args callee' args' =>
    simp only [ExprKind.pieces, forall₂_cons, Piece.match_word_word, Piece.match_part_part,
      Piece.match_exprs] at h
    obtain ⟨_, hcallee, hargs⟩ := h
    exact .call hcallee hargs
  all_goals simp [ExprKind.pieces] at h

end ExprRequest

/-! ## Replacing subexpressions -/

/-- `q` is what becomes of `p` when, at most `depth` levels in, the expression
`x` is replaced by `y` anywhere. -/
def Arena.Replaced (a : Arena) (x y : ExprId) : Nat → Part → Part → Prop
  | 0, p, q => p = q
  | depth + 1, p, q => p = q ∨ (p = .expr x ∧ q = .expr y) ∨
    (p.category = q.category ∧ ∃ ps qs, a.pieces p = .ok ps ∧ a.pieces q = .ok qs ∧
      Forall₂ (Piece.Match (a.Replaced x y depth)) ps qs)

/-- **Replacing keeps alike.**  What becomes of a node when a subexpression is
replaced by one that is alike, is alike the node. -/
theorem Context.Readable.alike_of_replaced {cx : Context} (hcx : cx.Readable) {x y : ExprId}
    (hxy : cx.arena.Alike (.expr x) (.expr y)) {depth : Nat} {p q : Part} {u : List Nat}
    (hp : cx.arena.partWords p = .ok u) (h : cx.arena.Replaced x y depth p q) :
    cx.arena.Alike p q := by
  have hsame {p : Part} {u : List Nat} (hp : cx.arena.partWords p = .ok u) : cx.arena.Alike p p :=
    (Arena.alike_iff_of_words hp hp).mpr ⟨rfl, rfl⟩
  induction depth generalizing p q u with
  | zero =>
    obtain rfl : p = q := h
    exact hsame hp
  | succ depth ih =>
    rcases h with rfl | ⟨rfl, rfl⟩ | ⟨hcat, ps, qs, hps, hqs, hmatch⟩
    · exact hsame hp
    · exact hxy
    · -- Parts in which something was replaced are alike, so the nodes are.
      rw [hcx.alike_iff_pieces hcat hps hqs]
      refine Piece.match_mono (fun r s hr _ hrs => ?_) hmatch
      obtain ⟨v, hv⟩ := Piece.opened_of_spread (Arena.spread_partWords hps hp) hr
      exact ih hv hrs

/-- Constraints in which such replacements were made have the same words. -/
theorem Context.Readable.words_of_replaced {cx : Context} (hcx : cx.Readable) {x y : ExprId}
    (hxy : cx.arena.Alike (.expr x) (.expr y)) {depth : Nat} {j k : ConstraintKind}
    {u v : List Nat} (hu : cx.arena.constraintWords j = .ok u)
    (hv : cx.arena.constraintWords k = .ok v)
    (h : Forall₂ (Piece.Match (cx.arena.Replaced x y depth)) j.pieces k.pieces) : u = v := by
  have hmatch : Forall₂ (Piece.Match (SameWords cx.arena.partWords)) j.pieces k.pieces := by
    refine Piece.match_mono (fun r s hr hs hrs => ?_) h
    obtain ⟨_, hrWords⟩ := Piece.opened_of_spread hu hr
    obtain ⟨_, hsWords⟩ := Piece.opened_of_spread hv hs
    exact (Arena.alike_iff_of_words hrWords hsWords).mp (hcx.alike_of_replaced hxy hrWords hrs)
  exact Except.ok.inj (hu.symm.trans ((Piece.spread_eq_of_match hmatch).trans hv))

/-! ## Runs -/

namespace Workspace

open Build Context

/-- How two requests for expressions come out, each asked in its own state: they
are refused in the same way, or they are answered by two expressions that are
not the same but alike once both are there. -/
inductive Agrees (w w' : Workspace) (r r' : ExprRequest) : Prop
  | refused (failure : Failure) (h : (w.step (.ask (.expr r))).1 = .error failure)
    (h' : (w'.step (.ask (.expr r'))).1 = .error failure)
  | answered (e e' : ExprId) (h : (w.step (.ask (.expr r))).1 = .ok (.node .expr e))
    (h' : (w'.step (.ask (.expr r'))).1 = .ok (.node .expr e')) (hne : e ≠ e')
    (halike : (w'.step (.ask (.expr r'))).2.context.arena.Alike (.expr e) (.expr e'))

/-- How a request for an expression is carried out. -/
theorem step_expr (w : Workspace) (r : ExprRequest) :
    w.step (.ask (.expr r)) = ((r.perform.runOn w.context).1.map (Answer.node .expr),
      { w with context := (r.perform.runOn w.context).2 }) := by
  rw [step_ask, Request.runOn_expr]

variable {w w' : Workspace} {r r' : ExprRequest}

/-- An expression that is asked for is none that was there. -/
theorem le_of_step_expr {e : ExprId} (h : (w.step (.ask (.expr r))).1 = .ok (.node .expr e)) :
    w.context.count .expr ≤ e.index := by
  obtain ⟨id, hid, hindex, _⟩ := (w.frame (.ask (.expr r))).made .expr rfl _ h
  cases hid
  omega

/-- An operation or a call that is answered has been stored as it was asked
for. -/
theorem stored_of_step_expr {kind : ExprKind} (hkind : r.operation? = some kind) {e : ExprId}
    (h : (w.step (.ask (.expr r))).1 = .ok (.node .expr e)) :
    ∃ ty, (w.step (.ask (.expr r))).2.context.arena.expr e = .ok ⟨ty, kind⟩ := by
  rw [step_expr] at h ⊢
  refine ExprRequest.perform_stores hkind e ?_
  cases hrun : (r.perform.runOn w.context).1 with
  | error failure =>
    rw [hrun] at h
    cases h
  | ok x =>
    rw [hrun] at h
    cases h
    rfl

/-- **Requests that are alike agree**, the second one asked when the first is
done. -/
theorem agrees_of_alike (halike : r.Alike w'.context.arena r') (hw : w.context.Whole)
    (hw' : w'.context.Whole) (hle : (w.step (.ask (.expr r))).2.context.Precedes w'.context)
    (hissued : w.context.AllIssued r.handles)
    (hreadable : (w'.step (.ask (.expr r'))).2.context.Readable) : w.Agrees w' r r' := by
  have hlater := w'.step_precedes (.ask (.expr r'))
  have hcx := (w.step_precedes (.ask (.expr r))).trans hle
  have hagree : Agree Twins (r.perform.runOn w.context) (r'.perform.runOn w'.context) :=
    halike.concur hw hw' hcx hissued (by rwa [step_expr] at hle)
  rcases hrun : r.perform.runOn w.context with ⟨failure | e, cy⟩ <;>
    rcases hrun' : r'.perform.runOn w'.context with ⟨failure' | e', cy'⟩ <;>
    rw [hrun, hrun'] at hagree
  case error.error =>
    obtain rfl : failure = failure' := hagree
    exact .refused failure (by rw [step_expr, hrun]; rfl) (by rw [step_expr, hrun']; rfl)
  case ok.ok =>
    have hanswer : (w.step (.ask (.expr r))).1 = .ok (.node .expr e) := by
      rw [step_expr, hrun]
      rfl
    have hanswer' : (w'.step (.ask (.expr r'))).1 = .ok (.node .expr e') := by
      rw [step_expr, hrun']
      rfl
    rw [step_expr, hrun] at hle
    rw [step_expr, hrun'] at hreadable hlater
    -- The first was there when the second was asked for, and the second is new.
    have hne : e ≠ e' := by
      obtain ⟨x, _, hx, _⟩ := hagree
      have hthere : w'.context.Issued e := (show cy.Issued e from lt_of_fetch hx).later hle
      rintro rfl
      exact Nat.not_lt_of_le (le_of_step_expr hanswer') hthere
    refine .answered e e' hanswer hanswer' hne ?_
    rw [step_expr, hrun']
    exact hagree.alike (hle.trans hlater) hreadable
  all_goals exact hagree.elim

/-- **Operations that come out alike were asked for alike.** -/
theorem alike_of_answers (hr : r.operation?.isSome) (hr' : r'.operation?.isSome)
    (hw' : w'.context.Readable) (hle : (w.step (.ask (.expr r))).2.context.Precedes w'.context)
    (hissued : w.context.AllIssued r.handles) (hissued' : w'.context.AllIssued r'.handles)
    (hreadable : (w'.step (.ask (.expr r'))).2.context.Readable) {e e' : ExprId}
    (h : (w.step (.ask (.expr r))).1 = .ok (.node .expr e))
    (h' : (w'.step (.ask (.expr r'))).1 = .ok (.node .expr e'))
    (halike : (w'.step (.ask (.expr r'))).2.context.arena.Alike (.expr e) (.expr e')) :
    r.Alike w'.context.arena r' := by
  obtain ⟨kind, hkind⟩ := Option.isSome_iff_exists.mp hr
  obtain ⟨kind', hkind'⟩ := Option.isSome_iff_exists.mp hr'
  obtain ⟨ty, hstored⟩ := stored_of_step_expr hkind h
  obtain ⟨ty', hstored'⟩ := stored_of_step_expr hkind' h'
  have hlater := w'.step_precedes (.ask (.expr r'))
  have hcx := (w.step_precedes (.ask (.expr r))).trans hle
  -- The layouts match in the end, and so they do when the second one is asked for.
  obtain ⟨_, hmatch⟩ := (hreadable.alike_iff_exprs
    ((hle.trans hlater).arena.expr hstored) hstored').mp halike
  refine ExprRequest.alike_of_match hkind hkind' ((Piece.match_congr fun p q hp hq => ?_).mp hmatch)
  have hpIssued : w'.context.Issued p.any.2 := by
    refine (hissued.later hcx) _ ?_
    rw [← ExprRequest.handles_of_operation? hkind]
    exact ExprKind.any_mem_handles (kind.mem_parts.mpr hp)
  have hqIssued : w'.context.Issued q.any.2 := by
    refine hissued' _ ?_
    rw [← ExprRequest.handles_of_operation? hkind']
    exact ExprKind.any_mem_handles (kind'.mem_parts.mpr hq)
  exact hw'.alike_later_iff hlater.arena hpIssued hqIssued

/-- **Construction is congruent.**  Let two requests be asked in one proper run,
one after the other.  (1) If they are for expressions and alike when the second
one is asked, they are refused in the same way or answered by two expressions,
not the same but alike.  (2) If they are for operations or calls and answered by
expressions that are alike, they were alike.  (3) If they are for constraints,
and one becomes the other by replacing subexpressions, however deep, by one that
is alike, they are answered by one handle.

Only in (1) do the symbols that were passed need spellings: a refusal may spell
the name of a declaration. -/
theorem construction_congruent (config : Config) (digest : List Nat → UInt64)
    (before between : List Command) (r r' : Request)
    (h : (start config digest).Proper (before ++ .ask r :: between ++ [.ask r'])) :
    ((start config digest).ProperSymbols (before ++ .ask r :: between) →
      ∀ q q', r = .expr q → r' = .expr q' →
      q.Alike (reached config digest (before ++ .ask r :: between)).context.arena q' →
      (reached config digest before).Agrees (reached config digest (before ++ .ask r :: between))
        q q') ∧
    (∀ q q' e e', r = .expr q → r' = .expr q' → q.operation?.isSome → q'.operation?.isSome →
      ((reached config digest before).step (.ask r)).1 = .ok (.node .expr e) →
      ((reached config digest (before ++ .ask r :: between)).step (.ask r')).1
        = .ok (.node .expr e') →
      (reached config digest (before ++ .ask r :: between ++ [.ask r'])).context.arena.Alike
        (.expr e) (.expr e') →
      q.Alike (reached config digest (before ++ .ask r :: between)).context.arena q') ∧
    (∀ j k x y depth, r = .constraint j → r' = .constraint k →
      (reached config digest (before ++ .ask r :: between)).context.arena.Alike
        (.expr x) (.expr y) →
      Forall₂ (Piece.Match
        ((reached config digest (before ++ .ask r :: between)).context.arena.Replaced x y depth))
        j.pieces k.pieces →
      ∃ c, (reached config digest before).Interns j c ∧
        (reached config digest (before ++ .ask r :: between)).Interns k c) := by
  obtain ⟨hsplit, hissued', _⟩ := proper_append.mp h
  obtain ⟨hbefore, hissued, _⟩ := proper_append.mp hsplit
  have hbetween := step_precedes_reached hsplit
  have hlast : reached config digest (before ++ .ask r :: between ++ [.ask r']) =
      ((reached config digest (before ++ .ask r :: between)).step (.ask r')).2 := by
    rw [reached, run_append]
    rfl
  have hsecond := (orderly_reached hsplit).readable
  have hreadable := (orderly_reached h).readable
  rw [hlast] at hreadable
  refine ⟨?_, ?_, ?_⟩
  · rintro hsymbols q q' rfl rfl halike
    have hwhole := whole_reached hbefore (properSymbols_append.mp hsymbols).1
    exact agrees_of_alike halike hwhole (whole_reached hsplit hsymbols) hbetween hissued hreadable
  · rintro q q' e e' rfl rfl hq hq' he he' halike
    rw [hlast] at halike
    exact alike_of_answers hq hq' hsecond hbetween hissued hissued' hreadable he he' halike
  · rintro j k x y depth rfl rfl hxy hreplaced
    obtain ⟨c, d, u, v, hc, hd, hu, hv, hsame⟩ := interns_by_words h
    obtain rfl := hsame.mpr (hsecond.words_of_replaced hxy hu hv hreplaced)
    exact ⟨c, hc, hd⟩

/-- Commands that compare a literal with itself, and then a second writing of the
literal with the first. -/
def comparisonsRun : List Command :=
  [.ask (.expr (.int 3)), .ask (.expr (.binary .eq ⟨0⟩ ⟨0⟩)), .ask (.expr (.int 3)),
    .ask (.expr (.binary .eq ⟨2⟩ ⟨0⟩))]

/-- The comparisons agree, were asked for alike, and make one constraint. -/
theorem construction_congruent_comparisonsRun :
    (start .standard ConstraintTable.polynomialDigest).Proper
        (comparisonsRun ++ .ask (.constraint (.predicate ⟨1⟩)) :: [] ++
          [.ask (.constraint (.predicate ⟨3⟩))]) ∧
      (start .standard ConstraintTable.polynomialDigest).ProperSymbols (comparisonsRun.take 3) ∧
      (reached .standard ConstraintTable.polynomialDigest (comparisonsRun.take 1)).Agrees
        (reached .standard ConstraintTable.polynomialDigest (comparisonsRun.take 3))
        (.binary .eq ⟨0⟩ ⟨0⟩) (.binary .eq ⟨2⟩ ⟨0⟩) ∧
      ExprRequest.Alike
        (reached .standard ConstraintTable.polynomialDigest (comparisonsRun.take 3)).context.arena
        (.binary .eq ⟨0⟩ ⟨0⟩) (.binary .eq ⟨2⟩ ⟨0⟩) ∧
      ∃ c,
        (reached .standard ConstraintTable.polynomialDigest comparisonsRun).Interns
          (.predicate ⟨1⟩) c ∧
        (reached .standard ConstraintTable.polynomialDigest
          (comparisonsRun ++ [.ask (.constraint (.predicate ⟨1⟩))])).Interns
          (.predicate ⟨3⟩) c := by
  have hproper : (start .standard ConstraintTable.polynomialDigest).Proper
      (comparisonsRun ++ .ask (.constraint (.predicate ⟨1⟩)) :: [] ++
        [.ask (.constraint (.predicate ⟨3⟩))]) := by decide +kernel
  have hbuilt : (start .standard ConstraintTable.polynomialDigest).Proper
      (comparisonsRun.take 1 ++ .ask (.expr (.binary .eq ⟨0⟩ ⟨0⟩)) :: [.ask (.expr (.int 3))] ++
        [.ask (.expr (.binary .eq ⟨2⟩ ⟨0⟩))]) := by decide +kernel
  have hsymbols : (start .standard ConstraintTable.polynomialDigest).ProperSymbols
      (comparisonsRun.take 3) := by decide +kernel
  obtain ⟨hagrees, hback, _⟩ := construction_congruent _ _ _ _ _ _ hbuilt
  obtain ⟨_, _, hinterns⟩ := construction_congruent _ _ _ _ _ _ hproper
  refine ⟨hproper, hsymbols, ?_, ?_, ?_⟩
  · exact hagrees hsymbols _ _ rfl rfl (.binary rfl rfl)
  · exact hback _ _ ⟨1⟩ ⟨3⟩ rfl rfl rfl rfl rfl rfl rfl
  · refine hinterns _ _ ⟨0⟩ ⟨2⟩ 2 rfl rfl rfl ?_
    -- the predicates differ in the first operand of what is compared
    refine .cons rfl (.cons (.inr (.inr ⟨rfl, _, _, rfl, rfl, ?_⟩)) .nil)
    exact .cons rfl (.cons rfl (.cons rfl (.cons (.inr (.inl ⟨rfl, rfl⟩)) (.cons (.inl rfl) .nil))))

end Workspace

end TermGraph
