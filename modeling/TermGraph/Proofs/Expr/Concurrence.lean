import TermGraph.Proofs.Bounds.Requests
import TermGraph.Proofs.Expr.Unfolding
import TermGraph.Proofs.Outcome.Requests

/-!
# Carried out again later

A construction is carried out, and some time later another one.  The two
*concur* when they fail in the same way or both answer, and the answers are
related (`Build.Concur`).  Nothing is asked of what happens in between, except
that it only adds: the second one starts from a context that has everything the
first one left.

The rules are those of a logic for pairs of constructions.  Two readings concur
when what is read first is read again, which takes two facts: in a whole context
reading by issued handles does not fault, and what was read stays true.

Two expressions that are stored in this way are *twins* when they are of one
type and their layouts match by what is alike (`Context.Twins`), and twins are
alike.  There is one lemma for each construction of expressions: from operands
that are alike come twins.  The operands have a part in it twice, through their
types, on which it depends what is built and whether it is refused, and as what
the new nodes are made of.
-/

namespace TermGraph

open List

/-! ## What was read is read again -/

namespace Context

variable {cx cx' : Context}

/-- What was spelled is spelled the same later, and through more names. -/
theorem Precedes.spellWithin (hle : cx.Precedes cx') {m n : Nat} (hmn : m ≤ n) {name : NameId}
    {s : String} (h : cx.spellWithin m name = .ok s) : cx'.spellWithin n name = .ok s := by
  induction n generalizing m name s with
  | zero =>
    obtain rfl := Nat.le_zero.mp hmn
    cases h
  | succ n ih =>
    cases m with
    | zero => cases h
    | succ m =>
      have hinner {inner : NameId} {t : String} : cx.spellWithin m inner = .ok t →
          cx'.spellWithin n inner = .ok t := ih (Nat.le_of_succ_le_succ hmn)
      obtain ⟨kind, hkind, h⟩ := bind_eq_ok.mp h
      refine bind_eq_ok.mpr ⟨kind, fetch_later hle.arena.names hkind, ?_⟩
      cases kind with
      | simple sym => exact fetch_later hle.spellings h
      | placeholder | operator | destructor | global => exact h
      | template d args | concept d args =>
        obtain ⟨base, hbase, h⟩ := bind_eq_ok.mp h
        obtain ⟨t, ht, h⟩ := bind_eq_ok.mp h
        exact bind_eq_ok.mpr ⟨base, hle.arena.declName hbase, bind_eq_ok.mpr ⟨t, hinner ht, h⟩⟩
      | qualified scope name =>
        obtain ⟨t, ht, h⟩ := bind_eq_ok.mp h
        refine bind_eq_ok.mpr ⟨t, hinner ht, ?_⟩
        by_cases hscope : scope = .globalNamespace
        · rwa [if_pos hscope] at h ⊢
        · rw [if_neg hscope] at h ⊢
          obtain ⟨outer, houter, h⟩ := bind_eq_ok.mp h
          obtain ⟨u, hu, h⟩ := bind_eq_ok.mp h
          exact bind_eq_ok.mpr
            ⟨outer, hle.arena.declName houter, bind_eq_ok.mpr ⟨u, hinner hu, h⟩⟩

/-- How a name is spelled stays. -/
theorem Precedes.spell (hle : cx.Precedes cx') {name : NameId} {s : String}
    (h : cx.spell name = .ok s) : cx'.spell name = .ok s := by
  have hnames := hle.arena.names.length_le
  simp only [Array.length_toList] at hnames
  exact hle.spellWithin (Nat.succ_le_succ hnames) h

/-- The value types of expressions that are alike are one, now and later. -/
theorem Precedes.valueTypeOf (hle : cx.Precedes cx') {x y : ExprId}
    (halike : cx'.arena.Alike (.expr x) (.expr y)) {ty : TypeId} (h : cx.valueTypeOf x = .ok ty) :
    cx'.valueTypeOf y = .ok ty := by
  obtain ⟨held, hheld, h⟩ := bind_eq_ok.mp h
  obtain ⟨found, hfound, rfl⟩ := map_eq_ok.mp hheld
  have hlater : cx'.arena.exprType x = .ok found.ty :=
    map_eq_ok.mpr ⟨found, hle.arena.expr hfound, rfl⟩
  refine bind_eq_ok.mpr ⟨found.ty, halike.exprType_eq ▸ hlater, ?_⟩
  obtain ⟨kind, hkind, h⟩ := bind_eq_ok.mp h
  refine bind_eq_ok.mpr ⟨kind, hle.type hkind, ?_⟩
  have hsplit : ∀ stripped, (do return (← cx.splitQualifiers stripped).1 : Except Fault TypeId)
      = .ok ty → (do return (← cx'.splitQualifiers stripped).1 : Except Fault TypeId) = .ok ty := by
    intro stripped hread
    obtain ⟨parts, hparts, hread⟩ := bind_eq_ok.mp hread
    exact bind_eq_ok.mpr ⟨parts, hle.splitQualifiers hparts, hread⟩
  split at h
  · exact hsplit _ h
  · exact hsplit _ h

end Context

namespace Build

variable {α β : Type} {cx cx' : Context}

/-! ## Contexts afterwards -/

/-- Atomic constructions lead to later states. -/
theorem Atomic.precedes {b : Build α} {post : α → List Effect → Prop} (h : b.Atomic cx post) :
    cx.Precedes (b.runOn cx).2 := by
  rcases h with ⟨failure, hrun⟩ | ⟨x, es, hrun, _⟩
  · rw [hrun]
    exact .refl cx
  · rw [hrun]
    exact cx.precedes_after es

/-- A safe and steady construction leaves the context whole. -/
theorem Steady.whole {b : Build α} {post : α → Context → Prop} (hb : Steady b cx)
    (hsafe : Safe b cx post) (hcx : cx.Whole) : (b.runOn cx).2.Whole :=
  hcx.grows (hsafe hcx.closed).1 (hb hcx).spelled

/-! ## The relation -/

/-- Two constructions have both failed, in the same way, or both answered, and
then the postcondition holds of the answers and the contexts left. -/
def Agree (post : α → Context → α → Context → Prop) :
    Except Failure α × Context → Except Failure α × Context → Prop
  | (.error failure, _), (.error failure', _) => failure = failure'
  | (.ok x, cx), (.ok x', cx') => post x cx x' cx'
  | _, _ => False

/-- Carried out one after the other, the constructions agree. -/
def Concur (b b' : Build α) (cx cx' : Context) (post : α → Context → α → Context → Prop) : Prop :=
  (b.runOn cx).2.Precedes cx' → Agree post (b.runOn cx) (b'.runOn cx')

/-- One answer, whatever has become of the contexts. -/
def SameAnswer (x : α) (_ : Context) (x' : α) (_ : Context) : Prop := x = x'

namespace Concur

variable {post : α → Context → α → Context → Prop} {post₂ : β → Context → β → Context → Prop}

/-- Two answers given at once agree when the postcondition holds of them. -/
theorem pure {x x' : α} (h : post x cx x' cx') :
    Concur (Pure.pure x) (Pure.pure x') cx cx' post :=
  fun _ => h

theorem throw {failure : Failure} :
    Concur (MonadExcept.throw failure) (MonadExcept.throw failure) cx cx' post :=
  fun _ => rfl

/-- Reading first what later goes on in the same way. -/
theorem read_bind {look look' : Context → Except Fault α} {f f' : α → Build β}
    (hlook : FaultsOnly (fun _ => False) (look cx))
    (hlater : ∀ x, look cx = .ok x → ∃ x', look' cx' = .ok x' ∧ f' x' = f' x)
    (h : ∀ x, look cx = .ok x → Concur (f x) (f' x) cx cx' post₂) :
    Concur (Build.read look >>= f) (Build.read look' >>= f') cx cx' post₂ := by
  obtain ⟨x, hx⟩ := hlook.exists_ok
  obtain ⟨x', hx', hf'⟩ := hlater x hx
  unfold Concur
  rw [runOn_read_bind hx, runOn_read_bind hx', hf']
  exact h x hx

/-- Reading first what stays as it is. -/
theorem read_bind_same {look look' : Context → Except Fault α} {f f' : α → Build β}
    (hlook : FaultsOnly (fun _ => False) (look cx))
    (hlater : ∀ x, look cx = .ok x → look' cx' = .ok x)
    (h : ∀ x, look cx = .ok x → Concur (f x) (f' x) cx cx' post₂) :
    Concur (Build.read look >>= f) (Build.read look' >>= f') cx cx' post₂ :=
  .read_bind hlook (fun x hx => ⟨x, hlater x hx, rfl⟩) h

/-- Reading a declaration first, when its definition makes no difference. -/
theorem decl_bind {d : DeclId} {f f' : DeclKind → Build β} (hd : cx.Issued d)
    (hle : cx.Precedes cx') (hsame : ∀ kind, f' kind.header = f' kind)
    (h : ∀ kind, cx.arena.decl d = .ok kind → Concur (f kind) (f' kind) cx cx' post₂) :
    Concur (Build.decl d >>= f) (Build.decl d >>= f') cx cx' post₂ := by
  refine .read_bind (.fetch hd) (fun kind hkind => ?_) h
  obtain ⟨kind', hkind', hheader⟩ := hle.arena.decl hkind
  exact ⟨kind', hkind', DeclKind.congr_header hsame hheader⟩

/-- Two in a row.  What comes second starts from where the first has led, on
either side. -/
theorem bind {b b' : Build α} {f f' : α → Build β} (hb : Concur b b' cx cx' post)
    (hgrows : ∀ x cy, b.runOn cx = (.ok x, cy) → cy.Precedes ((f x).runOn cy).2)
    (h : ∀ x cy x' cy', b.runOn cx = (.ok x, cy) → b'.runOn cx' = (.ok x', cy') →
      cy.Precedes cx' → post x cy x' cy' → Concur (f x) (f' x') cy cy' post₂)
    (hgrows' : cx'.Precedes (b'.runOn cx').2) :
    Concur (b >>= f) (b' >>= f') cx cx' post₂ := by
  intro hle
  rw [runOn_bind] at hle ⊢
  rw [runOn_bind]
  rcases hrun : b.runOn cx with ⟨failure | x, cy⟩
  · rw [hrun] at hle
    have hagree := hb (by rwa [hrun])
    rcases hrun' : b'.runOn cx' with ⟨failure' | x', cy'⟩
    · rwa [hrun, hrun'] at hagree
    · rw [hrun, hrun'] at hagree
      exact hagree.elim
  · rw [hrun] at hle
    -- The state between the first two is before all of what comes second.
    have hmid : cy.Precedes cx' := (hgrows x cy hrun).trans hle
    have hagree := hb (by rwa [hrun])
    rcases hrun' : b'.runOn cx' with ⟨failure' | x', cy'⟩
    · rw [hrun, hrun'] at hagree
      exact hagree.elim
    · rw [hrun, hrun'] at hagree
      rw [hrun'] at hgrows'
      exact h x cy x' cy' hrun hrun' hmid hagree (hle.trans hgrows')

/-- What repeats and does answer concurs with itself. -/
theorem of_repeats {b : Build α} (hrepeats : b.Repeats cx) (hle : cx.Precedes cx')
    {p : α → List Effect → Prop} (hsure : b.Sure cx p) : Concur b b cx cx' SameAnswer := by
  obtain ⟨x, es, hrun, _⟩ := hsure
  intro hlater
  rw [hrun] at hlater ⊢
  rw [hrepeats x _ cx' hrun hle hlater]
  rfl

/-- The type of a structure is interned once. -/
theorem internType {kind : TypeKind} (hle : cx.Precedes cx') :
    Concur (Build.internType kind) (Build.internType kind) cx cx' SameAnswer :=
  .of_repeats .internType hle (p := fun _ _ => True) (.internType trivial)

end Concur

end Build

/-! ## Twins -/

/-- Two terms are alike: names and expressions by their structure, everything
else by the handle. -/
inductive Arena.TermsAlike (a : Arena) : Term → Term → Prop
  | name {m n : NameId} (h : a.Alike (.name m) (.name n)) : a.TermsAlike (.name m) (.name n)
  | expr {x y : ExprId} (h : a.Alike (.expr x) (.expr y)) : a.TermsAlike (.expr x) (.expr y)
  | type {ty : TypeId} : a.TermsAlike (.type ty) (.type ty)
  | decl {d : DeclId} : a.TermsAlike (.decl d) (.decl d)
  | constraint {c : ConsId} : a.TermsAlike (.constraint c) (.constraint c)

/-- Terms that are alike have layouts that match. -/
theorem Arena.TermsAlike.pieces {a : Arena} {s t : Term} (h : a.TermsAlike s t) :
    Forall₂ (Piece.Match a.Alike) s.pieces t.pieces := by
  cases h with
  | name h | expr h => simp [Term.pieces, h]
  | type | decl | constraint => simp [Term.pieces]

namespace Context

variable {cx cx' : Context} {e e' : ExprId}

/-- Two expressions, the second in a later context, are of one type, and their
layouts match by what is alike there. -/
def Twins (e : ExprId) (cx : Context) (e' : ExprId) (cx' : Context) : Prop :=
  ∃ x x', cx.arena.expr e = .ok x ∧ cx'.arena.expr e' = .ok x' ∧ x.ty = x'.ty ∧
    Forall₂ (Piece.Match cx'.arena.Alike) x.kind.pieces x'.kind.pieces

/-- Twins are alike. -/
theorem Twins.alike (h : Twins e cx e' cx') (hle : cx.Precedes cx') (hcx' : cx'.Readable) :
    cx'.arena.Alike (.expr e) (.expr e') := by
  obtain ⟨x, x', hx, hx', hty, hmatch⟩ := h
  exact (hcx'.alike_iff_exprs (hle.arena.expr hx) hx').mpr ⟨hty, hmatch⟩

end Context

namespace Build

open Context

variable {cx cx' : Context} {kind kind' : ExprKind} {x y : ExprId} {d : DeclId}

/-- Two nodes of one type with layouts that match. -/
theorem pushExpr_concurs {ty : TypeId}
    (h : Forall₂ (Piece.Match cx'.arena.Alike) kind.pieces kind'.pieces) :
    Concur (pushExpr kind ty) (pushExpr kind' ty) cx cx' Twins := by
  intro _
  have hle := (Effect.expr kind' ty).precedes_apply cx'
  exact ⟨⟨ty, kind⟩, ⟨ty, kind'⟩, fetch_push_size _ _, fetch_push_size _ _, rfl,
    Piece.match_mono (fun _ _ _ _ => Arena.Alike.later hle.arena) h⟩

/-- Two nodes of a type that is asked for first. -/
theorem pushExpr_after_concurs {type : Build TypeId} (htype : Concur type type cx cx' SameAnswer)
    (hgrows : cx'.Precedes (type.runOn cx').2)
    (h : Forall₂ (Piece.Match cx'.arena.Alike) kind.pieces kind'.pieces) :
    Concur (do pushExpr kind (← type)) (do pushExpr kind' (← type)) cx cx' Twins := by
  refine htype.bind (fun ty cy _ => (Effect.expr kind ty).precedes_apply cy) ?_ hgrows
  rintro ty cy _ cy' _ hrun' _ rfl
  have hle : cx'.Precedes cy' := by rwa [hrun'] at hgrows
  exact pushExpr_concurs (Piece.match_mono (fun _ _ _ _ => Arena.Alike.later hle.arena) h)

/-- Two nodes of the type of references to a type. -/
theorem pushExpr_reference_concurs {ty : TypeId} (hle : cx.Precedes cx')
    (h : Forall₂ (Piece.Match cx'.arena.Alike) kind.pieces kind'.pieces) :
    Concur (do pushExpr kind (← referenceType ty)) (do pushExpr kind' (← referenceType ty)) cx cx'
      Twins :=
  pushExpr_after_concurs (.internType hle)
    ((Effect.type (.wrapped .reference ty)).precedes_apply cx') h

/-- A refusal that spells a name. -/
theorem refuse_concurs {name : NameId} (mistake : String → Mistake) (hcx : cx.Whole)
    (hle : cx.Precedes cx') (hname : cx.Issued name) :
    Concur (do Build.mistake (mistake (← read fun cx => cx.spell name)))
      (do Build.mistake (mistake (← read fun cx => cx.spell name))) cx cx' Twins :=
  .read_bind_same (hcx.spell hname) (fun _ => hle.spell) fun _ _ => .throw

/-! ## The constructions of expressions -/

/-- Both references find the same name and the same declaration, and are of one
type. -/
theorem reference_concurs (hcx : cx.Whole) (hle : cx.Precedes cx') (hd : cx.Issued d) :
    Concur (reference d) (reference d) cx cx' Twins := by
  refine .read_bind_same (hcx.declName hd) (fun _ => hle.arena.declName) fun name hname => ?_
  refine .read_bind_same hd.parameterized (fun _ => hle.arena.parameterized)
    fun target htarget => ?_
  refine .decl_bind (hcx.closed.parameterized hd htarget) hle (fun kind => ?_) fun kind _ => ?_
  · cases kind with
    | function flavor => cases flavor <;> rfl
    | _ => rfl
  · have hrefused (sort : DeclSort) :=
      refuse_concurs (.notReferable · sort) hcx hle (hcx.closed.declName hname)
    cases kind with
    | var | objectParm | valueParm =>
      exact pushExpr_reference_concurs hle (by simp [ExprKind.pieces])
    | function flavor =>
      cases flavor with
      | free => exact pushExpr_concurs (by simp [ExprKind.pieces])
      | _ => exact hrefused _
    | _ => exact hrefused _

/-- Both find the same name and the same member, and the objects are alike. -/
theorem memberReference_concurs (hcx : cx.Whole) (hle : cx.Precedes cx') (hd : cx.Issued d)
    (hobj : cx'.arena.Alike (.expr x) (.expr y)) :
    Concur (memberReference x d) (memberReference y d) cx cx' Twins := by
  refine .read_bind_same (hcx.declName hd) (fun _ => hle.arena.declName) fun name hname => ?_
  refine .read_bind_same hd.parameterized (fun _ => hle.arena.parameterized)
    fun target htarget => ?_
  refine .decl_bind (hcx.closed.parameterized hd htarget) hle (fun kind => ?_) fun kind _ => ?_
  · cases kind with
    | function flavor => cases flavor <;> rfl
    | _ => rfl
  · have hrefused (sort : DeclSort) :=
      refuse_concurs (.notMember · sort) hcx hle (hcx.closed.declName hname)
    cases kind with
    | field => exact pushExpr_reference_concurs hle (by simp [ExprKind.pieces, hobj])
    | function flavor =>
      cases flavor with
      | method => exact pushExpr_concurs (by simp [ExprKind.pieces, hobj])
      | _ => exact hrefused _
    | _ => exact hrefused _

/-- Both find the same concept, or are refused by the same name. -/
theorem check_concurs (hcx : cx.Whole) (hle : cx.Precedes cx') (hd : cx.Issued d)
    {args args' : List Term} (hargs : Forall₂ cx'.arena.TermsAlike args args') :
    Concur (check d args) (check d args') cx cx' Twins := by
  refine .decl_bind hd hle (fun kind => ?_) fun kind _ => ?_
  · cases kind <;> rfl
  · have hrefused : Concur
        (do
          let name ← read fun cx => cx.arena.declName d
          mistake (.doesNotName (← read fun cx => cx.spell name) .concept))
        (do
          let name ← read fun cx => cx.arena.declName d
          mistake (.doesNotName (← read fun cx => cx.spell name) .concept)) cx cx' Twins :=
      .read_bind_same (hcx.declName hd) (fun _ => hle.arena.declName) fun name hname =>
        refuse_concurs (.doesNotName · .concept) hcx hle (hcx.closed.declName hname)
    cases kind with
    | concept =>
      refine pushExpr_concurs ?_
      simp only [ExprKind.pieces, forall₂_cons, Piece.match_word_word, true_and, Piece.match_terms]
      exact hargs.imp fun s t h => h.pieces
    | _ => exact hrefused

/-- Both find the same class, whose type is the same one. -/
theorem userType_concurs (hcx : cx.Whole) (hle : cx.Precedes cx') (hd : cx.Issued d) :
    Concur (userType d) (userType d) cx cx' SameAnswer := by
  refine .read_bind_same hd.parameterized (fun _ => hle.arena.parameterized)
    fun target htarget => ?_
  refine .decl_bind (hcx.closed.parameterized hd htarget) hle (fun kind => ?_) fun kind _ => ?_
  · cases kind with
    | function flavor => cases flavor <;> rfl
    | _ => rfl
  · cases kind with
    | classType => exact .internType hle
    | _ => exact .throw

/-- Both find the same declared type. -/
theorem declaredType_concurs (hcx : cx.Whole) (hle : cx.Precedes cx') (hd : cx.Issued d) :
    Concur (declaredType d) (declaredType d) cx cx' SameAnswer := by
  refine .read_bind (hcx.core hd) (fun ⟨core, kind⟩ hcore => ?_) fun ⟨core, kind⟩ hcore => ?_
  · obtain ⟨kind', hkind', hheader⟩ := hle.arena.core hcore
    refine ⟨(core, kind'), hkind', ?_⟩
    apply DeclKind.congr_header (h := hheader)
    intro kind
    cases kind <;> rfl
  · cases kind with
    | classType =>
      exact userType_concurs hcx hle (Context.issued_of_decl (Arena.coreWithin_eq_ok hcore).1)
    | template | nameSpace => exact .throw
    | _ => exact .pure rfl

/-- Both have the same declared type, stored or found. -/
theorem synthesized_concurs (hcx : cx.Whole) (hle : cx.Precedes cx') (hd : cx.Issued d) :
    Concur (do pushExpr (.synthetic d) (← declaredType d))
      (do pushExpr (.synthetic d) (← declaredType d)) cx cx' Twins :=
  pushExpr_after_concurs (declaredType_concurs hcx hle hd) declaredType_atomic.precedes
    (by simp [ExprKind.pieces])

/-- An operation on operands that are alike is of one type. -/
theorem pushExpr_value_concurs (hcx : cx.Whole) (hle : cx.Precedes cx') (hx : cx.Issued x)
    (halike : cx'.arena.Alike (.expr x) (.expr y))
    (h : Forall₂ (Piece.Match cx'.arena.Alike) kind.pieces kind'.pieces) :
    Concur (do pushExpr kind (← read fun cx => cx.valueTypeOf x))
      (do pushExpr kind' (← read fun cx => cx.valueTypeOf y)) cx cx' Twins :=
  .read_bind_same (hcx.valueTypeOf hx) (fun _ => hle.valueTypeOf halike)
    fun _ _ => pushExpr_concurs h

/-- Operands that are alike have one value type. -/
theorem unary_concurs {op : UnaryOp} (hcx : cx.Whole) (hle : cx.Precedes cx') (hx : cx.Issued x)
    (halike : cx'.arena.Alike (.expr x) (.expr y)) :
    Concur (unary op x) (unary op y) cx cx' Twins := by
  have hmatch : Forall₂ (Piece.Match cx'.arena.Alike) (ExprKind.unary op x).pieces
      (ExprKind.unary op y).pieces := by simp [ExprKind.pieces, halike]
  cases op with
  | not => exact pushExpr_concurs hmatch
  | neg | pos | bitNot => exact pushExpr_value_concurs hcx hle hx halike hmatch

/-- Left operands that are alike have one value type, or the result is a truth
value. -/
theorem binary_concurs {op : BinaryOp} {x₂ y₂ : ExprId} (hcx : cx.Whole) (hle : cx.Precedes cx')
    (hx : cx.Issued x) (hlhs : cx'.arena.Alike (.expr x) (.expr y))
    (hrhs : cx'.arena.Alike (.expr x₂) (.expr y₂)) :
    Concur (binary op x x₂) (binary op y y₂) cx cx' Twins := by
  have hmatch : Forall₂ (Piece.Match cx'.arena.Alike) (ExprKind.binary op x x₂).pieces
      (ExprKind.binary op y y₂).pieces := by simp [ExprKind.pieces, hlhs, hrhs]
  unfold binary
  by_cases htruth : (op.isLogical || op.isComparison) = true
  · rw [if_pos htruth, if_pos htruth]
    exact pushExpr_concurs hmatch
  · rw [if_neg htruth, if_neg htruth]
    exact pushExpr_value_concurs hcx hle hx hlhs hmatch

/-- Callees that are alike have one function type, and there are as many arguments
in both calls. -/
theorem call_concurs {args args' : List ExprId} (hcx : cx.Whole) (hle : cx.Precedes cx')
    (hx : cx.Issued x) (hcallee : cx'.arena.Alike (.expr x) (.expr y))
    (hargs : Forall₂ (fun e e' => cx'.arena.Alike (.expr e) (.expr e')) args args') :
    Concur (call x args) (call y args') cx cx' Twins := by
  refine .read_bind_same (hcx.valueTypeOf hx) (fun _ => hle.valueTypeOf hcallee) fun ty hty => ?_
  refine .read_bind_same (.fetch (hcx.closed.valueTypeOf hty)) (fun _ => hle.type) fun kind _ => ?_
  cases kind with
  | function params ret =>
    show Concur (if _ then _ else _) (if _ then _ else _) cx cx' Twins
    rw [← hargs.length_eq]
    by_cases hlength : params.length = args.length
    · rw [if_pos hlength, if_pos hlength]
      exact pushExpr_concurs (by simp [ExprKind.pieces, hcallee, hargs])
    · rw [if_neg hlength, if_neg hlength]
      exact .throw
  | _ => exact .throw

/-- The references to the function are twins, and then the calls are. -/
theorem callDecl_concurs {args args' : List ExprId} (hcx : cx.Whole) (hcx' : cx'.Whole)
    (hle : cx.Precedes cx') (hd : cx.Issued d)
    (hargs : Forall₂ (fun e e' => cx'.arena.Alike (.expr e) (.expr e')) args args') :
    Concur (callDecl d args) (callDecl d args') cx cx' Twins := by
  refine (reference_concurs hcx hle hd).bind (fun callee cy _ => call_atomic.precedes) ?_
    reference_atomic.precedes
  intro callee cy callee' cy' hrun hrun' hmid htwins
  -- The calls start from contexts that are whole again, and from callees that are alike there.
  have hd' : cx'.Issued d := hd.later hle
  have hwhole : cy.Whole := by
    simpa [hrun] using (reference_steady hd).whole (reference_safe hd) hcx
  have hwhole' : cy'.Whole := by
    simpa [hrun'] using (reference_steady hd').whole (reference_safe hd') hcx'
  have hrefers : (reference d).Atomic cx' fun e es => Refers cx' d e es := reference_atomic
  have hlater : cx'.Precedes cy' := by simpa [hrun'] using hrefers.precedes
  have hcallee : cy.Issued callee := by
    obtain ⟨x, x', hx, _⟩ := htwins
    exact lt_of_fetch hx
  have halike := htwins.alike (hmid.trans hlater) hwhole'.orderly.readable
  exact call_concurs hwhole (hmid.trans hlater) hcallee halike
    (hargs.imp fun _ _ h => h.later hlater.arena)

end Build

end TermGraph
