import TermGraph.Proofs.Rank
import TermGraph.Proofs.Walks

/-!
# Walks come to an end

Along every edge that walks follow the rank goes down (`Context.Follows.lower`),
so a walk that goes on for ever would count down for ever.  What is left is to
see that the walks get by with the bounds that they are given.

A walk that stays in one table visits ever older entries, because within a
category the rank goes with the index: looking through templates takes no more
steps than there are declarations, telling a category no more than there are
types.  Spelling leaves the table of names and comes back to it, again at an
older name (`Context.SpellsThrough.older`).  The walks over the structure of
constraints change tables at every step; each part has fewer nodes below it
than the node it is a part of (`Arena.card_below_lt`), and that is less than
the number of nodes to the end.

Handles that lead nowhere end a walk at once, so the walks end from every
handle, issued or not (`Context.Walks`).
-/

namespace TermGraph

open List Relation

namespace Context

variable {cx : Context} {rank : AnyHandle → Nat}

/-! ## The edges go down -/

/-- A walk goes on to something that is mentioned. -/
theorem Follows.mentioned {x y : AnyHandle} (h : cx.Follows x y) :
    ∃ node, cx.node x.2 = .ok node ∧ y ∈ x.1.mentions node := by
  cases h with
  | @filed c kind p h hp =>
    refine ⟨kind, h, mem_filter.mpr ⟨ConstraintKind.any_mem_handles hp, ?_⟩⟩
    cases p <;> rfl
  | @part p q h =>
    have hcategory : q.any.1 ≠ .definition := by
      cases q <;> nofun
    obtain ⟨ps, hps, hq⟩ := h
    cases p with
    | name n =>
      obtain ⟨kind, hkind, rfl⟩ := map_eq_ok.mp hps
      exact ⟨kind, hkind, mem_filter.mpr ⟨NameKind.any_mem_handles hq, by simpa using hcategory⟩⟩
    | expr e =>
      obtain ⟨x, hx, rfl⟩ := map_eq_ok.mp hps
      have hhandle : q.any ∈ x.handles := mem_cons_of_mem _ (ExprKind.any_mem_handles hq)
      exact ⟨x, hx, mem_filter.mpr ⟨hhandle, by simpa using hcategory⟩⟩
    | req r =>
      obtain ⟨kind, hkind, rfl⟩ := map_eq_ok.mp hps
      exact ⟨kind, hkind, mem_filter.mpr ⟨ReqKind.any_mem_handles hq, by simpa using hcategory⟩⟩
  | @wrapped d inner parms constraint h => exact ⟨_, h, mem_filter.mpr ⟨mem_cons_self, rfl⟩⟩
  | @named d kind n h hn =>
    refine ⟨kind, h, mem_filter.mpr ⟨?_, rfl⟩⟩
    cases kind <;> cases hn <;> exact mem_cons_self
  | @applied n kind d h hd =>
    refine ⟨kind, h, mem_filter.mpr ⟨?_, rfl⟩⟩
    cases kind <;> cases hd <;> exact mem_cons_self
  | scope h => exact ⟨_, h, mem_filter.mpr ⟨mem_cons_self, rfl⟩⟩
  | member h => exact ⟨_, h, mem_filter.mpr ⟨mem_cons_of_mem _ mem_cons_self, rfl⟩⟩
  | @underlying ty inner kind h hinner =>
    refine ⟨kind, h, mem_filter.mpr ⟨?_, rfl⟩⟩
    cases kind with
    | qualified base quals =>
      cases hinner
      exact mem_cons_self
    | wrapped wrapper ty =>
      cases wrapper <;> cases hinner <;> exact mem_cons_self
    | _ => cases hinner

/-- **Edges go down.**  The rank is lower at the other end of every edge that a
walk follows. -/
theorem Follows.lower (h : cx.Ranked rank) {x y : AnyHandle} (hxy : cx.Follows x y) :
    rank y < rank x := by
  obtain ⟨node, hnode, hy⟩ := hxy.mentioned
  exact h.down x.1 x.2 node hnode y hy

/-- In a closed context edges lead to nodes. -/
theorem Follows.issued (hcx : cx.Closed) {x y : AnyHandle} (hxy : cx.Follows x y) :
    cx.Issued y.2 := by
  obtain ⟨node, hnode, hy⟩ := hxy.mentioned
  exact hcx.node hnode y (mem_of_mem_filter hy)

/-- An edge within a category leads to an older node. -/
theorem Follows.older (h : cx.Ranked rank) (hcx : cx.Closed) {c : Category} {x y : Handle c}
    (hxy : cx.Follows x.any y.any) : y.index < x.index :=
  h.older (hxy.issued hcx) (hxy.lower h)

/-! ## Looking through templates -/

/-- From an entry of a table an older one is fewer entries from the beginning,
also if all handles beyond the table are counted as its end. -/
theorem min_index_lt {c : Category} {x y : Handle c} {size : Nat} (hx : x.index < size)
    (hlt : y.index < x.index) : min y.index size < min x.index size := by
  omega

/-- **Looking through templates ends.** -/
theorem Ranked.core_ends (h : cx.Ranked rank) (hcx : cx.Closed) (d : DeclId) :
    Ends (fun n => cx.arena.coreWithin n d) (cx.arena.decls.size + 1) := by
  refine .of_measure (fun d n => cx.arena.coreWithin n d)
    (fun d => min d.index cx.arena.decls.size) ?_ (by omega)
  intro d bound hgo
  refine Arena.coreWithin_ends fun parms inner constraint hread => ?_
  have hedge : cx.Follows d.any inner.any := .wrapped hread
  exact hgo inner (min_index_lt (lt_of_fetch hread) (hedge.older h hcx))

/-- The name of a declaration is found, or is missing. -/
theorem Ranked.declName_ne_cyclic (h : cx.Ranked rank) (hcx : cx.Closed) (d : DeclId) :
    cx.arena.declName d ≠ .error .cyclic :=
  map_ne_cyclic (h.core_ends hcx d).answers

/-- The core of a declaration is of no higher rank. -/
theorem Ranked.core_le (h : cx.Ranked rank) {steps : Nat} {d core : DeclId} {kind : DeclKind}
    (hcore : cx.arena.coreWithin steps d = .ok (core, kind)) : rank core.any ≤ rank d.any := by
  induction steps generalizing d with
  | zero => cases hcore
  | succ steps ih =>
    obtain ⟨found, hfound, hcore⟩ := bind_eq_ok.mp hcore
    cases found with
    | template parms inner constraint =>
      have hedge : cx.Follows d.any inner.any := .wrapped hfound
      exact Nat.le_trans (ih hcore) (Nat.le_of_lt (hedge.lower h))
    | _ =>
      cases hcore
      exact Nat.le_refl _

/-- The name of a declaration is of lower rank than the declaration. -/
theorem Ranked.declName_lt (h : cx.Ranked rank) {d : DeclId} {n : NameId}
    (hn : cx.arena.declName d = .ok n) : rank n.any < rank d.any := by
  obtain ⟨⟨core, kind⟩, hcore, rfl⟩ := map_eq_ok.mp hn
  obtain ⟨hread, hplain⟩ := Arena.coreWithin_eq_ok hcore
  have hname : ∃ name, kind.name? = some name := by
    cases kind with
    | template parms inner constraint => exact (hplain parms inner constraint rfl).elim
    | _ => exact ⟨_, rfl⟩
  obtain ⟨name, hname⟩ := hname
  have hedge : cx.Follows core.any name.any := .named hread hname
  have hlt := hedge.lower h
  have hle := h.core_le hcore
  show rank (kind.name?.getD .invalid).any < rank d.any
  rw [hname]
  exact Nat.lt_of_lt_of_le hlt hle

/-! ## Spelling -/

/-- **A name is spelled through older names only.** -/
theorem SpellsThrough.older (h : cx.Ranked rank) (hcx : cx.Closed) {n m : NameId}
    (hnm : cx.SpellsThrough n m) : m.index < n.index := by
  cases hnm with
  | @applied kind d hn hd hm =>
    have hedge : cx.Follows n.any d.any := .applied hn hd
    have hlt := hedge.lower h
    have hname := h.declName_lt hm
    exact h.older (hcx.declName hm) (Nat.lt_trans hname hlt)
  | @scope name scope hn hscope hm =>
    have hedge : cx.Follows n.any scope.any := .scope hn
    have hlt := hedge.lower h
    have hname := h.declName_lt hm
    exact h.older (hcx.declName hm) (Nat.lt_trans hname hlt)
  | member hn =>
    have hedge : cx.Follows n.any m.any := .member hn
    exact hedge.older h hcx

/-- **Spelling ends.** -/
theorem Ranked.spell_ends (h : cx.Ranked rank) (hcx : cx.Closed) (n : NameId) :
    Ends (fun steps => cx.spellWithin steps n) (cx.arena.names.size + 1) := by
  refine .of_measure (fun n steps => cx.spellWithin steps n)
    (fun n => min n.index cx.arena.names.size) ?_ (by omega)
  intro n bound hgo
  refine spellWithin_ends (h.declName_ne_cyclic hcx) fun m hm => ?_
  exact hgo m (min_index_lt hm.issued (hm.older h hcx))

/-! ## Categories of types -/

/-- **Telling a category ends.** -/
theorem Ranked.isValueType_ends (h : cx.Ranked rank) (hcx : cx.Closed) (ty : TypeId) :
    Ends (fun steps => cx.isValueTypeWithin steps ty) (cx.types.size + 1) := by
  refine .of_measure (fun ty steps => cx.isValueTypeWithin steps ty)
    (fun ty => min ty.index cx.types.size) ?_ (by omega)
  intro ty bound hgo
  refine isValueTypeWithin_ends fun kind inner hkind hinner => ?_
  have hedge : cx.Follows ty.any inner.any := .underlying hkind hinner
  exact hgo inner (min_index_lt (lt_of_fetch hkind) (hedge.older h hcx))

/-! ## Types of declarations -/

/-- A construction ends if what it reads first does and so does what follows. -/
theorem read_bind_ne_cyclic {α β : Type} {look : Context → Except Fault α} {f : α → Build β}
    (hlook : look cx ≠ .error .cyclic)
    (hf : ∀ x, look cx = .ok x → ((f x).runOn cx).1 ≠ .error (.broken .cyclic)) :
    ((Build.read look >>= f).runOn cx).1 ≠ .error (.broken .cyclic) := by
  cases hread : look cx with
  | error fault =>
    intro hcyclic
    rw [Build.runOn_bind, Build.runOn_read, hread] at hcyclic
    cases hcyclic
    exact hlook hread
  | ok x =>
    rw [Build.runOn_read_bind hread]
    exact hf x hread

/-- What a declaration stands for is found in one step, so no circle can be
walked. -/
theorem parameterized_ne_cyclic (d : DeclId) : cx.arena.parameterized d ≠ .error .cyclic := by
  intro h
  cases hread : cx.arena.decl d with
  | error fault =>
    rw [Arena.parameterized, hread] at h
    cases h
    exact fetch_ne_cyclic hread
  | ok kind =>
    rw [Arena.parameterized, hread] at h
    cases kind <;> cases h

/-- **Looking for the type that a declaration gives ends.** -/
theorem Ranked.declaredType_ne_cyclic (h : cx.Ranked rank) (hcx : cx.Closed) (d : DeclId) :
    ((Build.declaredType d).runOn cx).1 ≠ .error (.broken .cyclic) := by
  refine read_bind_ne_cyclic (h.core_ends hcx d).answers fun core _ => ?_
  obtain ⟨core, kind⟩ := core
  cases kind with
  | classType =>
    refine read_bind_ne_cyclic (parameterized_ne_cyclic core) fun target _ => ?_
    refine read_bind_ne_cyclic fetch_ne_cyclic fun kind _ => ?_
    split <;> nofun
  | _ => nofun

/-! ## Constraints -/

/-- What is below a part is of lower rank. -/
theorem Ranked.below_lt (h : cx.Ranked rank) {p q : Part} (hbelow : TransGen cx.arena.HasPart p q) :
    rank q.any < rank p.any := by
  induction hbelow with
  | single hpart =>
    have hedge : cx.Follows p.any _ := .part hpart
    exact hedge.lower h
  | @tail q r _ hpart ih =>
    have hedge : cx.Follows q.any r.any := .part hpart
    exact Nat.lt_trans (hedge.lower h) ih

/-- Fewer nodes are below a part than below the node it is a part of. -/
theorem Ranked.card_below_lt (h : cx.Ranked rank) (hcx : cx.Closed) {p q : Part}
    (hpart : cx.arena.HasPart p q) : (cx.arena.below q).card < (cx.arena.below p).card := by
  have hedge : cx.Follows p.any q.any := .part hpart
  obtain ⟨ps, hps⟩ := parts_of_issued (hedge.issued hcx)
  have hacyclic : ¬ TransGen cx.arena.HasPart q q := fun hcycle =>
    Nat.lt_irrefl _ (h.below_lt hcycle)
  exact Arena.card_below_lt hpart (Arena.mem_nodes hps) hacyclic

end Context

/-- No part has as many nodes below it as walks over structure allow for. -/
theorem Arena.card_below_lt_depthBound (a : Arena) (p : Part) : (a.below p).card < a.depthBound := by
  have hsub : a.below p ⊆ a.nodes := fun q hq => (Arena.mem_below.mp hq).1
  exact Nat.lt_of_le_of_lt (Finset.card_le_card hsub) a.card_nodes_lt

namespace Context

variable {cx : Context} {rank : AnyHandle → Nat}

/-- **Taking the words of a part ends.** -/
theorem Ranked.words_ends (h : cx.Ranked rank) (hcx : cx.Closed) (p : Part) :
    Ends (fun n => cx.arena.wordsWithin n p) cx.arena.depthBound := by
  refine .of_measure (fun p n => cx.arena.wordsWithin n p)
    (fun p => (cx.arena.below p).card) ?_ (cx.arena.card_below_lt_depthBound p)
  intro p bound hgo
  exact Arena.wordsWithin_ends fun q hpart => hgo q (h.card_below_lt hcx hpart)

/-- **Comparing two parts ends.**  Comparing goes on in both of them, so it is
enough to count in the first. -/
theorem Ranked.alike_ends (h : cx.Ranked rank) (hcx : cx.Closed) (x y : Part) :
    Ends (fun n => cx.arena.alikeWithin n x y) cx.arena.depthBound := by
  refine .of_measure (i := (x, y)) (fun xy n => cx.arena.alikeWithin n xy.1 xy.2)
    (fun xy => (cx.arena.below xy.1).card) ?_ (cx.arena.card_below_lt_depthBound x)
  intro xy bound hgo
  exact Arena.alikeWithin_ends fun x' y' hpart _ => hgo (x', y') (h.card_below_lt hcx hpart)

/-! ## All walks -/

/-- Every walk ends by the bound that it is given, from whatever handles. -/
structure Walks (cx : Context) : Prop where
  /-- The structural hash: the words of a constraint. -/
  words : ∀ kind : ConstraintKind,
    Ends (fun n => Piece.spread (cx.arena.wordsWithin n) kind.pieces) cx.arena.depthBound
  /-- The structural equivalence of constraints. -/
  alike : ∀ j k : ConstraintKind,
    Ends (fun n => Demand.settle (cx.arena.alikeWithin n) (j.demands k)) cx.arena.depthBound
  /-- The structural equivalence of expressions, names and requirements. -/
  partsAlike : ∀ x y : Part, Ends (fun n => cx.arena.alikeWithin n x y) cx.arena.depthBound
  spell : ∀ n, Ends (fun steps => cx.spellWithin steps n) (cx.arena.names.size + 1)
  /-- Looking through templates, for names and types of declarations. -/
  core : ∀ d, Ends (fun steps => cx.arena.coreWithin steps d) (cx.arena.decls.size + 1)
  declName : ∀ d, cx.arena.declName d ≠ .error .cyclic
  declaredType : ∀ d, ((Build.declaredType d).runOn cx).1 ≠ .error (.broken .cyclic)
  isValueType : ∀ ty, Ends (fun steps => cx.isValueTypeWithin steps ty) (cx.types.size + 1)

/-- **Where there is a rank all walks end.** -/
theorem Ranked.walks (h : cx.Ranked rank) (hcx : cx.Closed) : cx.Walks where
  words _ := Piece.spread_ends fun p _ => h.words_ends hcx p
  alike _ _ := Demand.settle_ends fun x y _ => h.alike_ends hcx x y
  partsAlike := h.alike_ends hcx
  spell := h.spell_ends hcx
  core := h.core_ends hcx
  declName := h.declName_ne_cyclic hcx
  declaredType := h.declaredType_ne_cyclic hcx
  isValueType := h.isValueType_ends hcx

end Context

namespace Workspace

/-- **Termination.**  After a run that passed only issued handles there is one
rank for the nodes of all categories, of this state and of every one that the
run came through.  Every edge that walks follow goes down in it, whatever
definitions are in the slots of declarations; names are spelled through older
names only; and every walk comes to an end, from whatever handles. -/
theorem walks_end (config : Config) (digest : List Nat → UInt64) (commands : List Command)
    (h : (start config digest).Proper commands) :
    (∃ rank : AnyHandle → Nat, ∀ before after, commands = before ++ after →
      ∀ (slots : List (DeclId × DefId)) (x y : AnyHandle),
        ((reached config digest before).context.after
          (slots.map fun slot => .link slot.1 slot.2)).Follows x y → rank y < rank x) ∧
    (∀ n m, (reached config digest commands).context.SpellsThrough n m → m.index < n.index) ∧
    (reached config digest commands).context.Walks := by
  obtain ⟨rank, _, hrank, _⟩ := rankable_reached h
  have hclosed : (reached config digest commands).context.Closed :=
    (run_sound (sound_start config digest) h).1.closed
  refine ⟨⟨rank, ?_⟩, fun n m hnm => hnm.older hrank hclosed, hrank.walks hclosed⟩
  intro before after hsplit slots x y hxy
  have hle : (reached config digest before).context.Precedes
      (reached config digest commands).context := by
    rw [hsplit]
    exact reached_precedes config digest before after
  exact hxy.lower ((hrank.earlier hle).relink slots)

/-- A run that defines a function by a call of itself, and then names the
function as a member of itself. -/
def recursiveRun : List Command :=
  [.ask (.name (.identifier "f")), .ask (.decl (.function .free ⟨1⟩ [] .bool none)),
    .ask (.expr (.callDecl ⟨1⟩ [])), .ask (.link (.define ⟨1⟩ (.expression ⟨1⟩))),
    .ask (.name (.qualified ⟨1⟩ ⟨1⟩))]

/-- The function is linked to the call of itself, and every walk ends. -/
theorem walks_end_recursiveRun :
    (start .standard ConstraintTable.polynomialDigest).Proper recursiveRun ∧
      (reached .standard ConstraintTable.polynomialDigest recursiveRun).context.arena.definitionOf ⟨1⟩
        = .ok ⟨3⟩ ∧
      (reached .standard ConstraintTable.polynomialDigest recursiveRun).context.arena.defn ⟨3⟩
        = .ok (.expression ⟨1⟩) ∧
      (reached .standard ConstraintTable.polynomialDigest recursiveRun).context.Walks := by
  have hproper : (start .standard ConstraintTable.polynomialDigest).Proper recursiveRun := by
    decide +kernel
  exact ⟨hproper, rfl, rfl, (walks_end _ _ _ hproper).2.2⟩

end Workspace

end TermGraph
