import Mathlib.Data.Fin.Pigeonhole
import TermGraph.Proofs.Constraint.Filed

/-!
# Walks through the graph

Six walks go through the graph along handles: looking through templates,
spelling a name, telling the category of a type, and three that look into the
structure of constraints: taking their words, comparing them, and comparing the
expressions in them.  Each counts its steps down from a bound, so each is a
family of computations, one for every bound.

A walk *ends* by a bound (`Ends`) when it gets to its answer by then, so that a
higher bound makes no difference.  For each walk one lemma says which nodes it
goes on to (`Arena.wordsWithin_ends` and its fellows): if the walk ends from
all of these, it ends from here one step later.  Nothing is assumed of the
graph, so these lemmas are the list of all edges that walks follow.  The edges
are put together in `Context.Follows`; between two names that are spelled there
may be several (`Context.SpellsThrough`).

To see that a walk ends it is then enough to have a measure that is lower
wherever the walk goes on (`Ends.of_measure`).  Where there is a way to the end
to begin with, it is short enough, since it stays in one table and comes to no
entry twice (`lt_size_of_deep`).
-/

namespace TermGraph

open List

/-! ## Ending -/

/-- By the bound the walk has come to its answer, which is not that it goes in
circles, and every higher bound gives the same answer. -/
structure Ends {α : Type} (walk : Nat → Except Fault α) (bound : Nat) : Prop where
  answers : walk bound ≠ .error .cyclic
  settled : ∀ steps, bound ≤ steps → walk steps = walk bound

namespace Ends

variable {α β : Type} {walk : Nat → Except Fault α} {bound : Nat}

/-- What does not count steps has ended. -/
theorem const {x : Except Fault α} (h : x ≠ .error .cyclic) : Ends (fun _ => x) bound :=
  ⟨h, fun _ _ => rfl⟩

theorem ok {x : α} : Ends (fun _ => .ok x) bound := const nofun

/-- What has ended by a bound has ended by a higher one. -/
theorem mono (h : Ends walk bound) {later : Nat} (hle : bound ≤ later) : Ends walk later where
  answers := by
    rw [h.settled later hle]
    exact h.answers
  settled steps hsteps := by
    rw [h.settled later hle, h.settled steps (Nat.le_trans hle hsteps)]

/-- A walk ends one step after what it goes on with. -/
theorem succ (h : Ends (fun n => walk (n + 1)) bound) : Ends walk (bound + 1) where
  answers := h.answers
  settled steps hsteps := by
    obtain ⟨n, rfl⟩ : ∃ n, steps = n + 1 := ⟨steps - 1, by omega⟩
    exact h.settled n (by omega)

/-- Two walks in a row end when both do. -/
theorem bind {rest : α → Nat → Except Fault β} (h : Ends walk bound)
    (hrest : ∀ x, walk bound = .ok x → Ends (rest x) bound) :
    Ends (fun n => walk n >>= fun x => rest x n) bound where
  answers := by
    cases hwalk : walk bound with
    | error fault =>
      intro hcyclic
      have hfault : fault = .cyclic := Except.error.inj hcyclic
      exact h.answers (hfault ▸ hwalk)
    | ok x => exact (hrest x hwalk).answers
  settled steps hsteps := by
    show (walk steps >>= fun x => rest x steps) = (walk bound >>= fun x => rest x bound)
    rw [h.settled steps hsteps]
    cases hwalk : walk bound with
    | error fault => rfl
    | ok x => exact (hrest x hwalk).settled steps hsteps

/-- Something is read first. -/
theorem read_bind {x : Except Fault α} {rest : α → Nat → Except Fault β} (h : x ≠ .error .cyclic)
    (hrest : ∀ a, x = .ok a → Ends (rest a) bound) :
    Ends (fun n => x >>= fun a => rest a n) bound :=
  (const h).bind hrest

/-- **Walks that go down.**  If a walk goes on only to where a measure is lower,
it takes no more steps than the measure and one. -/
theorem of_measure {ι : Type} (walks : ι → Nat → Except Fault α) (measure : ι → Nat)
    (hdown : ∀ i bound, (∀ j, measure j < measure i → Ends (walks j) bound) →
      Ends (walks i) (bound + 1))
    {i : ι} (h : measure i < bound) : Ends (walks i) bound := by
  induction bound generalizing i with
  | zero => exact absurd h (Nat.not_lt_zero _)
  | succ bound ih => exact hdown i bound fun j hj => ih (by omega)

end Ends

/-- Reading an entry of a table comes to an end. -/
theorem fetch_ne_cyclic {α : Type} {table : Array α} {index : Nat} :
    fetch table index ≠ .error .cyclic := by
  intro h
  obtain ⟨_, hfault⟩ := fetch_eq_error.mp h
  cases hfault

/-- What is made of what comes to an end comes to an end. -/
theorem map_ne_cyclic {α β : Type} {f : α → β} {x : Except Fault α} (h : x ≠ .error .cyclic) :
    f <$> x ≠ .error .cyclic := by
  cases x with
  | error fault =>
    intro hcyclic
    have hfault : fault = .cyclic := Except.error.inj hcyclic
    exact h (congrArg Except.error hfault)
  | ok a => nofun

/-! ## Chains in a table -/

/-- Below something deep there is something of every lower depth. -/
theorem exists_deep {α : Type} {deep : Nat → α → Prop}
    (hdown : ∀ n x, deep (n + 1) x → ∃ below, deep n below) {n : Nat} {x : α} (hx : deep n x)
    (m : Nat) (hm : m ≤ n) : ∃ y, deep m y := by
  induction n generalizing x with
  | zero =>
    obtain rfl : m = 0 := Nat.le_zero.mp hm
    exact ⟨x, hx⟩
  | succ n ih =>
    by_cases hlast : m = n + 1
    · exact ⟨x, hlast ▸ hx⟩
    · obtain ⟨below, hbelow⟩ := hdown n x hx
      exact ih hbelow (by omega)

/-- **A chain is shorter than its table.**  What is deep stands over something
of every lower depth, and nothing is of two depths; so if all of that is in one
table, nothing is as deep as the table is long. -/
theorem lt_size_of_deep {c : Category} (deep : Nat → Handle c → Prop) {size : Nat}
    (hinside : ∀ n x, deep n x → x.index < size)
    (hdown : ∀ n x, deep (n + 1) x → ∃ below, deep n below)
    (hunique : ∀ m n x, deep m x → deep n x → m = n) {n : Nat} {x : Handle c} (hx : deep n x) :
    n < size := by
  have hall (m : Fin (n + 1)) : ∃ y, deep m y :=
    exists_deep hdown hx m (Nat.lt_succ_iff.mp m.isLt)
  choose level hlevel using hall
  -- each depth takes up an entry of its own
  let entry (m : Fin (n + 1)) : Fin size := ⟨(level m).index, hinside m _ (hlevel m)⟩
  have hinj : Function.Injective entry := by
    intro m m' hsame
    have hindex : (level m).index = (level m').index := congrArg Fin.val hsame
    have hlevels : level m = level m' := Handle.index_inj.mp hindex
    have hdepths : (m : Nat) = m' := hunique m m' (level m) (hlevel m) (hlevels ▸ hlevel m')
    exact Fin.ext hdepths
  exact Fin.le_of_injective entry hinj

/-! ## The edges -/

/-- The declaration that a name applies to arguments. -/
def NameKind.applied? : NameKind → Option DeclId
  | .template d _ | .concept d _ => some d
  | _ => none

/-- The type whose category is that of the type. -/
def TypeKind.underlying? : TypeKind → Option TypeId
  | .qualified base _ => some base
  | .wrapped wrapper inner => if wrapper.isTransparent then some inner else none
  | _ => none

/-- The edges from a node to another along which walks go. -/
inductive Context.Follows (cx : Context) : AnyHandle → AnyHandle → Prop
  /-- Words and comparisons: from a stored constraint to its parts. -/
  | filed {c : ConsId} {kind : ConstraintKind} {p : Part} (h : cx.constraint c = .ok kind)
      (hp : p ∈ kind.parts) : cx.Follows c.any p.any
  /-- Words and comparisons: from a part to its parts. -/
  | part {p q : Part} (h : cx.arena.HasPart p q) : cx.Follows p.any q.any
  /-- Names and types of declarations: from a template to what it wraps. -/
  | wrapped {d inner : DeclId} {parms : List DeclId} {constraint : Option ExprId}
      (h : cx.arena.decl d = .ok (.template parms inner constraint)) : cx.Follows d.any inner.any
  /-- Names of declarations: from a declaration to its name. -/
  | named {d : DeclId} {kind : DeclKind} {n : NameId} (h : cx.arena.decl d = .ok kind)
      (hn : kind.name? = some n) : cx.Follows d.any n.any
  /-- Spelling: from a name to what it applies to arguments. -/
  | applied {n : NameId} {kind : NameKind} {d : DeclId} (h : cx.arena.name n = .ok kind)
      (hd : kind.applied? = some d) : cx.Follows n.any d.any
  /-- Spelling: from a qualified name to its scope. -/
  | scope {n name : NameId} {scope : DeclId} (h : cx.arena.name n = .ok (.qualified scope name)) :
      cx.Follows n.any scope.any
  /-- Spelling: from a qualified name to the name in its scope. -/
  | member {n name : NameId} {scope : DeclId} (h : cx.arena.name n = .ok (.qualified scope name)) :
      cx.Follows n.any name.any
  /-- Categories: from a type to the type under its qualifiers or passing mode. -/
  | underlying {ty inner : TypeId} {kind : TypeKind} (h : cx.type ty = .ok kind)
      (hinner : kind.underlying? = some inner) : cx.Follows ty.any inner.any

/-- To spell the first name the second is spelled: it is the name of the
template or concept that is applied, the name in a scope, or the name of the
scope if that is not the global one. -/
inductive Context.SpellsThrough (cx : Context) : NameId → NameId → Prop
  | applied {n m : NameId} {kind : NameKind} {d : DeclId} (h : cx.arena.name n = .ok kind)
      (hd : kind.applied? = some d) (hm : cx.arena.declName d = .ok m) : cx.SpellsThrough n m
  | scope {n m name : NameId} {scope : DeclId} (h : cx.arena.name n = .ok (.qualified scope name))
      (hscope : scope ≠ .globalNamespace) (hm : cx.arena.declName scope = .ok m) :
      cx.SpellsThrough n m
  | member {n name : NameId} {scope : DeclId} (h : cx.arena.name n = .ok (.qualified scope name)) :
      cx.SpellsThrough n name

/-- Only a name that is there is spelled through others. -/
theorem Context.SpellsThrough.issued {cx : Context} {n m : NameId} (h : cx.SpellsThrough n m) :
    cx.Issued n := by
  cases h with
  | applied hn | scope hn | member hn => exact lt_of_fetch hn

/-! ## Words and comparisons -/

namespace Piece

/-- Pieces are spread by going on to their parts. -/
theorem spread_ends {opened : Nat → Part → Except Fault (List Nat)} {ps : List Piece} {bound : Nat}
    (h : ∀ p, .part p ∈ ps → Ends (fun n => opened n p) bound) :
    Ends (fun n => spread (opened n) ps) bound := by
  induction ps with
  | nil => exact .ok
  | cons piece rest ih =>
    have hrest : Ends (fun n => spread (opened n) rest) bound :=
      ih fun p hp => h p (mem_cons_of_mem _ hp)
    cases piece with
    | word w => exact hrest.bind fun _ _ => .ok
    | part p => exact (h p mem_cons_self).bind fun _ _ => hrest.bind fun _ _ => .ok

end Piece

/-- Demands are settled by going on to the parts that they compare. -/
theorem Demand.settle_ends {alike? : Nat → Part → Part → Except Fault Bool} {ds : List Demand}
    {bound : Nat} (h : ∀ x y, .alike x y ∈ ds → Ends (fun n => alike? n x y) bound) :
    Ends (fun n => settle (alike? n) ds) bound := by
  induction ds with
  | nil => exact .ok
  | cons d rest ih =>
    have hrest : Ends (fun n => settle (alike? n) rest) bound :=
      ih fun x y hxy => h x y (mem_cons_of_mem _ hxy)
    cases d with
    | holds b =>
      cases b with
      | true => exact hrest
      | false => exact .ok
    | alike x y =>
      refine (h x y mem_cons_self).bind fun b _ => ?_
      cases b with
      | true => exact hrest
      | false => exact .ok

namespace Arena

variable {a : Arena} {bound : Nat}

/-- The layout of a part is read in one step. -/
theorem pieces_ne_cyclic {p : Part} : a.pieces p ≠ .error .cyclic := by
  cases p <;> exact map_ne_cyclic fetch_ne_cyclic

/-- What is laid out to be opened is a part. -/
theorem hasPart_of_pieces {p q : Part} {pieces : List Piece} (h : a.pieces p = .ok pieces)
    (hq : .part q ∈ pieces) : a.HasPart p q := by
  obtain ⟨ps, hps⟩ := parts_of_pieces h
  obtain ⟨pieces', hpieces', hmem⟩ := pieces_of_parts hps
  obtain rfl := Except.ok.inj (h.symm.trans hpieces')
  exact ⟨ps, hps, (hmem q).mp hq⟩

/-- The words of a part are found by going on to its parts. -/
theorem wordsWithin_ends {p : Part} (h : ∀ q, a.HasPart p q → Ends (fun n => a.wordsWithin n q) bound) :
    Ends (fun n => a.wordsWithin n p) (bound + 1) := by
  refine .succ (.read_bind pieces_ne_cyclic fun pieces hpieces => ?_)
  exact Piece.spread_ends fun q hq => h q (hasPart_of_pieces hpieces hq)

/-- Two parts are compared by going on to pairs of their parts. -/
theorem alikeWithin_ends {x y : Part}
    (h : ∀ x' y', a.HasPart x x' → a.HasPart y y' → Ends (fun n => a.alikeWithin n x' y') bound) :
    Ends (fun n => a.alikeWithin n x y) (bound + 1) := by
  -- whatever the category, the demands are about parts of the one and of the other
  have hsettle {ds : List Demand} {ps qs : List Piece} (hx : a.pieces x = .ok ps)
      (hy : a.pieces y = .ok qs) (hfit : Demand.Fit ds ps qs) :
      Ends (fun n => Demand.settle (a.alikeWithin n) ds) bound := by
    refine Demand.settle_ends fun x' y' hxy => ?_
    obtain ⟨hx', hy'⟩ := hfit.within _ hxy
    exact h x' y' (hasPart_of_pieces hx hx') (hasPart_of_pieces hy hy')
  refine .succ ?_
  cases x <;> cases y
  case name.name x y =>
    by_cases hxy : x = y
    · simp only [alikeWithin, if_pos hxy]
      exact .ok
    · simp only [alikeWithin, if_neg hxy]
      refine .read_bind fetch_ne_cyclic fun j hj => .read_bind fetch_ne_cyclic fun k hk => ?_
      exact hsettle (map_eq_ok.mpr ⟨j, hj, rfl⟩) (map_eq_ok.mpr ⟨k, hk, rfl⟩) (j.fit k)
  case expr.expr x y =>
    by_cases hxy : x = y
    · simp only [alikeWithin, if_pos hxy]
      exact .ok
    · simp only [alikeWithin, if_neg hxy]
      refine .read_bind fetch_ne_cyclic fun j hj => .read_bind fetch_ne_cyclic fun k hk => ?_
      exact hsettle (map_eq_ok.mpr ⟨j, hj, rfl⟩) (map_eq_ok.mpr ⟨k, hk, rfl⟩) (j.fit k)
  case req.req x y =>
    refine .read_bind fetch_ne_cyclic fun j hj => .read_bind fetch_ne_cyclic fun k hk => ?_
    exact hsettle (map_eq_ok.mpr ⟨j, hj, rfl⟩) (map_eq_ok.mpr ⟨k, hk, rfl⟩) (j.fit k)
  all_goals exact .ok

/-! ## Declarations -/

/-- Looking through templates goes on to what a template wraps. -/
theorem coreWithin_ends {d : DeclId}
    (h : ∀ parms inner constraint, a.decl d = .ok (.template parms inner constraint) →
      Ends (fun n => a.coreWithin n inner) bound) :
    Ends (fun n => a.coreWithin n d) (bound + 1) := by
  refine .succ (.read_bind fetch_ne_cyclic fun kind hkind => ?_)
  cases kind with
  | template parms inner constraint => exact h parms inner constraint hkind
  | _ => exact .ok

end Arena

namespace Context

variable {cx : Context} {bound : Nat}

/-! ## Names -/

/-- A name is spelled by going on to the names that it is spelled through. -/
theorem spellWithin_ends {n : NameId} (hname : ∀ d, cx.arena.declName d ≠ .error .cyclic)
    (h : ∀ m, cx.SpellsThrough n m → Ends (fun steps => cx.spellWithin steps m) bound) :
    Ends (fun steps => cx.spellWithin steps n) (bound + 1) := by
  refine .succ (.read_bind fetch_ne_cyclic fun kind hkind => ?_)
  cases kind with
  | simple sym => exact .const fetch_ne_cyclic
  | placeholder | operator | destructor | global => exact .ok
  | template d args | concept d args =>
    refine .read_bind (hname d) fun m hm => ?_
    exact (h m (.applied hkind rfl hm)).bind fun _ _ => .ok
  | qualified scope name =>
    refine (h name (.member hkind)).bind fun inner _ => ?_
    by_cases hscope : scope = .globalNamespace
    · simp only [if_pos hscope]
      exact .ok
    · simp only [if_neg hscope]
      refine .read_bind (hname scope) fun m hm => ?_
      exact (h m (.scope hkind hscope hm)).bind fun _ _ => .ok

/-! ## Types -/

/-- The category of a type is told by going on to the type underneath. -/
theorem isValueTypeWithin_ends {ty : TypeId}
    (h : ∀ kind inner, cx.type ty = .ok kind → kind.underlying? = some inner →
      Ends (fun steps => cx.isValueTypeWithin steps inner) bound) :
    Ends (fun steps => cx.isValueTypeWithin steps ty) (bound + 1) := by
  refine .succ (.read_bind fetch_ne_cyclic fun kind hkind => ?_)
  cases kind with
  | qualified base quals => exact h _ base hkind rfl
  | wrapped wrapper inner =>
    have hinner : wrapper.isTransparent = true →
        Ends (fun steps => cx.isValueTypeWithin steps inner) bound := by
      intro htransparent
      exact h _ inner hkind (if_pos htransparent)
    cases wrapper with
    | reference | pointer | slice => exact .ok
    | input | output | mutable | consume | forward | pack => exact hinner rfl
  | auto | declauto | typename | decltype => exact .const nofun
  | _ => exact .ok

end Context

end TermGraph
