import TermGraph.Proofs.Termination

/-!
# Reading without leaving the tables

There are three ways to fault: a handle leads outside its table, a walk goes in
circles, or a rule of the term model is broken.  The first two are ruled out
where the context is *whole* (`Context.Whole`): all its handles have been
issued, its nodes are ranked, its constraints are filed, and every symbol in it
has a spelling.  What is then read by an issued handle is read, or a rule was
broken; there is one lemma for each way of reading.

For the walks this takes two steps.  That no handle on the way leads outside a
table is an induction on the steps taken, whatever their number; that the steps
suffice is known already (`Context.Walks`).  For the names of declarations the
first step is taken in every *intact* context (`Context.Intact`), which may be
built in any order and in which declarations may have no name: a walk that goes
wrong there met such a declaration, or it ran out of steps.
-/

namespace TermGraph

open List Relation

/-! ## Faults -/

/-- The fault is not that a handle led outside its table. -/
def Fault.Inside : Fault → Prop
  | .outOfBounds _ _ => False
  | .violated _ | .cyclic => True

/-- The fault is that a rule of the term model was broken. -/
def Fault.BreaksRule : Fault → Prop
  | .violated _ => True
  | .outOfBounds _ _ | .cyclic => False

/-- If the computation faults, then in one of the ways allowed. -/
def FaultsOnly {α : Type} (allowed : Fault → Prop) (x : Except Fault α) : Prop :=
  ∀ fault, x = .error fault → allowed fault

namespace FaultsOnly

variable {α β : Type} {allowed : Fault → Prop} {x : Except Fault α}

/-- An answer is no fault. -/
theorem ok {a : α} : FaultsOnly allowed (.ok a) := nofun

/-- A fault that is allowed. -/
theorem error {fault : Fault} (h : allowed fault) : FaultsOnly allowed (.error fault : Except Fault α) := by
  intro fault' hfault
  cases hfault
  exact h

/-- Two computations in a row fault as either does. -/
theorem bind {f : α → Except Fault β} (h : FaultsOnly allowed x)
    (hf : ∀ a, x = .ok a → FaultsOnly allowed (f a)) : FaultsOnly allowed (x >>= f) := by
  cases x with
  | error fault => exact error (h fault rfl)
  | ok a => exact hf a rfl

/-- What is done to an answer does not fault. -/
theorem map {f : α → β} (h : FaultsOnly allowed x) : FaultsOnly allowed (f <$> x) := by
  cases x with
  | error fault => exact error (h fault rfl)
  | ok a => exact ok

/-- Reading at an index of the table does not fault. -/
theorem fetch {table : Array α} {index : Nat} (h : index < table.size) :
    FaultsOnly allowed (TermGraph.fetch table index) := by
  obtain ⟨entry, hentry⟩ := exists_fetch h
  rw [hentry]
  exact ok

/-- Going through a list faults as one of its elements does. -/
theorem mapM {f : α → Except Fault β} {xs : List α} (h : ∀ a ∈ xs, FaultsOnly allowed (f a)) :
    FaultsOnly allowed (xs.mapM f) := by
  induction xs with
  | nil => exact ok
  | cons a rest ih =>
    have hrest : FaultsOnly allowed (rest.mapM f) := ih fun b hb => h b (mem_cons_of_mem _ hb)
    rw [mapM_cons]
    exact (h a mem_cons_self).bind fun _ _ => hrest.bind fun _ _ => ok

/-- What can only walk in circles, and does not, does not fault. -/
theorem never (h : FaultsOnly (· = .cyclic) x) (hends : x ≠ .error .cyclic) :
    FaultsOnly allowed x := by
  intro fault hfault
  obtain rfl := h fault hfault
  exact absurd hfault hends

/-- What does not fault has an answer. -/
theorem exists_ok (h : FaultsOnly (fun _ => False) x) : ∃ a, x = .ok a := by
  cases x with
  | error fault => exact (h fault rfl).elim
  | ok a => exact ⟨a, rfl⟩

/-- What stays inside the tables and comes to an end can only break a rule. -/
theorem breaksRule (h : FaultsOnly Fault.Inside x) (hends : x ≠ .error .cyclic) :
    FaultsOnly Fault.BreaksRule x := by
  intro fault hfault
  cases fault with
  | violated rule => trivial
  | cyclic => exact hends hfault
  | outOfBounds len index => exact h _ hfault

end FaultsOnly

namespace Context

variable {cx cx' : Context}

/-! ## One step from an issued handle -/

namespace Issued

variable {allowed : Fault → Prop}

/-- A node is looked up by its issued handle, whatever its category. -/
theorem lookUp {c : Category} {id : Handle c} (h : cx.Issued id) :
    FaultsOnly allowed (cx.lookUp c id) := by
  cases c <;> exact (FaultsOnly.fetch h).map

/-- What a declaration stands for is found in one step. -/
theorem parameterized {d : DeclId} (h : cx.Issued d) :
    FaultsOnly allowed (cx.arena.parameterized d) := by
  refine .bind (.fetch h) fun kind _ => ?_
  cases kind <;> exact .ok

/-- A type is split in one step. -/
theorem splitQualifiers {ty : TypeId} (h : cx.Issued ty) :
    FaultsOnly allowed (cx.splitQualifiers ty) := by
  refine .bind (.fetch h) fun kind _ => ?_
  cases kind <;> exact .ok

/-- What is declared may be no parameter, but it is declared. -/
theorem parameterType {d : DeclId} (h : cx.Issued d) :
    FaultsOnly Fault.BreaksRule (cx.arena.parameterType d) := by
  refine .bind (.fetch h) fun kind _ => ?_
  cases kind <;> first | exact .ok | exact .error trivial

end Issued

/-! ## Spelled contexts -/

/-- The symbol has been given to a spelling. -/
def HasSymbol (cx : Context) (sym : Symbol) : Prop := sym.index < cx.symbols.size

instance (cx : Context) (sym : Symbol) : Decidable (cx.HasSymbol sym) :=
  inferInstanceAs (Decidable (sym.index < cx.symbols.size))

/-- Every symbol in a name has a spelling. -/
def Spelled (cx : Context) : Prop :=
  ∀ n sym, cx.arena.name n = .ok (.simple sym) → cx.HasSymbol sym

/-- A symbol of the table is spelled. -/
theorem HasSymbol.exists_spelling {sym : Symbol} (h : cx.HasSymbol sym) :
    ∃ s, cx.symbols.lookup sym = .ok s :=
  exists_fetch h

/-- Symbols stay in the table. -/
theorem HasSymbol.later {sym : Symbol} (h : cx.HasSymbol sym) (hle : cx.Precedes cx') :
    cx'.HasSymbol sym := by
  have hsize := hle.spellings.length_le
  exact Nat.lt_of_lt_of_le h hsize

/-- At first there are no names but that of the global namespace. -/
theorem spelled_create (config : Config) (digest : List Nat → UInt64) :
    (create config digest).Spelled := by
  intro n sym h
  have hname : .simple sym ∈ Arena.fresh.names := mem_of_fetch h
  simp [Arena.fresh] at hname

/-- An effect keeps the names spelled, if the symbol in a name that it stores has
a spelling. -/
theorem Spelled.apply (hcx : cx.Spelled) {e : Effect}
    (he : ∀ sym, e = .name (.simple sym) → cx.HasSymbol sym) : (e.apply cx).Spelled := by
  intro n sym h
  have hle := e.precedes_apply cx
  rcases Effect.name_apply h with hold | hnew
  · exact (hcx n sym hold).later hle
  · exact (he sym hnew).later hle

/-! ## Intact contexts -/

/-- What the stored names and declarations mention is there, except that a
declaration may have no name. -/
structure Intact (cx : Context) : Prop where
  names : ∀ kind ∈ cx.arena.names, cx.AllIssued kind.handles
  spelled : cx.Spelled
  decls : ∀ kind ∈ cx.arena.decls, ∀ x ∈ kind.handles,
    cx.Issued x.2 ∨ (kind.name? = some .invalid ∧ x = (Handle.invalid : NameId).any)

/-- A stored declaration has no name. -/
def HasAnonymous (cx : Context) : Prop := ∃ kind ∈ cx.arena.decls, kind.name? = some .invalid

/-- How spelling a name goes wrong: a missing name is spelled for it, or the walk
does not come to an end. -/
def Unspelled (cx : Context) (n : NameId) (fault : Fault) : Prop :=
  fault = .cyclic ∨ ∃ m, ReflTransGen cx.SpellsThrough n m ∧ ¬ cx.Issued m ∧
    fault = .outOfBounds (cx.count .name) m.index

/-- A name goes wrong with any name that it is spelled through. -/
theorem Unspelled.through {n m : NameId} {fault : Fault} (h : cx.SpellsThrough n m)
    (hm : cx.Unspelled m fault) : cx.Unspelled n fault := by
  rcases hm with hcyclic | ⟨l, hreach, hmissing, hfault⟩
  · exact .inl hcyclic
  · exact .inr ⟨l, .head h hreach, hmissing, hfault⟩

namespace Intact

variable {d : DeclId} {n m : NameId}

/-- A name that a declaration has is there, or the declaration has none. -/
theorem declName (hcx : cx.Intact) (h : cx.arena.declName d = .ok n) :
    cx.Issued n ∨ (n = .invalid ∧ cx.HasAnonymous) := by
  obtain ⟨⟨core, kind⟩, hcore, rfl⟩ := map_eq_ok.mp h
  obtain ⟨hread, hplain⟩ := Arena.coreWithin_eq_ok hcore
  have hstored : kind ∈ cx.arena.decls := mem_of_fetch hread
  have hname : (kind.name?.getD .invalid).any ∈ kind.handles := DeclKind.name_mem_handles hplain
  rcases hcx.decls kind hstored _ hname with hissued | ⟨hnone, _⟩
  · exact .inl hissued
  · refine .inr ⟨?_, kind, hstored, hnone⟩
    show kind.name?.getD .invalid = .invalid
    rw [hnone]
    rfl

/-- What a template wraps is there. -/
theorem wrapped (hcx : cx.Intact) {parms : List DeclId} {inner : DeclId}
    {constraint : Option ExprId} (h : cx.arena.decl d = .ok (.template parms inner constraint)) :
    cx.Issued inner := by
  rcases hcx.decls _ (mem_of_fetch h) inner.any mem_cons_self with hissued | ⟨hnone, _⟩
  · exact hissued
  · cases hnone

/-- Every step of the walk through templates lands inside the table, however many
are taken. -/
theorem coreWithin_inside (hcx : cx.Intact) {steps : Nat} (hd : cx.Issued d) :
    FaultsOnly (· = .cyclic) (cx.arena.coreWithin steps d) := by
  induction steps generalizing d with
  | zero => exact .error rfl
  | succ steps ih =>
    refine .bind (.fetch hd) fun kind hkind => ?_
    cases kind with
    | template parms inner constraint => exact ih (hcx.wrapped hkind)
    | _ => exact .ok

/-- So does the walk for the name of a declaration. -/
theorem declName_inside (hcx : cx.Intact) (hd : cx.Issued d) :
    FaultsOnly (· = .cyclic) (cx.arena.declName d) :=
  (hcx.coreWithin_inside hd).map

/-- A name that another is spelled through is there, or it is that of a
declaration that has none. -/
theorem spellsThrough (hcx : cx.Intact) (h : cx.SpellsThrough n m) :
    cx.Issued m ∨ (m = .invalid ∧ cx.HasAnonymous) := by
  cases h with
  | applied hn hd hm | scope hn hscope hm => exact hcx.declName hm
  | member hn =>
    have hissued := hcx.names _ (mem_of_fetch hn)
    simp only [NameKind.handles, allIssued_cons] at hissued
    exact .inl hissued.2.1

/-- So is what is spelled for the name of a declaration. -/
theorem reached (hcx : cx.Intact) (hn : cx.arena.declName d = .ok n)
    (hreach : ReflTransGen cx.SpellsThrough n m) :
    cx.Issued m ∨ (m = .invalid ∧ cx.HasAnonymous) := by
  rcases hreach.cases_tail with rfl | ⟨l, _, hlast⟩
  · exact hcx.declName hn
  · exact hcx.spellsThrough hlast

/-- Spelling goes on to the names that a name is spelled through, and can go
wrong nowhere else. -/
theorem spellWithin_unspelled (hcx : cx.Intact) {steps : Nat} :
    FaultsOnly (cx.Unspelled n) (cx.spellWithin steps n) := by
  induction steps generalizing n with
  | zero => exact .error (.inl rfl)
  | succ steps ih =>
    by_cases hn : cx.Issued n
    · refine .bind (.fetch hn) fun kind hkind => ?_
      have hissued := hcx.names kind (mem_of_fetch hkind)
      have hname {d : DeclId} (hd : cx.Issued d) :
          FaultsOnly (cx.Unspelled n) (cx.arena.declName d) :=
        fun fault hfault => .inl (hcx.declName_inside hd fault hfault)
      have hgo {m : NameId} (hm : cx.SpellsThrough n m) :
          FaultsOnly (cx.Unspelled n) (cx.spellWithin steps m) :=
        fun fault hfault => (ih fault hfault).through hm
      cases kind with
      | simple sym => exact .fetch (hcx.spelled n sym hkind)
      | placeholder | operator | destructor | global => exact .ok
      | template d args | concept d args =>
        refine .bind (hname (allIssued_cons.mp hissued).1) fun m hm => ?_
        exact .bind (hgo (.applied hkind rfl hm)) fun _ _ => .ok
      | qualified scope name =>
        refine .bind (hgo (.member hkind)) fun inner _ => ?_
        by_cases hscope : scope = .globalNamespace
        · rw [if_pos hscope]
          exact .ok
        · rw [if_neg hscope]
          refine .bind (hname (allIssued_cons.mp hissued).1) fun m hm => ?_
          exact .bind (hgo (.scope hkind hscope hm)) fun _ _ => .ok
    · intro fault hfault
      rcases bind_eq_error.mp hfault with hread | ⟨kind, hkind, _⟩
      · obtain ⟨_, rfl⟩ := fetch_eq_error.mp hread
        exact .inr ⟨n, .refl, hn, rfl⟩
      · exact absurd (lt_of_fetch hkind) hn

end Intact

/-! ## Whole contexts -/

/-- Nothing that is read on the way from an issued handle is missing. -/
structure Whole (cx : Context) : Prop where
  closed : cx.Closed
  orderly : cx.Orderly
  rankable : cx.Rankable
  spelled : cx.Spelled

/-- A new context is whole. -/
theorem whole_create (config : Config) (digest : List Nat → UInt64) :
    (create config digest).Whole :=
  ⟨closed_create config digest, orderly_create config digest, rankable_create config digest,
    spelled_create config digest⟩

namespace Whole

variable {allowed : Fault → Prop}

/-- Growth keeps a context whole, if the names stay spelled. -/
theorem grows (hcx : cx.Whole) (h : cx.Grows cx') (hspelled : cx'.Spelled) : cx'.Whole :=
  ⟨h.closed hcx.closed, h.orderly hcx.orderly, h.rankable hcx.closed hcx.rankable, hspelled⟩

/-- A whole context is intact, and every declaration in it has a name. -/
theorem intact (hcx : cx.Whole) : cx.Intact where
  names := hcx.closed.names
  spelled := hcx.spelled
  decls kind hkind x hx := .inl (hcx.closed.decls kind hkind x hx)

/-- The walks of a whole context end, because its nodes are ranked. -/
theorem walks (hcx : cx.Whole) : cx.Walks := by
  obtain ⟨rank, _, hrank, _⟩ := hcx.rankable
  exact hrank.walks hcx.closed

/-! ## Declarations and their names -/

/-- The declaration inside all templates is found. -/
theorem core (hcx : cx.Whole) {d : DeclId} (hd : cx.Issued d) :
    FaultsOnly allowed (cx.arena.core d) :=
  (hcx.intact.coreWithin_inside hd).never (hcx.walks.core d).answers

/-- The name of a declaration is found. -/
theorem declName (hcx : cx.Whole) {d : DeclId} (hd : cx.Issued d) :
    FaultsOnly allowed (cx.arena.declName d) :=
  (hcx.core hd).map

/-- The definition of a declaration is found, if what is declared takes one. -/
theorem definitionOf (hcx : cx.Whole) {d : DeclId} (hd : cx.Issued d) :
    FaultsOnly Fault.BreaksRule (cx.arena.definitionOf d) := by
  refine .bind hd.parameterized fun target htarget => ?_
  refine .bind (.fetch (hcx.closed.parameterized hd htarget)) fun kind _ => ?_
  cases kind <;> first | exact .ok | exact .error trivial

/-! ## Spelling -/

/-- All that is spelled for a name is there. -/
theorem spells (hcx : cx.Whole) {n m : NameId} (hn : cx.Issued n)
    (hreach : ReflTransGen cx.SpellsThrough n m) : cx.Issued m := by
  rcases hreach.cases_tail with rfl | ⟨l, _, hlast⟩
  · exact hn
  · cases hlast with
    | applied _ _ hm | scope _ _ hm => exact hcx.closed.declName hm
    | member hl =>
      have hissued := hcx.closed.names _ (mem_of_fetch hl)
      simp only [NameKind.handles, allIssued_cons] at hissued
      exact hissued.2.1

/-- A name is spelled: the walk ends, and none of the names on it is missing. -/
theorem spell (hcx : cx.Whole) {n : NameId} (hn : cx.Issued n) :
    FaultsOnly allowed (cx.spell n) := by
  refine .never (fun fault hfault => ?_) (hcx.walks.spell n).answers
  rcases hcx.intact.spellWithin_unspelled fault hfault with hcyclic | ⟨m, hreach, hmissing, _⟩
  · exact hcyclic
  · exact absurd (hcx.spells hn hreach) hmissing

/-- A declaration is spelled by its name, or as one that has none. -/
theorem spellDecl (hcx : cx.Whole) {d : DeclId} (hd : cx.Issued d) :
    FaultsOnly allowed (cx.spellDecl d) := by
  refine .bind (hcx.declName hd) fun n hn => ?_
  by_cases hvalid : n.isValid = true
  · rw [if_pos hvalid]
    exact hcx.spell (hcx.closed.declName hn)
  · rw [if_neg hvalid]
    exact .ok

/-! ## Types -/

/-- The value type of an expression is found: its type, what that refers to, and
what is under the qualifiers. -/
theorem valueTypeOf (hcx : cx.Whole) {e : ExprId} (he : cx.Issued e) :
    FaultsOnly allowed (cx.valueTypeOf e) := by
  refine .bind (FaultsOnly.fetch he).map fun ty hty => ?_
  obtain ⟨x, hx, rfl⟩ := map_eq_ok.mp hty
  have hissued : cx.Issued x.ty := hcx.closed.exprs x (mem_of_fetch hx) _ mem_cons_self
  have hsplit : ∀ stripped, cx.Issued stripped →
      FaultsOnly allowed (do return (← cx.splitQualifiers stripped).1) :=
    fun stripped hstripped => .bind hstripped.splitQualifiers fun _ _ => .ok
  refine .bind (.fetch hissued) fun kind hkind => ?_
  have hparts := hcx.closed.type hkind
  split
  · exact hsplit _ (allIssued_cons.mp hparts).1
  · exact hsplit _ hissued

/-- Looking for a value type stays inside the table, however many steps are
taken. -/
theorem isValueTypeWithin_inside (hcx : cx.Whole) {steps : Nat} {ty : TypeId} (hty : cx.Issued ty) :
    FaultsOnly Fault.Inside (cx.isValueTypeWithin steps ty) := by
  induction steps generalizing ty with
  | zero => exact .error trivial
  | succ steps ih =>
    refine .bind (.fetch hty) fun kind hkind => ?_
    have hissued := hcx.closed.type hkind
    cases kind with
    | qualified base quals => exact ih (allIssued_cons.mp hissued).1
    | wrapped wrapper inner =>
      have hinner := ih (allIssued_cons.mp hissued).1
      cases wrapper with
      | reference | pointer | slice => exact .ok
      | input | output | mutable | consume | forward | pack => exact hinner
    | auto | declauto | typename | decltype => exact .error trivial
    | _ => exact .ok

/-- Whether a type is a value type is found out, or the type is none that can be
asked about. -/
theorem isValueType (hcx : cx.Whole) {ty : TypeId} (hty : cx.Issued ty) :
    FaultsOnly Fault.BreaksRule (cx.isValueType ty) :=
  (hcx.isValueTypeWithin_inside hty).breaksRule (hcx.walks.isValueType ty).answers

/-! ## Structure -/

/-- Expressions are compared. -/
theorem exprsAlike (hcx : cx.Whole) {x y : ExprId} (hx : cx.Issued x) (hy : cx.Issued y) :
    FaultsOnly allowed (cx.arena.exprsAlike x y) := by
  have hwords : ∀ e : ExprId, cx.Issued e → ∃ u, cx.arena.partWords (.expr e) = .ok u :=
    fun e he => hcx.orderly.readable.partWords (p := .expr e) he
  obtain ⟨u, hu⟩ := hwords x hx
  obtain ⟨v, hv⟩ := hwords y hy
  obtain ⟨b, hb, _⟩ := cx.arena.decides_alikeWithin cx.arena.depthBound hu hv
  intro fault hfault
  have hok : cx.arena.exprsAlike x y = .ok b := hb
  rw [hok] at hfault
  cases hfault

/-- Interning a constraint between issued handles does not fault at all. -/
theorem intern (hcx : cx.Whole) {kind : ConstraintKind} (h : cx.AllIssued kind.handles) :
    FaultsOnly allowed (cx.constraints.intern cx.arena kind) := by
  obtain ⟨u, hu⟩ := hcx.orderly.readable.constraintWords h
  rcases hcx.orderly.filed.intern hu with ⟨c, _, hfound⟩ | ⟨_, hfiled⟩
  · rw [hfound]
    exact .ok
  · rw [hfiled]
    exact .ok

end Whole

end Context

end TermGraph
