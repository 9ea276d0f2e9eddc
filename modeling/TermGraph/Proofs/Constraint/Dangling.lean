import TermGraph.Proofs.Acyclic
import TermGraph.Proofs.Outcome.Steps

/-!
# Dangling handles in constraints

A request for a constraint may pass handles that lead nowhere, and so may the
nodes that it names, since a node is stored without a look at the handles in
it.  Taking the words of the constraint enters every name, expression and
requirement reached from it (`Arena.Reached`), so a handle that leads nowhere
is met there, before anything is compared or filed.  The name written in an
id-expression is not entered, and whether there is such a name makes no
difference.

What is filed is therefore filed with its words, whatever handles were passed
before (`ConstraintTable.Filed.keeps`).  Words do not change, so what is stored
can be unfolded for ever, and comparing it with a constraint that has words
meets nothing that is not there.
-/

namespace TermGraph

open List Relation

/-- Pieces that cannot be spread have a part that cannot be opened. -/
theorem Piece.fault_of_spread {opened : Part → Except Fault (List Nat)} {ps : List Piece}
    {fault : Fault} (h : spread opened ps = .error fault) :
    ∃ p, .part p ∈ ps ∧ opened p = .error fault := by
  induction ps with
  | nil => cases h
  | cons piece rest ih =>
    have hrest (hfault : spread opened rest = .error fault) :
        ∃ p, .part p ∈ piece :: rest ∧ opened p = .error fault := by
      obtain ⟨p, hp, hopened⟩ := ih hfault
      exact ⟨p, mem_cons_of_mem _ hp, hopened⟩
    cases piece with
    | word w =>
      rcases bind_eq_error.mp h with hfault | ⟨_, _, hpure⟩
      · exact hrest hfault
      · cases hpure
    | part q =>
      rcases bind_eq_error.mp h with hfault | ⟨_, _, hthen⟩
      · exact ⟨q, mem_cons_self, hfault⟩
      · rcases bind_eq_error.mp hthen with hfault | ⟨_, _, hpure⟩
        · exact hrest hfault
        · cases hpure

namespace Context

variable {cx : Context} {k : ConstraintKind}

/-- The part is not there, and the fault is that of its handle. -/
def Missing (cx : Context) (p : Part) (fault : Fault) : Prop :=
  ¬ cx.Issued p.any.2 ∧ fault = .outOfBounds (cx.count p.any.1) p.any.2.index

/-- A part without a layout is missing. -/
theorem missing_of_pieces {p : Part} {fault : Fault} (h : cx.arena.pieces p = .error fault) :
    cx.Missing p fault := by
  have hfetch {α : Type} {table : Array α} {index : Nat} {f : α → List Piece}
      (h : f <$> fetch table index = .error fault) :
      ¬ index < table.size ∧ fault = .outOfBounds table.size index := by
    cases hread : fetch table index with
    | ok entry =>
      rw [hread] at h
      cases h
    | error other =>
      rw [hread] at h
      cases h
      obtain ⟨hpast, hfault⟩ := fetch_eq_error.mp hread
      exact ⟨Nat.not_lt.mpr hpast, hfault⟩
  cases p with
  | name n => exact hfetch h
  | expr e => exact hfetch h
  | req r => exact hfetch h

/-- A part whose words cannot be taken leads to a missing one, if the walk has
not run out of steps. -/
theorem missing_of_wordsWithin {n : Nat} {p : Part} {fault : Fault}
    (h : cx.arena.wordsWithin n p = .error fault) (hsteps : fault ≠ .cyclic) :
    ∃ q, ReflTransGen cx.arena.HasPart p q ∧ cx.Missing q fault := by
  induction n generalizing p with
  | zero =>
    cases h
    exact (hsteps rfl).elim
  | succ n ih =>
    rcases bind_eq_error.mp h with hfault | ⟨pieces, hpieces, hspread⟩
    · exact ⟨p, .refl, missing_of_pieces hfault⟩
    · obtain ⟨q, hq, hfault⟩ := Piece.fault_of_spread hspread
      obtain ⟨r, hreach, hmissing⟩ := ih hfault
      exact ⟨r, .head (Arena.hasPart_of_pieces hpieces hq) hreach, hmissing⟩

/-- **The words of a constraint.**  Where nothing reached from a constraint
contains itself, the words can be taken unless something reached is missing,
and then that is the fault. -/
theorem missing_of_constraintWords
    (hacyclic : ∀ p, cx.arena.Reached k p → ¬ TransGen cx.arena.HasPart p p) {fault : Fault}
    (h : cx.arena.constraintWords k = .error fault) :
    ∃ p, cx.arena.Reached k p ∧ cx.Missing p fault := by
  obtain ⟨p, hp, hfault⟩ := Piece.fault_of_spread h
  have hpart : p ∈ k.parts := k.mem_parts.mpr hp
  have hends := Arena.words_end (p := p) fun q hq => hacyclic q ⟨p, hpart, hq⟩
  have hsteps : fault ≠ .cyclic := by
    intro hcyclic
    exact hends.answers (hcyclic ▸ hfault)
  obtain ⟨q, hq, hmissing⟩ := missing_of_wordsWithin hfault hsteps
  exact ⟨q, ⟨p, hpart, hq⟩, hmissing⟩

/-- A constraint can be unfolded only if everything reached from it is there. -/
theorem issued_of_unfoldable (h : cx.arena.Unfoldable k) {p : Part} (hp : cx.arena.Reached k p) :
    cx.Issued p.any.2 := by
  obtain ⟨ps, hps⟩ := h.present p hp
  cases p <;>
    · obtain ⟨node, hnode, _⟩ := map_eq_ok.mp hps
      exact lt_of_fetch hnode

end Context

/-- **Filing is always in order.**  Every effect keeps the constraints filed by
their words: what has no words is not filed. -/
theorem ConstraintTable.Filed.keeps :
    Effect.Keeps fun cx => cx.constraints.Filed cx.arena where
  fitting cx e hcx _ := by
    by_cases hconstraint : ∃ kind, e = .constraint kind
    · obtain ⟨kind, rfl⟩ := hconstraint
      cases hwords : cx.arena.constraintWords kind with
      | error fault =>
        have hintern : cx.constraints.intern cx.arena kind = .error fault :=
          bind_eq_error.mpr (.inl hwords)
        simpa only [Effect.apply, hintern] using hcx
      | ok u =>
        rcases hcx.intern hwords with ⟨c, _, hintern⟩ | ⟨hnew, hintern⟩
        · simpa only [Effect.apply, hintern] using hcx
        · simpa only [Effect.apply, hintern] using hcx.insert hwords hnew
    · rw [Effect.constraints_apply fun kind hkind => hconstraint ⟨kind, hkind⟩]
      exact hcx.later (e.precedes_apply cx).arena
  linking cx d body hcx := hcx.later (Effect.precedes_apply cx (.link d body)).arena

namespace Workspace

variable {w : Workspace} {k : ConstraintKind}

/-- After any run the constraints are filed by their words. -/
theorem filed_reached (config : Config) (digest : List Nat → UInt64) (commands : List Command) :
    (reached config digest commands).context.constraints.Filed
      (reached config digest commands).context.arena :=
  ConstraintTable.Filed.keeps.reached config digest (ConstraintTable.filed_fresh digest _) commands

/-- A request for a constraint without words fails and changes nothing. -/
theorem step_constraint_error {fault : Fault} (h : w.context.arena.constraintWords k = .error fault) :
    w.step (.ask (.constraint k)) = (.error (.broken fault), w) := by
  have hintern : w.context.constraints.intern w.context.arena k = .error fault :=
    bind_eq_error.mpr (.inl h)
  exact step_node_error rfl (by simp only [Build.runOn, Build.internConstraint, hintern])

/-- How a request for a constraint comes out. -/
structure FailsOnlyDangling (w : Workspace) (k : ConstraintKind) : Prop where
  /-- It fails if and only if something reached from the constraint is missing. -/
  fails_iff : (∃ failure, (w.step (.ask (.constraint k))).1 = .error failure) ↔
    ∃ p, w.context.arena.Reached k p ∧ ¬ w.context.Issued p.any.2
  /-- Then the fault is that of a missing handle, and nothing is changed. -/
  failed : ∀ failure, (w.step (.ask (.constraint k))).1 = .error failure →
    (w.step (.ask (.constraint k))).2 = w ∧
      ∃ p fault, failure = .broken fault ∧ w.context.arena.Reached k p ∧ w.context.Missing p fault
  /-- Otherwise comparing the constraint with those stored comes to an answer,
  and so does the request. -/
  answered : ∀ answer, (w.step (.ask (.constraint k))).1 = .ok answer →
    (∃ c, answer = .node .constraint c) ∧
      ∀ c stored, w.context.constraint c = .ok stored →
        ∃ b, w.context.arena.constraintsAlike stored k = .ok b

/-- A constraint without words leads to something missing, and the request says
so. -/
theorem failsOnlyDangling_of_error {fault : Fault}
    (hwords : w.context.arena.constraintWords k = .error fault)
    (hacyclic : ∀ p, w.context.arena.Reached k p → ¬ TransGen w.context.arena.HasPart p p) :
    w.FailsOnlyDangling k := by
  have hstep := step_constraint_error hwords
  obtain ⟨p, hp, hmissing⟩ := Context.missing_of_constraintWords hacyclic hwords
  refine ⟨⟨fun _ => ⟨p, hp, hmissing.1⟩, fun _ => ⟨_, congrArg Prod.fst hstep⟩⟩, ?_, ?_⟩
  · intro failure hfailure
    rw [hstep] at hfailure ⊢
    cases hfailure
    exact ⟨rfl, p, fault, rfl, hp, hmissing⟩
  · intro answer hanswer
    rw [hstep] at hanswer
    cases hanswer

/-- A constraint with words leads to nothing that is missing, and the request is
answered. -/
theorem failsOnlyDangling_of_ok (hw : w.context.constraints.Filed w.context.arena) {u : List Nat}
    (hwords : w.context.arena.constraintWords k = .ok u) : w.FailsOnlyDangling k := by
  have hunfoldable : w.context.arena.Unfoldable k := Arena.unfoldable_iff.mpr ⟨u, hwords⟩
  obtain ⟨c, hstep⟩ : ∃ c, (w.step (.ask (.constraint k))).1 = .ok (.node .constraint c) := by
    rcases step_constraint hw hwords with ⟨c, _, hstep⟩ | ⟨_, hstep⟩
    · exact ⟨c, congrArg Prod.fst hstep⟩
    · exact ⟨_, congrArg Prod.fst hstep⟩
  have hno : ∀ failure, (w.step (.ask (.constraint k))).1 ≠ .error failure := by
    intro failure hfailure
    rw [hstep] at hfailure
    cases hfailure
  refine ⟨⟨fun ⟨failure, hfailure⟩ => (hno failure hfailure).elim, ?_⟩,
    fun failure hfailure => (hno failure hfailure).elim, ?_⟩
  · intro hdangling
    obtain ⟨p, hp, habsent⟩ := hdangling
    exact absurd (Context.issued_of_unfoldable hunfoldable hp) habsent
  · intro answer hanswer
    rw [hstep] at hanswer
    cases hanswer
    refine ⟨⟨c, rfl⟩, fun c stored hc => ?_⟩
    obtain ⟨v, hv⟩ := hw.hasWords c stored hc
    obtain ⟨b, hb, _⟩ := Arena.constraintsAlike_eq_ok hv hwords
    exact ⟨b, hb⟩

/-- Without a cycle below the constraint, asking for it fails only where a handle
dangles. -/
theorem failsOnlyDangling (hw : w.context.constraints.Filed w.context.arena)
    (hacyclic : ∀ p, w.context.arena.Reached k p → ¬ TransGen w.context.arena.HasPart p p) :
    w.FailsOnlyDangling k := by
  cases hwords : w.context.arena.constraintWords k with
  | error fault => exact failsOnlyDangling_of_error hwords hacyclic
  | ok u => exact failsOnlyDangling_of_ok hw hwords

/-- **A constraint request fails only on its own dangling handles.**  This holds
after any run, whatever handles it passed, of every constraint from which
nothing is reached that contains itself.  And whatever constraint is stored
stays stored in every later state, where everything reached from it is there and
does not contain itself. -/
theorem constraints_resolve (config : Config) (digest : List Nat → UInt64)
    (commands : List Command) (k : ConstraintKind)
    (hacyclic : ∀ p, (reached config digest commands).context.arena.Reached k p →
      ¬ TransGen (reached config digest commands).context.arena.HasPart p p) :
    (reached config digest commands).FailsOnlyDangling k ∧
      ∀ c stored, (reached config digest commands).context.constraint c = .ok stored →
        ∀ rest, (reached config digest (commands ++ rest)).context.constraint c = .ok stored ∧
          (reached config digest (commands ++ rest)).context.arena.Unfoldable stored := by
  refine ⟨failsOnlyDangling (filed_reached config digest commands) hacyclic, ?_⟩
  intro c stored hc rest
  have hlater := fetch_later (reached_precedes config digest commands rest).constraints hc
  have hwords := (filed_reached config digest (commands ++ rest)).hasWords c stored hlater
  exact ⟨hlater, Arena.unfoldable_iff.mpr hwords⟩

/-- A conjunction of which the second operand leads nowhere, and a constraint by
the first. -/
def danglingRun : List Command :=
  [.ask (.expr (.boolean true)), .ask (.expr (.binary .and ⟨0⟩ ⟨9⟩)),
    .ask (.constraint (.predicate ⟨0⟩))]

/-- Only the conjunction has parts, and it is none of them. -/
theorem hasPart_danglingRun {p q : Part}
    (h : (reached .standard ConstraintTable.polynomialDigest danglingRun).context.arena.HasPart p q) :
    p = .expr ⟨1⟩ ∧ q ≠ .expr ⟨1⟩ := by
  obtain ⟨ps, hps, hq⟩ := h
  cases p with
  | name n =>
    obtain ⟨kind, hkind, rfl⟩ := map_eq_ok.mp hps
    obtain rfl := Array.mem_singleton.mp (Array.mem_of_getElem? (fetch_eq_ok.mp hkind))
    cases hq
  | req r =>
    obtain ⟨kind, hkind, _⟩ := map_eq_ok.mp hps
    exact (Nat.not_lt_zero _ (lt_of_fetch hkind)).elim
  | expr e =>
    obtain ⟨found, hfound, rfl⟩ := map_eq_ok.mp hps
    obtain ⟨index⟩ := e
    match index, fetch_eq_ok.mp hfound with
    | 0, hread =>
      cases hread
      cases hq
    | 1, hread =>
      cases hread
      refine ⟨rfl, ?_⟩
      rcases List.mem_pair.mp hq with rfl | rfl <;> decide

/-- The constraint by the conjunction fails, the one that is stored resolves,
and it does so after another run. -/
theorem constraints_resolve_danglingRun :
    (∀ p, (reached .standard ConstraintTable.polynomialDigest danglingRun).context.arena.Reached
        (.predicate ⟨1⟩) p →
      ¬ TransGen (reached .standard ConstraintTable.polynomialDigest danglingRun).context.arena.HasPart
        p p) ∧
    (∃ failure, ((reached .standard ConstraintTable.polynomialDigest danglingRun).step
      (.ask (.constraint (.predicate ⟨1⟩)))).1 = .error failure) ∧
    (reached .standard ConstraintTable.polynomialDigest
      (danglingRun ++ [.ask (.expr (.boolean false))])).context.arena.Unfoldable (.predicate ⟨0⟩) := by
  have hacyclic : ∀ p, (reached .standard ConstraintTable.polynomialDigest
      danglingRun).context.arena.Reached (.predicate ⟨1⟩) p →
      ¬ TransGen (reached .standard ConstraintTable.polynomialDigest
        danglingRun).context.arena.HasPart p p := by
    intro p _ hcycle
    obtain ⟨q, hfirst, _⟩ := TransGen.head'_iff.mp hcycle
    obtain ⟨r, _, hlast⟩ := TransGen.tail'_iff.mp hcycle
    exact (hasPart_danglingRun hlast).2 (hasPart_danglingRun hfirst).1
  obtain ⟨houtcome, hstored⟩ :=
    constraints_resolve .standard ConstraintTable.polynomialDigest danglingRun (.predicate ⟨1⟩) hacyclic
  refine ⟨hacyclic, houtcome.fails_iff.mpr ⟨.expr ⟨9⟩, ?_, by decide⟩, ?_⟩
  · exact ⟨.expr ⟨1⟩, List.mem_singleton_self _, .single ⟨[.expr ⟨0⟩, .expr ⟨9⟩], rfl, by decide⟩⟩
  · exact (hstored ⟨0⟩ (.predicate ⟨0⟩) rfl [.ask (.expr (.boolean false))]).2

end Workspace

end TermGraph
