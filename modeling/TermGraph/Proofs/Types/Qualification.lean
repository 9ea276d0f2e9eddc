import TermGraph.Proofs.Types.Layers

/-!
# Qualification in turn

Qualifiers are sets, and qualifying a type by one set after another comes to
qualifying it by all of them at once.  That is so whatever the sets are, the
empty one and repeated ones included, whatever qualifiers the type has to
begin with, and whatever else is asked for between two of the requests.

What carries this is one fact about one request (`Formed.qualifiedType_found`).
Taken apart, a type is a base and a set of qualifiers, and no two types come
apart into the same (`Formed.eq_of_splitQualifiers`).  So a request for
qualifiers is answered with the one type that comes apart into the base and the
union of the sets, and if that type is there nothing is stored.

By induction on the requests in turn, what they end at comes apart into the
base and the union of all sets (`Workspace.layered_qualifying`).  Unions do not
ask for the order of sets, so neither do requests
(`Workspace.qualified_in_turn`).
-/

namespace TermGraph

/-! ## Sets of qualifiers -/

namespace Qualifiers

/-- Every qualifier of the one set is in the other. -/
instance : HasSubset Qualifiers :=
  ⟨fun p q => (p.const = true → q.const = true) ∧ (p.volatile = true → q.volatile = true)⟩

instance (p q : Qualifiers) : Decidable (p ⊆ q) :=
  inferInstanceAs (Decidable ((_ → _) ∧ (_ → _)))

/-- All qualifiers of any of the sets. -/
def unions (sets : List Qualifiers) : Qualifiers := sets.foldr union none

@[simp] theorem unions_nil : unions [] = none := rfl

@[simp] theorem unions_cons (quals : Qualifiers) (sets : List Qualifiers) :
    unions (quals :: sets) = quals.union (unions sets) := rfl

/-- Sets may be united in any grouping. -/
theorem union_assoc (p q r : Qualifiers) : (p.union q).union r = p.union (q.union r) := by
  simp only [union, Bool.or_assoc]

/-- Sets may be united in any order. -/
theorem union_left_comm (p q r : Qualifiers) : p.union (q.union r) = q.union (p.union r) := by
  simp only [union, Bool.or_left_comm]

/-- To add no qualifiers changes nothing. -/
@[simp] theorem union_none (quals : Qualifiers) : quals.union none = quals := by
  simp only [union, none, Bool.or_false]

/-- The one set with nothing in it. -/
theorem isEmpty_iff {quals : Qualifiers} : quals.isEmpty = true ↔ quals = none := by
  rcases quals with ⟨_ | _, _ | _⟩ <;> decide

/-- A set takes in its subsets. -/
theorem union_of_subset {p q : Qualifiers} (h : p ⊆ q) : q.union p = q := by
  obtain ⟨hconst, hvolatile⟩ := h
  rcases p with ⟨_ | _, _ | _⟩ <;> rcases q with ⟨_ | _, _ | _⟩ <;> simp_all [union]

/-- The order of sets makes no difference to their union. -/
theorem unions_perm {sets sets' : List Qualifiers} (h : sets.Perm sets') :
    unions sets = unions sets' := by
  induction h with
  | nil => rfl
  | cons quals _ ih => rw [unions_cons, unions_cons, ih]
  | swap p q rest => exact union_left_comm q p (unions rest)
  | trans _ _ ih ih' => exact ih.trans ih'

end Qualifiers

/-! ## One request -/

namespace Context

variable {cx : Context}

/-- Every stored type comes apart into a base without qualifiers and a set of
them. -/
theorem Formed.exists_splitQualifiers (hcx : cx.Formed) {ty : TypeId} (hty : cx.Issued ty) :
    ∃ base held, cx.splitQualifiers ty = .ok (base, held) ∧ cx.IsBare base := by
  obtain ⟨kind, hkind⟩ := exists_fetch hty
  obtain ⟨base, held, hsplit, hbare, _⟩ := hcx.requalify hkind
  exact ⟨base, held, hsplit, hbare⟩

/-- **No two types come apart into the same.** -/
theorem Formed.eq_of_splitQualifiers (hcx : cx.Formed) {ty ty' base : TypeId} {quals : Qualifiers}
    (h : cx.splitQualifiers ty = .ok (base, quals))
    (h' : cx.splitQualifiers ty' = .ok (base, quals)) : ty = ty' := by
  -- qualifiers that stand around a base are some
  have hsome {outer : TypeId} (houter : cx.type outer = .ok (.qualified base quals)) :
      quals ≠ .none := by
    rintro rfl
    have hempty : Qualifiers.none.isEmpty = false := (hcx outer _ houter).1
    cases hempty
  rcases splitQualifiers_eq_ok.mp h with hty | ⟨hbase, hquals, _⟩ <;>
    rcases splitQualifiers_eq_ok.mp h' with hty' | ⟨hbase', hquals', _⟩
  · exact type_inj hty hty'
  · exact (hsome hty hquals').elim
  · exact (hsome hty' hquals).elim
  · exact hbase.symm.trans hbase'

/-- **One request for qualifiers.**  A type that comes apart into the base and
the union is what the request is answered with, and nothing is stored. -/
theorem Formed.qualifiedType_found (hcx : cx.Formed) {ty found base : TypeId}
    {held quals : Qualifiers} (hty : cx.splitQualifiers ty = .ok (base, held))
    (hfound : cx.splitQualifiers found = .ok (base, held.union quals)) :
    (Build.qualifiedType ty quals).runOn cx = (.ok found, cx) := by
  cases hempty : quals.isEmpty with
  | true =>
    obtain rfl := Qualifiers.isEmpty_iff.mp hempty
    rw [Qualifiers.union_none] at hfound
    obtain rfl := hcx.eq_of_splitQualifiers hty hfound
    rfl
  | false =>
    -- the union is not empty, so `found` is the base with a layer of qualifiers
    have hunion : (held.union quals).isEmpty = false := Qualifiers.isEmpty_union hempty
    have hkind : cx.type found = .ok (.qualified base (held.union quals)) := by
      rcases splitQualifiers_eq_ok.mp hfound with hkind | ⟨_, hnone, _⟩
      · exact hkind
      · rw [hnone] at hunion
        cases hunion
    rw [Build.qualifiedType, hempty, if_neg Bool.false_ne_true, Build.runOn_read_bind hty]
    exact Build.internType_of_type hkind

/-- A request for qualifiers adds them to those that the type has. -/
theorem qualifiers_around {ty base : TypeId} {held : Qualifiers}
    (hty : cx.splitQualifiers ty = .ok (base, held)) (quals : Qualifiers) :
    ((Layer.qualifiers quals).around ty).perform.Sure cx fun outer es =>
      (cx.after es).splitQualifiers outer = .ok (base, held.union quals) := by
  refine (Build.qualifiedType_sure hty).mono fun outer es h => ?_
  rcases h with ⟨hempty, rfl, rfl⟩ | hkind
  · rw [Qualifiers.isEmpty_iff.mp hempty, Qualifiers.union_none]
    exact hty
  · exact splitQualifiers_eq_ok.mpr (.inl hkind)

end Context

/-! ## Requests in turn -/

namespace Workspace

variable {w : Workspace}

/-- Layers of qualifiers only. -/
def qualifying (turns : List (List Command × Qualifiers)) : List (List Command × Layer) :=
  turns.map (Prod.map id .qualifiers)

/-- How a type is taken apart. -/
theorem step_split {ty base : TypeId} {quals : Qualifiers}
    (h : w.context.splitQualifiers ty = .ok (base, quals)) :
    w.step (.ask (.query (.split ty))) = (.ok (.split base quals), w) := by
  rw [step_query, Query.answer, h]
  rfl

/-- **Qualifying in turn** comes to a type that comes apart into the base and
the union of all sets. -/
theorem layered_qualifying {ty base : TypeId} {held : Qualifiers}
    (hty : w.context.splitQualifiers ty = .ok (base, held))
    (turns : List (List Command × Qualifiers)) :
    ∃ outer w', w.layered ty (qualifying turns) = some (outer, w') ∧
      w'.context.splitQualifiers outer
        = .ok (base, held.union (.unions (turns.map Prod.snd))) := by
  induction turns generalizing w ty held with
  | nil => exact ⟨ty, w, rfl, by simpa using hty⟩
  | cons turn rest ih =>
    obtain ⟨others, quals⟩ := turn
    have hty' := (w.run_precedes others).splitQualifiers hty
    obtain ⟨inner, es, hrun, hsplit⟩ := Context.qualifiers_around hty' quals
    obtain ⟨outer, w', hlayered, houter⟩ := ih (w := ⟨_, (w.run others).2.pending⟩) hsplit
    refine ⟨outer, w', (layered_cons (step_node rfl hrun) _).trans hlayered, ?_⟩
    rw [houter, Qualifiers.union_assoc]
    rfl

/-- What is known, at a workspace, of a type that the given one became by being
qualified by the sets: it comes apart into the base and the union of all
qualifiers, it is the given type qualified by all sets at once, or by one after
the other in any order, and qualifying it by what it has already gives it back
and changes nothing. -/
structure Settled (w : Workspace) (ty outer base : TypeId) (held : Qualifiers)
    (sets : List Qualifiers) : Prop where
  split : w.step (.ask (.query (.split outer)))
    = (.ok (.split base (held.union (.unions sets))), w)
  atOnce : w.step (.ask (.type (.qualified ty (.unions sets)))) = (.ok (.node .type outer), w)
  inTurn : ∀ turns : List (List Command × Qualifiers), (turns.map Prod.snd).Perm sets →
    ∃ w', w.layered ty (qualifying turns) = some (outer, w')
  again : ∀ quals, quals ⊆ held.union (.unions sets) →
    w.step (.ask (.type (.qualified outer quals))) = (.ok (.node .type outer), w)

/-- Both types coming apart as they should is all that is needed. -/
theorem settled_of_split (hw : w.context.Formed) {ty outer base : TypeId} {held : Qualifiers}
    {sets : List Qualifiers} (hty : w.context.splitQualifiers ty = .ok (base, held))
    (houter : w.context.splitQualifiers outer = .ok (base, held.union (.unions sets))) :
    w.Settled ty outer base held sets where
  split := step_split houter
  atOnce := step_node rfl (hw.qualifiedType_found hty houter)
  inTurn turns hperm := by
    obtain ⟨outer', w', hlayered, houter'⟩ := layered_qualifying hty turns
    obtain ⟨commands, rfl⟩ := exists_run_of_layered hlayered
    -- by then both handles come apart into the same, so they are one
    have hformed := Context.Formed.keeps.run hw commands
    have hlater := (w.run_precedes commands).splitQualifiers houter
    rw [Qualifiers.unions_perm hperm] at houter'
    obtain rfl := hformed.eq_of_splitQualifiers houter' hlater
    exact ⟨_, hlayered⟩
  again quals hsub := by
    have hsame : w.context.splitQualifiers outer
        = .ok (base, (held.union (.unions sets)).union quals) := by
      rw [Qualifiers.union_of_subset hsub]
      exact houter
    exact step_node rfl (hw.qualifiedType_found houter hsame)

/-- **Qualification is union.**  In every state that a run reaches, whatever
handles were passed, a stored type comes apart into a base without qualifiers
and the qualifiers that it has.  Qualified by any sets in turn, with any
commands in between, it becomes a type that is settled by the union of the sets
from then on, whatever commands follow. -/
theorem qualified_in_turn (config : Config) (digest : List Nat → UInt64) (commands : List Command)
    {ty : TypeId} (hty : (reached config digest commands).context.Issued ty)
    (turns : List (List Command × Qualifiers)) :
    ∃ base held outer w',
      (reached config digest commands).step (.ask (.query (.split ty)))
        = (.ok (.split base held), reached config digest commands) ∧
      (reached config digest commands).context.IsBare base ∧
      (reached config digest commands).layered ty (qualifying turns) = some (outer, w') ∧
      ∀ later, (w'.run later).2.Settled ty outer base held (turns.map Prod.snd) := by
  have hformed := formed_reached config digest commands
  obtain ⟨base, held, hsplit, hbare⟩ := hformed.exists_splitQualifiers hty
  obtain ⟨outer, w', hlayered, houter⟩ := layered_qualifying hsplit turns
  refine ⟨base, held, outer, w', step_split hsplit, hbare, hlayered, fun later => ?_⟩
  obtain ⟨between, rfl⟩ := exists_run_of_layered hlayered
  have hformed' := Context.Formed.keeps.run hformed between
  have hsplit' := (run_precedes _ between).splitQualifiers hsplit
  exact settled_of_split (Context.Formed.keeps.run hformed' later)
    ((run_precedes _ later).splitQualifiers hsplit')
    ((run_precedes _ later).splitQualifiers houter)

/-- A run that asks for a constant integer type. -/
def constantRun : List Command :=
  [.ask (.type .int), .ask (.type (.const ⟨3⟩))]

/-- The constant integer type, qualified by nothing, as volatile and twice as
constant, with a pointer to the integer type asked for in between. -/
theorem qualified_in_turn_constantRun :
    (reached .standard ConstraintTable.polynomialDigest constantRun).context.Issued
        (⟨4⟩ : TypeId) ∧
      ∃ base held outer w',
        (reached .standard ConstraintTable.polynomialDigest constantRun).step
            (.ask (.query (.split ⟨4⟩)))
          = (.ok (.split base held),
            reached .standard ConstraintTable.polynomialDigest constantRun) ∧
        (reached .standard ConstraintTable.polynomialDigest constantRun).layered ⟨4⟩
            (qualifying [([], .none), ([.ask (.type (.wrapped .pointer ⟨3⟩))], .justVolatile),
              ([], .justConst), ([], .justConst)])
          = some (outer, w') ∧
        w'.Settled ⟨4⟩ outer base held [.none, .justVolatile, .justConst, .justConst] := by
  have hissued : (reached .standard ConstraintTable.polynomialDigest constantRun).context.Issued
      (⟨4⟩ : TypeId) := by
    decide +kernel
  obtain ⟨base, held, outer, w', hsplit, _, hlayered, hsettled⟩ :=
    qualified_in_turn .standard ConstraintTable.polynomialDigest constantRun hissued
      [([], .none), ([.ask (.type (.wrapped .pointer ⟨3⟩))], .justVolatile), ([], .justConst),
        ([], .justConst)]
  exact ⟨hissued, base, held, outer, w', hsplit, hlayered, hsettled []⟩

end Workspace

end TermGraph
