import TermGraph.Proofs.Types.Layers
import TermGraph.Proofs.Walks

/-!
# The core of a type

Qualifiers, the parameter passing modes and packs do not change what the values
of a type are.  Under all of these that are around a type is its *core*
(`Context.CoreUnder`), and whether the type is a value type is for the core to
say: it has no answer if that is still to be deduced, it is none if that is a
function or a reference, and otherwise it is one.

The core is found by going down, so there is at most one.  In a table whose
types are younger than their parts there always is one
(`TypeTable.Grounded.exists_core`), and the classifier, which counts its steps,
gets there, since it can not come through more types than there are
(`Context.CoreUnder.lt_size`).

One more of these layers leaves the core as it is (`Context.CoreUnder.around`).
For a wrapper that is so because it is the outermost layer then.  Qualifiers
are put under the qualifiers that are already there, which takes one layer away
before it adds one; the rest of the layers stays.
-/

namespace TermGraph

/-- Functions and references, which are not values. -/
def TypeKind.isFunctionOrReference : TypeKind → Bool
  | .function .. | .wrapped .reference _ => true
  | _ => false

/-- Under that many layers which do not change what values of the type are
stands a type of that kind, and no further such layer is around that. -/
inductive Context.CoreUnder (cx : Context) : Nat → TypeId → TypeId → TypeKind → Prop
  | bare {ty : TypeId} {kind : TypeKind} (h : cx.type ty = .ok kind)
      (hbare : kind.underlying? = none) : cx.CoreUnder 0 ty ty kind
  | layer {n : Nat} {ty inner core : TypeId} {outer kind : TypeKind} (h : cx.type ty = .ok outer)
      (hinner : outer.underlying? = some inner) (hcore : cx.CoreUnder n inner core kind) :
      cx.CoreUnder (n + 1) ty core kind

/-- No kind that is still to be deduced is a function or a reference. -/
theorem TypeKind.isFunctionOrReference_of_isPlaceholder {kind : TypeKind}
    (h : kind.isPlaceholder = true) : kind.isFunctionOrReference = false := by
  cases kind <;> first | rfl | cases h

/-- What is under a layer is a part of the type. -/
theorem TypeKind.mem_parts_of_underlying? {kind : TypeKind} {inner : TypeId}
    (h : kind.underlying? = some inner) : inner ∈ kind.parts := by
  cases kind with
  | qualified base quals =>
    cases h
    exact List.mem_singleton_self _
  | wrapped wrapper ty =>
    rw [underlying?] at h
    split at h
    · cases h
      exact List.mem_singleton_self _
    · cases h
  | _ => cases h

namespace Context

variable {cx cx' : Context}

namespace CoreUnder

variable {n m : Nat} {ty core core' : TypeId} {kind kind' : TypeKind}

/-- A core is of the kind that is stored for it. -/
theorem type_core (h : cx.CoreUnder n ty core kind) : cx.type core = .ok kind := by
  induction h with
  | bare hkind _ => exact hkind
  | layer _ _ _ ih => exact ih

/-- A type keeps its core and the layers around it. -/
theorem later (h : cx.CoreUnder n ty core kind) (hle : cx.Precedes cx') :
    cx'.CoreUnder n ty core kind := by
  induction h with
  | bare hkind hbare => exact .bare (hle.type hkind) hbare
  | layer houter hinner _ ih => exact .layer (hle.type houter) hinner ih

/-- A type has one core at one depth. -/
theorem unique (h : cx.CoreUnder n ty core kind) (h' : cx.CoreUnder m ty core' kind') :
    n = m ∧ core = core' ∧ kind = kind' := by
  induction h generalizing m with
  | bare hkind hbare =>
    cases h' with
    | bare hkind' _ => exact ⟨rfl, rfl, Except.ok.inj (hkind.symm.trans hkind')⟩
    | layer houter hinner _ =>
      obtain rfl := Except.ok.inj (hkind.symm.trans houter)
      rw [hbare] at hinner
      cases hinner
  | layer houter hinner _ ih =>
    cases h' with
    | bare hkind hbare =>
      obtain rfl := Except.ok.inj (hkind.symm.trans houter)
      rw [hbare] at hinner
      cases hinner
    | layer houter' hinner' hcore' =>
      obtain rfl := Except.ok.inj (houter.symm.trans houter')
      obtain rfl := Option.some.inj (hinner.symm.trans hinner')
      obtain ⟨rfl, rfl, rfl⟩ := ih hcore'
      exact ⟨rfl, rfl, rfl⟩

/-- **No type has as many layers around its core as there are types.** -/
theorem lt_size (h : cx.CoreUnder n ty core kind) : n < cx.types.size := by
  refine lt_size_of_deep (fun n ty => ∃ core kind, cx.CoreUnder n ty core kind) ?_ ?_ ?_
    ⟨core, kind, h⟩
  · rintro n ty ⟨core, kind, hcore⟩
    cases hcore with
    | bare hkind _ | layer hkind _ _ => exact lt_of_fetch hkind
  · rintro n ty ⟨core, kind, hcore⟩
    cases hcore with
    | layer _ _ hbelow => exact ⟨_, _, _, hbelow⟩
  · rintro m n ty ⟨core, kind, hcore⟩ ⟨core', kind', hcore'⟩
    exact (hcore.unique hcore').1

end CoreUnder

/-! ## Categories -/

/-- The classifier goes on to what is under a layer. -/
theorem isValueTypeWithin_layer {steps : Nat} {ty inner : TypeId} {outer : TypeKind}
    (h : cx.type ty = .ok outer) (hinner : outer.underlying? = some inner) :
    cx.isValueTypeWithin (steps + 1) ty = cx.isValueTypeWithin steps inner := by
  rw [isValueTypeWithin, h]
  cases outer with
  | qualified base quals =>
    cases hinner
    rfl
  | wrapped wrapper ty =>
    cases wrapper <;> cases hinner <;> rfl
  | _ => cases hinner

/-- What the classifier says of a type that has no layer around it. -/
theorem isValueTypeWithin_bare {steps : Nat} {ty : TypeId} {kind : TypeKind}
    (h : cx.type ty = .ok kind) (hbare : kind.underlying? = none) :
    cx.isValueTypeWithin (steps + 1) ty =
      if kind.isPlaceholder then .error (.violated (.uncategorized kind))
      else .ok !kind.isFunctionOrReference := by
  rw [isValueTypeWithin, h]
  cases kind with
  | qualified base quals => cases hbare
  | wrapped wrapper inner => cases wrapper <;> first | rfl | cases hbare
  | _ => rfl

/-- **A type is categorized as its core is.** -/
theorem CoreUnder.isValueType {n : Nat} {ty core : TypeId} {kind : TypeKind}
    (h : cx.CoreUnder n ty core kind) :
    cx.isValueType ty =
      if kind.isPlaceholder then .error (.violated (.uncategorized kind))
      else .ok !kind.isFunctionOrReference := by
  have hwithin : ∀ steps, n < steps → cx.isValueTypeWithin steps ty =
      if kind.isPlaceholder then .error (.violated (.uncategorized kind))
      else .ok !kind.isFunctionOrReference := by
    induction h with
    | bare hkind hbare =>
      intro steps hsteps
      obtain ⟨steps, rfl⟩ : ∃ k, steps = k + 1 := ⟨steps - 1, by omega⟩
      exact isValueTypeWithin_bare hkind hbare
    | layer houter hinner _ ih =>
      intro steps hsteps
      obtain ⟨steps, rfl⟩ : ∃ k, steps = k + 1 := ⟨steps - 1, by omega⟩
      rw [isValueTypeWithin_layer houter hinner]
      exact ih steps (by omega)
  exact hwithin _ (Nat.lt_succ_of_lt h.lt_size)

/-! ## Going down to the core -/

/-- **Every type has a core** where types are younger than their parts. -/
theorem exists_core (hcx : cx.types.Grounded) {ty : TypeId} (hty : cx.Issued ty) :
    ∃ n core kind, cx.CoreUnder n ty core kind := by
  induction hindex : ty.index using Nat.strong_induction_on generalizing ty with
  | h i ih =>
    obtain ⟨kind, hkind⟩ := exists_fetch hty
    cases hunderlying : kind.underlying? with
    | none => exact ⟨0, ty, kind, .bare hkind hunderlying⟩
    | some inner =>
      have hpart : inner ∈ kind.parts := kind.mem_parts_of_underlying? hunderlying
      have holder : inner.index < ty.index := hcx _ kind (fetch_eq_ok.mp hkind) inner hpart
      have hinner : cx.Issued inner := Nat.lt_trans holder hty
      obtain ⟨n, core, kind, hcore⟩ := ih inner.index (hindex ▸ holder) hinner rfl
      exact ⟨n + 1, core, kind, .layer hkind hunderlying hcore⟩

/-! ## One more layer -/

/-- Without its qualifiers a type has the same core. -/
theorem CoreUnder.splitQualifiers {n : Nat} {ty core : TypeId} {kind : TypeKind}
    (h : cx.CoreUnder n ty core kind) :
    ∃ base held m, cx.splitQualifiers ty = .ok (base, held) ∧ cx.CoreUnder m base core kind := by
  obtain ⟨outer, houter⟩ : ∃ outer, cx.type ty = .ok outer := by
    cases h with
    | bare hkind _ | layer hkind _ _ => exact ⟨_, hkind⟩
  by_cases hqualified : ∃ base held, outer = .qualified base held
  · obtain ⟨base, held, rfl⟩ := hqualified
    cases h with
    | bare hkind hbare =>
      obtain rfl := Except.ok.inj (houter.symm.trans hkind)
      cases hbare
    | layer hkind hinner hcore =>
      obtain rfl := Except.ok.inj (houter.symm.trans hkind)
      cases hinner
      exact ⟨base, held, _, splitQualifiers_eq_ok.mpr (.inl houter), hcore⟩
  · have hbare : cx.IsBare ty :=
      ⟨outer, houter, fun base held heq => hqualified ⟨base, held, heq⟩⟩
    exact ⟨ty, .none, n, splitQualifiers_eq_ok.mpr (.inr ⟨rfl, rfl, hbare⟩), h⟩

/-- **One more layer** that does not change what values are leaves the core as
it is. -/
theorem CoreUnder.around {n : Nat} {ty core : TypeId} {kind : TypeKind}
    (h : cx.CoreUnder n ty core kind) {layer : Layer} (htransparent : layer.isTransparent = true) :
    (layer.around ty).perform.Sure cx fun outer es =>
      ∃ m, (cx.after es).CoreUnder m outer core kind := by
  cases layer with
  | qualifiers quals =>
    obtain ⟨base, held, m, hsplit, hbase⟩ := h.splitQualifiers
    refine (Build.qualifiedType_sure hsplit).mono fun outer es houter => ?_
    rcases houter with ⟨_, rfl, rfl⟩ | hkind
    · exact ⟨n, h⟩
    · exact ⟨m + 1, .layer hkind rfl (hbase.later (cx.precedes_after es))⟩
  | wrapping wrapper =>
    have hinner : (TypeKind.wrapped wrapper ty).underlying? = some ty := if_pos htransparent
    exact .internType ⟨n + 1, .layer (cx.type_intern _) hinner (h.later (cx.precedes_after _))⟩

end Context

namespace Workspace

variable {w : Workspace}

/-- **Layers in turn** that do not change what values are leave the core as it
is, whatever commands are in between. -/
theorem layered_core {n : Nat} {ty core : TypeId} {kind : TypeKind}
    (h : w.context.CoreUnder n ty core kind) {turns : List (List Command × Layer)}
    (hturns : ∀ turn ∈ turns, turn.2.isTransparent = true) :
    ∃ outer w' m, w.layered ty turns = some (outer, w') ∧
      w'.context.CoreUnder m outer core kind := by
  induction turns generalizing w ty n with
  | nil => exact ⟨ty, w, n, rfl, h⟩
  | cons turn rest ih =>
    obtain ⟨others, layer⟩ := turn
    have htransparent : layer.isTransparent = true := hturns _ List.mem_cons_self
    obtain ⟨inner, es, hrun, _, hinner⟩ := (h.later (w.run_precedes others)).around htransparent
    obtain ⟨outer, w', m, hlayered, houter⟩ :=
      ih (w := ⟨_, (w.run others).2.pending⟩) hinner fun turn hturn =>
        hturns turn (List.mem_cons_of_mem _ hturn)
    exact ⟨outer, w', m, (layered_cons (step_node rfl hrun) _).trans hlayered, houter⟩

/-- What a workspace says when asked whether the type is a value type. -/
def categoryOf (w : Workspace) (ty : TypeId) : Except Failure Answer :=
  (w.step (.ask (.query (.isValueType ty)))).1

/-- A type is categorized as a kind: asking for the category fails, naming the
kind, if that is still to be deduced; the answer is no if that is a function or
a reference, and yes in all other cases. -/
structure CategorizedAs (w : Workspace) (ty : TypeId) (kind : TypeKind) : Prop where
  fails : (∃ failure, w.categoryOf ty = .error failure) ↔ kind.isPlaceholder = true
  names : kind.isPlaceholder = true →
    w.categoryOf ty = .error (.broken (.violated (.uncategorized kind)))
  denies : w.categoryOf ty = .ok (.verdict false) ↔ kind.isFunctionOrReference = true
  affirms : w.categoryOf ty = .ok (.verdict true) ↔
    kind.isPlaceholder = false ∧ kind.isFunctionOrReference = false

/-- How the core is asked for its category. -/
theorem categoryOf_core {n : Nat} {ty core : TypeId} {kind : TypeKind}
    (h : w.context.CoreUnder n ty core kind) :
    w.categoryOf ty =
      if kind.isPlaceholder then .error (.broken (.violated (.uncategorized kind)))
      else .ok (.verdict !kind.isFunctionOrReference) := by
  rw [categoryOf, step_query, Query.answer, h.isValueType]
  split <;> rfl

/-- What a type is asked for its category is told by its core. -/
theorem categorizedAs_core {n : Nat} {ty core : TypeId} {kind : TypeKind}
    (h : w.context.CoreUnder n ty core kind) : w.CategorizedAs ty kind := by
  have hcategory := categoryOf_core h
  cases hplaceholder : kind.isPlaceholder with
  | true =>
    have hneither := kind.isFunctionOrReference_of_isPlaceholder hplaceholder
    rw [hplaceholder, if_pos rfl] at hcategory
    constructor <;> simp [hcategory, hplaceholder, hneither]
  | false =>
    rw [hplaceholder, if_neg Bool.false_ne_true] at hcategory
    constructor <;> simp [hcategory, hplaceholder]

/-- **The core decides.**  After a run that passed only issued handles every
type has one core, and is categorized as that is.  Layers put around the type
in turn, with any commands in between, do not change that, as long as none of
them changes what values are: the type that they give has the same core and is
categorized in the same way. -/
theorem core_decides (config : Config) (digest : List Nat → UInt64) (commands : List Command)
    (h : (start config digest).Proper commands) {ty : TypeId}
    (hty : (reached config digest commands).context.Issued ty) :
    ∃ n core kind,
      (∀ n' core' kind', (reached config digest commands).context.CoreUnder n' ty core' kind' ↔
        n' = n ∧ core' = core ∧ kind' = kind) ∧
      (reached config digest commands).context.type core = .ok kind ∧
      (reached config digest commands).CategorizedAs ty kind ∧
      ∀ turns : List (List Command × Layer), (∀ turn ∈ turns, turn.2.isTransparent = true) →
        ∃ outer w', (reached config digest commands).layered ty turns = some (outer, w') ∧
          (∃ m, w'.context.CoreUnder m outer core kind) ∧
          w'.categoryOf outer = (reached config digest commands).categoryOf ty := by
  have hgrounded : (reached config digest commands).context.types.Grounded :=
    (run_sound (sound_start config digest) h).2.grounded (Context.grounded_create config digest)
  obtain ⟨n, core, kind, hcore⟩ := Context.exists_core hgrounded hty
  refine ⟨n, core, kind, fun n' core' kind' => ⟨fun hcore' => hcore'.unique hcore, ?_⟩,
    hcore.type_core, categorizedAs_core hcore, fun turns hturns => ?_⟩
  · rintro ⟨rfl, rfl, rfl⟩
    exact hcore
  · obtain ⟨outer, w', m, hlayered, houter⟩ := layered_core hcore hturns
    refine ⟨outer, w', hlayered, ⟨m, houter⟩, ?_⟩
    rw [categoryOf_core houter, categoryOf_core hcore]

/-- A run that puts qualifiers and a passing mode around a type that is still
to be deduced. -/
def deducedRun : List Command :=
  [.ask (.type .auto), .ask (.type (.const ⟨3⟩)), .ask (.type (.wrapped .input ⟨4⟩)),
    .ask (.type (.volatile ⟨5⟩))]

/-- The outermost type is categorized as its core is, and so is what it becomes
by more qualifiers, which are put under those it has, and by being forwarded. -/
theorem core_decides_deducedRun :
    (start .standard ConstraintTable.polynomialDigest).Proper deducedRun ∧
      (reached .standard ConstraintTable.polynomialDigest deducedRun).context.Issued
        (⟨6⟩ : TypeId) ∧
      (reached .standard ConstraintTable.polynomialDigest deducedRun).context.CoreUnder 3 ⟨6⟩ ⟨3⟩
        .auto ∧
      (reached .standard ConstraintTable.polynomialDigest deducedRun).CategorizedAs ⟨6⟩ .auto ∧
      ∃ outer w',
        (reached .standard ConstraintTable.polynomialDigest deducedRun).layered ⟨6⟩
            [([], .qualifiers .justConst), ([.ask (.type .byte)], .wrapping .forward)]
          = some (outer, w') ∧
        w'.categoryOf outer
          = (reached .standard ConstraintTable.polynomialDigest deducedRun).categoryOf ⟨6⟩ := by
  have hproper : (start .standard ConstraintTable.polynomialDigest).Proper deducedRun := by
    decide +kernel
  have hissued : (reached .standard ConstraintTable.polynomialDigest deducedRun).context.Issued
      (⟨6⟩ : TypeId) := by
    decide +kernel
  have hcore : (reached .standard ConstraintTable.polynomialDigest deducedRun).context.CoreUnder 3
      ⟨6⟩ ⟨3⟩ .auto :=
    .layer rfl rfl (.layer rfl rfl (.layer rfl rfl (.bare rfl rfl)))
  obtain ⟨n, core, kind, hiff, _, hcategory, hturns⟩ := core_decides _ _ deducedRun hproper hissued
  obtain ⟨rfl, rfl, rfl⟩ := (hiff _ _ _).mp hcore
  obtain ⟨outer, w', hlayered, _, hsame⟩ :=
    hturns [([], .qualifiers .justConst), ([.ask (.type .byte)], .wrapping .forward)] (by decide)
  exact ⟨hproper, hissued, hcore, hcategory, outer, w', hlayered, hsame⟩

end Workspace

end TermGraph
