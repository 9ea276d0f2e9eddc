import TermGraph.Proofs.Types.Formed
import TermGraph.Proofs.Neutral

/-!
# Invented type parameters

A placeholder type is the type of a type parameter that is made up for it,
under a made-up name.  Three tables grow together, and each of the three nodes
is a new one: the name because of its number, the parameter because
declarations are never shared, and the type because no stored type is that of a
parameter still to come (`Context.Formed`).

Numbers are in order when all of them are below the next one and no two names
have the same (`Context.Numbered`).  A number is used up together with the name
it is for, so every command keeps them in order, whatever handles it passes and
however it ends (`Context.Numbered.step`), and what was invented in a run stays
the only one of its kind to the end (`Workspace.inventions_differ`).
-/

namespace TermGraph

open Build

/-- A type parameter made up under a name of its own, and its type. -/
structure Invention where
  type : TypeId
  parm : DeclId
  name : NameId
  number : Nat

namespace Context

variable {cx cx' : Context}

/-- The numbers of made-up names are in order.  There are fewer of them than
names, so they are no larger than handles. -/
structure Numbered (cx : Context) : Prop where
  below : ∀ n k, cx.arena.name n = .ok (.placeholder k) → k < cx.nextPlaceholder
  unique : ∀ m n k, cx.arena.name m = .ok (.placeholder k) →
    cx.arena.name n = .ok (.placeholder k) → m = n
  fewer : cx.nextPlaceholder < cx.count .name

/-- No name is made up at first. -/
theorem numbered_create (config : Config) (digest : List Nat → UInt64) :
    (create config digest).Numbered := by
  have hglobal : ∀ n k, (create config digest).arena.name n ≠ .ok (.placeholder k) := by
    intro n k hn
    have hmem := Array.mem_of_getElem? (fetch_eq_ok.mp hn)
    cases Array.mem_singleton.mp hmem
  exact ⟨fun n k hn => (hglobal n k hn).elim, fun m n k hm => (hglobal m k hm).elim,
    Nat.zero_lt_one⟩

/-- Where no number is used up and no name gets one, the numbers stay in
order. -/
theorem Numbered.keep (h : cx.Numbered) (hle : cx.Precedes cx')
    (hnext : cx'.nextPlaceholder = cx.nextPlaceholder)
    (hold : ∀ n k, cx'.arena.name n = .ok (.placeholder k) →
      cx.arena.name n = .ok (.placeholder k)) : cx'.Numbered where
  below n k hn := hnext ▸ h.below n k (hold n k hn)
  unique m n k hm hn := h.unique m n k (hold m k hm) (hold n k hn)
  fewer := by
    have hnames : cx.count .name ≤ cx'.count .name := by
      simpa [count] using hle.arena.names.length_le
    have hfewer := h.fewer
    omega

/-- The context after a name has been made up. -/
def withMadeUpName (cx : Context) : Context :=
  cx.after [.number, .name (.placeholder cx.nextPlaceholder)]

/-- A name that is made up gets the next number, and no other name has it. -/
theorem Numbered.withMadeUpName (h : cx.Numbered) : cx.withMadeUpName.Numbered := by
  have hcases : ∀ n k, cx.withMadeUpName.arena.name n = .ok (.placeholder k) →
      cx.arena.name n = .ok (.placeholder k) ∨
        n.index = cx.arena.names.size ∧ k = cx.nextPlaceholder := by
    intro n k hn
    rcases fetch_push_eq_ok hn with hold | ⟨hindex, hkind⟩
    · exact .inl hold
    · cases hkind
      exact .inr ⟨hindex, rfl⟩
  have hfresh : ∀ n, cx.arena.name n ≠ .ok (.placeholder cx.nextPlaceholder) :=
    fun n hn => Nat.lt_irrefl _ (h.below n _ hn)
  refine ⟨fun n k hn => ?_, fun m n k hm hn => ?_, ?_⟩
  · show k < cx.nextPlaceholder + 1
    rcases hcases n k hn with hold | ⟨_, hk⟩
    · have hbelow := h.below n k hold
      omega
    · omega
  · rcases hcases m k hm with hm | ⟨hm, hk⟩ <;> rcases hcases n k hn with hn | ⟨hn, hk'⟩
    · exact h.unique m n k hm hn
    · exact (hfresh m (hk' ▸ hm)).elim
    · exact (hfresh n (hk ▸ hn)).elim
    · exact Handle.index_inj.mp (hm.trans hn.symm)
  · have hcount : cx.withMadeUpName.count .name = cx.count .name + 1 := Array.size_push _
    have hfewer := h.fewer
    show cx.nextPlaceholder + 1 < cx.withMadeUpName.count .name
    omega

/-- What is invented next. -/
def invention (cx : Context) : Invention where
  type := ⟨cx.count .type⟩
  parm := ⟨cx.count .decl⟩
  name := ⟨cx.count .name⟩
  number := cx.nextPlaceholder

/-- The context after a type parameter has been declared under a made-up name. -/
def withInventedParm (cx : Context) : Context :=
  cx.withMadeUpName.after [.decl (.typeParm ⟨0, 0⟩ cx.invention.name none)]

/-- The context after the next invention. -/
def withInvention (cx : Context) : Context :=
  cx.withInventedParm.after [.type (.typename cx.invention.parm)]

/-- The invention stands in the context, and its number is that of no other
name. -/
structure Holds (cx : Context) (made : Invention) : Prop where
  type : cx.type made.type = .ok (.typename made.parm)
  parm : cx.arena.decl made.parm = .ok (.typeParm ⟨0, 0⟩ made.name none)
  name : cx.arena.name made.name = .ok (.placeholder made.number)
  alone : ∀ n, cx.arena.name n = .ok (.placeholder made.number) → n = made.name

/-- A parameter has no definition, so not even that changes later. -/
theorem Precedes.typeParm (hle : cx.Precedes cx') {d : DeclId} {index : ParmIndex} {name : NameId}
    {default : Option TypeId} (h : cx.arena.decl d = .ok (.typeParm index name default)) :
    cx'.arena.decl d = .ok (.typeParm index name default) := by
  obtain ⟨kind, hkind, hheader⟩ := hle.arena.decl h
  cases kind with
  | typeParm =>
    cases hheader
    exact hkind
  | _ => cases hheader

/-- What stands in a context stands in every later one whose numbers are in
order. -/
theorem Holds.later {made : Invention} (h : cx.Holds made) (hle : cx.Precedes cx')
    (hcx' : cx'.Numbered) : cx'.Holds made := by
  have hname : cx'.arena.name made.name = .ok (.placeholder made.number) :=
    fetch_later hle.arena.names h.name
  exact ⟨hle.type h.type, hle.typeParm h.parm, hname, fun n hn => hcx'.unique n _ _ hn hname⟩

/-- No type of a parameter still to come is stored. -/
theorem Formed.typename_next (hcx : cx.Formed) :
    cx.types.kinds.position[TypeKind.typename cx.invention.parm]? = none := by
  cases hfound : cx.types.kinds.position[TypeKind.typename cx.invention.parm]? with
  | none => rfl
  | some i =>
    have hentry := (cx.types.kinds.position_iff _ i).mp hfound
    have htype : cx.type ⟨i⟩ = .ok (.typename cx.invention.parm) := fetch_eq_ok.mpr hentry
    obtain ⟨_, _, _, hdecl⟩ : cx.IsTypeParm cx.invention.parm := hcx _ _ htype
    exact (Nat.lt_irrefl _ (lt_of_fetch hdecl)).elim

/-- What is invented is there at once: its type is stored, since no type of this
parameter can have been before. -/
theorem holds_withInvention (hcx : cx.Formed) (hnumbered : cx.Numbered) :
    cx.withInvention.Holds cx.invention := by
  have hnew := cx.withMadeUpName.precedes_after [.decl (.typeParm ⟨0, 0⟩ cx.invention.name none)]
  have hlast := cx.withInventedParm.precedes_after [.type (.typename cx.invention.parm)]
  have hname : cx.withInvention.arena.name cx.invention.name
      = .ok (.placeholder cx.invention.number) := fetch_push_size _ _
  have hparm : cx.withInvention.arena.decl cx.invention.parm
      = .ok (.typeParm ⟨0, 0⟩ cx.invention.name none) := fetch_push_size _ _
  have hinvented : cx.withInvention.Numbered :=
    hnumbered.withMadeUpName.keep (hnew.trans hlast) rfl fun _ _ h => h
  refine ⟨?_, hparm, hname, fun n hn => hinvented.unique n _ _ hn hname⟩
  obtain ⟨_, hentries⟩ := Interner.intern_of_none hcx.typename_next
  show fetch (cx.types.kinds.intern _).2.entries _ = _
  rw [hentries]
  exact fetch_push_size _ _

end Context

namespace Build

variable {cx : Context}

/-- To invent runs through the name, the parameter and its type without being
refused. -/
theorem placeholderType_run (cx : Context) :
    placeholderType.runOn cx
      = (.ok (cx.types.intern (.typename cx.invention.parm)).1, cx.withInvention) := by
  have hparm : cx.withInventedParm.arena.decl cx.invention.parm
      = .ok (.typeParm ⟨0, 0⟩ cx.invention.name none) := fetch_push_size _ _
  show (typenameType cx.invention.parm).runOn cx.withInventedParm = _
  rw [typenameType, Build.decl, runOn_read_bind hparm]
  rfl

end Build

/-! ## Runs -/

/-- **One command.**  It keeps the numbers of made-up names in order. -/
theorem Context.Numbered.step {w : Workspace} (h : w.context.Numbered) (command : Command) :
    (w.step command).2.context.Numbered := by
  have hle := w.step_precedes command
  by_cases hwords : ∃ request, command = .ask request ∧ request.HasWords
  · obtain ⟨request, rfl, hrequest⟩ := hwords
    match request, hrequest with
    | .intern s, _ => exact h.keep hle rfl fun _ _ hn => hn
    | .name (.identifier s), _ =>
      have hsame : (w.context.after [.spelling s]).SameWording
          (w.step (.ask (.name (.identifier s)))).2.context := Context.sameWording_pushName nofun
      exact h.keep hle rfl hsame.numbered
    | .name .placeholder, _ => exact h.withMadeUpName
    | .type .placeholder, _ =>
      have hcontext : (w.step (.ask (.type .placeholder))).2.context = w.context.withInvention := by
        rw [Workspace.step_ask, Request.perform, runOn_map, TypeRequest.perform,
          placeholderType_run]
      have hafter : w.context.withMadeUpName.Precedes w.context.withInvention :=
        (Context.precedes_after _ _).trans (Context.precedes_after _ _)
      rw [hcontext]
      exact h.withMadeUpName.keep hafter rfl fun _ _ hn => hn
  · have hsame := w.step_wordless fun request hcommand hrequest =>
      hwords ⟨request, hcommand, hrequest⟩
    exact h.keep hle hsame.next hsame.numbered

/-- A run keeps the numbers in order, by induction on the commands. -/
theorem Context.Numbered.run {w : Workspace} (h : w.context.Numbered) (commands : List Command) :
    (w.run commands).2.context.Numbered := by
  induction commands generalizing w with
  | nil => exact h
  | cons command rest ih => exact ih (h.step command)

namespace Workspace

/-- The request that invents. -/
def invent : Command := .ask (.type .placeholder)

/-- To invent succeeds, and what is invented was not there before: one type, one
declaration and one name are stored, each past all others of its kind. -/
structure Invents (w : Workspace) (made : Invention) : Prop where
  answer : (w.step invent).1 = .ok (.node .type made.type)
  type : made.type.index = w.context.count .type
  parm : made.parm.index = w.context.count .decl
  name : made.name.index = w.context.count .name
  types : (w.step invent).2.context.count .type = w.context.count .type + 1
  decls : (w.step invent).2.context.count .decl = w.context.count .decl + 1
  names : (w.step invent).2.context.count .name = w.context.count .name + 1
  /-- The number is a new one, and no larger than a handle. -/
  number : ∀ n k, w.context.arena.name n = .ok (.placeholder k) → k < made.number
  number_lt : made.number < w.context.count .name

variable {w : Workspace}

/-- To invent succeeds, and what is invented stands from then on. -/
theorem invents (hformed : w.context.Formed) (hnumbered : w.context.Numbered) :
    w.Invents w.context.invention ∧ (w.step invent).2.context.Holds w.context.invention := by
  have hnone := hformed.typename_next
  obtain ⟨hindex, hentries⟩ := Interner.intern_of_none hnone
  have hanswer : (w.context.types.intern (.typename w.context.invention.parm)).1
      = w.context.invention.type := Handle.index_inj.mp hindex
  have hstep : w.step invent
      = (.ok (.node .type w.context.invention.type),
          { w with context := w.context.withInvention }) :=
    step_node rfl (by rw [TypeRequest.perform, placeholderType_run, hanswer])
  rw [hstep]
  refine ⟨⟨by rw [hstep], rfl, rfl, rfl, ?_, ?_, ?_, hnumbered.below, hnumbered.fewer⟩,
    Context.holds_withInvention hformed hnumbered⟩
  · rw [hstep]
    show (w.context.types.kinds.intern _).2.entries.size = _
    rw [hentries, Array.size_push]
    rfl
  · rw [hstep]
    exact Array.size_push _
  · rw [hstep]
    exact Array.size_push _

variable (config : Config) (digest : List Nat → UInt64)

/-- The numbers are in order in every state that is reached. -/
theorem numbered_reached (commands : List Command) :
    (reached config digest commands).context.Numbered :=
  (Context.numbered_create config digest).run commands

/-- What is invented in a run stands in every later state. -/
theorem invents_reached (before rest : List Command) :
    (reached config digest before).Invents (reached config digest before).context.invention ∧
      (reached config digest (before ++ invent :: rest)).context.Holds
        (reached config digest before).context.invention := by
  obtain ⟨hinvents, hholds⟩ :=
    invents (formed_reached config digest before) (numbered_reached config digest before)
  have hle : ((reached config digest before).step invent).2.context.Precedes
      (reached config digest (before ++ invent :: rest)).context := by
    rw [reached, reached, run_append]
    exact run_precedes _ rest
  exact ⟨hinvents, hholds.later hle (numbered_reached config digest _)⟩

/-- Names with different numbers are not alike. -/
theorem partsAlike_of_number_ne {a : Arena} {m n : NameId} {j k : Nat}
    (hm : a.name m = .ok (.placeholder j)) (hn : a.name n = .ok (.placeholder k)) (hne : j ≠ k) :
    a.partsAlike (.name m) (.name n) = .ok false := by
  have hmn : m ≠ n := by
    intro heq
    subst heq
    rw [hm] at hn
    cases hn
    exact hne rfl
  unfold Arena.partsAlike Arena.depthBound Arena.alikeWithin
  rw [if_neg hmn, hm, hn]
  simp [bind, Except.bind, NameKind.demands, Demand.settle, hne, pure, Except.pure]

/-- **Invented type parameters are always new.**  Whatever is run before, between
and after two requests for a placeholder type: each of them succeeds, with one
new type, of a new type parameter, under a new name whose number no other name
has, then or later.  So the two types are different, the two parameters are, and
the two names are different and not even alike. -/
theorem inventions_differ (before between after : List Command) :
    ∃ first second : Invention,
      (reached config digest before).Invents first ∧
      (reached config digest (before ++ invent :: between)).context.Holds first ∧
      (reached config digest (before ++ invent :: between)).Invents second ∧
      (reached config digest (before ++ invent :: between ++ invent :: after)).context.Holds first ∧
      (reached config digest (before ++ invent :: between ++ invent :: after)).context.Holds second ∧
      first.type ≠ second.type ∧ first.parm ≠ second.parm ∧ first.name ≠ second.name ∧
      (reached config digest (before ++ invent :: between ++ invent :: after)).context.arena.partsAlike
        (.name first.name) (.name second.name) = .ok false ∧
      (reached config digest (before ++ invent :: between ++ invent :: after)).context.arena.partsAlike
        (.name second.name) (.name first.name) = .ok false := by
  obtain ⟨hfirst, hthen⟩ := invents_reached config digest before between
  obtain ⟨hsecond, hlast⟩ := invents_reached config digest (before ++ invent :: between) after
  have hle := reached_precedes config digest (before ++ invent :: between) (invent :: after)
  have hstill := hthen.later hle (numbered_reached config digest _)
  have htype := lt_of_fetch hthen.type
  have hparm := lt_of_fetch hthen.parm
  have hname := lt_of_fetch hthen.name
  have hnumber := hsecond.number _ _ hthen.name
  refine ⟨_, _, hfirst, hthen, hsecond, hstill, hlast, ?_, ?_, ?_, ?_, ?_⟩
  · exact fun heq => Nat.ne_of_lt htype (congrArg Handle.index heq)
  · exact fun heq => Nat.ne_of_lt hparm (congrArg Handle.index heq)
  · exact fun heq => Nat.ne_of_lt hname (congrArg Handle.index heq)
  · exact partsAlike_of_number_ne hstill.name hlast.name (Nat.ne_of_lt hnumber)
  · exact partsAlike_of_number_ne hlast.name hstill.name (Nat.ne_of_gt hnumber)

end Workspace

end TermGraph
