import Mathlib.Data.Finset.Dedup
import TermGraph.Proofs.Expr.Concurrence
import TermGraph.Proofs.Invention

/-!
# Symbols and spellings

A table of spellings is asked two things: for the symbol of a spelling, which is
given one if it has none, and for the symbol that a spelling has already.  After
any such calls the spellings in the table and the numbers below its size
correspond one to one (`SymbolTable.Bijective`), and the spellings are the empty
one and those that were interned.  A symbol once given stays the symbol of its
spelling.

In a context the table is asked by three requests only
(`Command.symbolCall?`).  What a run does to it is what those of its commands
do, carried out on a table by itself (`Workspace.run_symbols`), and the answers
of the table are handed on (`Workspace.HandsOn`).  So everything about tables by
themselves holds of the table of a context, through whatever else is asked of
it.
-/

namespace TermGraph

/-- What is asked of a table of spellings. -/
inductive SymbolCall where
  /-- The symbol of a spelling, which is given one if it has none. -/
  | intern (s : String)
  /-- The symbol of a spelling, if it has one. -/
  | get (s : String)
  deriving DecidableEq

/-- The spelling that is in the table after the call for certain. -/
def SymbolCall.interned? : SymbolCall → Option String
  | .intern s => some s
  | .get _ => none

/-- The spellings that calls intern. -/
def SymbolCall.interned (calls : List SymbolCall) : List String := calls.filterMap interned?

/-- A spelling is interned by a run of calls when one of them interns it. -/
theorem SymbolCall.mem_interned {s : String} {calls : List SymbolCall} :
    s ∈ interned calls ↔ .intern s ∈ calls := by
  rw [interned, List.mem_filterMap]
  constructor
  · rintro ⟨c, hc, hs⟩
    cases c with
    | intern s' =>
      cases hs
      exact hc
    | get => cases hs
  · intro h
    exact ⟨.intern s, h, rfl⟩

namespace SymbolTable

variable {t : SymbolTable} {s : String} {sym : Symbol}

/-- Carry out a call: the symbol answered, if there is one, and the table
afterwards. -/
def call (t : SymbolTable) : SymbolCall → Option Symbol × SymbolTable
  | .intern s => (some (t.intern s).1, (t.intern s).2)
  | .get s => (t.get? s, t)

/-- The table after calls. -/
def after (t : SymbolTable) : List SymbolCall → SymbolTable
  | [] => t
  | c :: rest => (t.call c).2.after rest

theorem after_append (t : SymbolTable) (before rest : List SymbolCall) :
    t.after (before ++ rest) = (t.after before).after rest := by
  induction before generalizing t with
  | nil => rfl
  | cons c before ih => exact ih (t.call c).2

/-! ## One table -/

/-- A spelling has a symbol exactly when the symbol stands for it. -/
theorem get?_eq_some_iff : t.get? s = some sym ↔ t.lookup sym = .ok s := by
  rw [lookup, fetch_eq_ok, ← t.spellings.position_iff, get?, Option.map_eq_some_iff]
  constructor
  · rintro ⟨i, hi, rfl⟩
    exact hi
  · intro h
    exact ⟨sym.index, h, rfl⟩

/-- The symbols that stand for something are the numbers below the size. -/
theorem exists_lookup_iff : (∃ s, t.lookup sym = .ok s) ↔ sym.index < t.size := by
  constructor
  · rintro ⟨s, h⟩
    exact lt_of_fetch h
  · intro h
    exact exists_fetch h

/-- A spelling that was just interned has the symbol that was answered. -/
theorem get?_intern (t : SymbolTable) (s : String) :
    (t.intern s).2.get? s = some (t.intern s).1 :=
  get?_eq_some_iff.mpr (fetch_eq_ok.mpr (t.spellings.getElem?_intern s))

/-- A spelling that has a symbol keeps it, and the table stays as it is. -/
theorem intern_of_get? (h : t.get? s = some sym) : t.intern s = (sym, t) := by
  have hentry := fetch_eq_ok.mp (get?_eq_some_iff.mp h)
  rw [intern, Interner.intern_of_getElem? hentry]

/-- The spellings are those of before and the one interned. -/
theorem mem_entries_intern (t : SymbolTable) (s s' : String) :
    s' ∈ (t.intern s).2.spellings.entries ↔ s' ∈ t.spellings.entries ∨ s' = s := by
  have hself : s ∈ (t.spellings.intern s).2.entries :=
    Array.mem_of_getElem? (t.spellings.getElem?_intern s)
  show s' ∈ (t.spellings.intern s).2.entries ↔ _
  rcases t.spellings.entries_intern s with heq | heq <;> rw [heq] at hself ⊢
  · constructor
    · exact .inl
    · rintro (h | rfl)
      · exact h
      · exact hself
  · exact Array.mem_push

/-- The spellings in the table are those that have a symbol. -/
theorem mem_entries_iff : s ∈ t.spellings.entries ↔ (t.get? s).isSome := by
  rw [Array.mem_iff_getElem?, Option.isSome_iff_exists]
  constructor
  · rintro ⟨i, hi⟩
    exact ⟨⟨i⟩, get?_eq_some_iff.mpr (fetch_eq_ok.mpr hi)⟩
  · rintro ⟨sym, h⟩
    exact ⟨sym.index, fetch_eq_ok.mp (get?_eq_some_iff.mp h)⟩

/-- No spelling is listed twice. -/
theorem nodup_entries (t : SymbolTable) : t.spellings.entries.toList.Nodup := by
  rw [List.nodup_iff_getElem?_ne_getElem?]
  intro i j hij hj heq
  have hentry : t.spellings.entries[j]? = some t.spellings.entries.toList[j] := by
    rw [← Array.getElem?_toList, List.getElem?_eq_getElem hj]
  rw [Array.getElem?_toList, Array.getElem?_toList, hentry] at heq
  exact Nat.ne_of_lt hij (Interner.eq_of_getElem? heq hentry)

/-! ## Calls in a row -/

/-- The spellings after calls are those of before and those interned. -/
theorem mem_entries_after {calls : List SymbolCall} :
    s ∈ (t.after calls).spellings.entries ↔ s ∈ t.spellings.entries ∨ .intern s ∈ calls := by
  induction calls generalizing t with
  | nil => simp [after]
  | cons c calls ih =>
    rw [after, ih]
    cases c with
    | intern s' =>
      rw [call, mem_entries_intern, or_assoc, List.mem_cons, SymbolCall.intern.injEq]
    | get s' => simp [call]

/-- What a symbol stands for it stands for later. -/
theorem lookup_after (calls : List SymbolCall) (h : t.lookup sym = .ok s) :
    (t.after calls).lookup sym = .ok s := by
  induction calls generalizing t with
  | nil => exact h
  | cons c calls ih =>
    refine ih ?_
    cases c with
    | intern s' => exact fetch_later (t.spellings.prefix_intern s') h
    | get s' => exact h

/-- Spellings and symbols correspond one to one, and the spellings are the empty
one and those seen. -/
structure Bijective (t : SymbolTable) (seen : List String) : Prop where
  known : ∀ s, (t.get? s).isSome ↔ s = "" ∨ s ∈ seen
  inverse : ∀ s sym, t.get? s = some sym ↔ t.lookup sym = .ok s
  /-- A spelling that has a symbol is given the same one again. -/
  again : ∀ s sym, t.get? s = some sym → t.intern s = (sym, t)
  /-- The symbols are the numbers below the size. -/
  below : ∀ sym : Symbol, (∃ s, t.lookup sym = .ok s) ↔ sym.index < t.size
  /-- There are as many as spellings, the empty one included. -/
  size : t.size = (insert "" seen.toFinset).card
  empty : t.lookup .empty = .ok ""

/-- The symbol 0 always stands for the empty spelling. -/
theorem lookup_empty (calls : List SymbolCall) : (fresh.after calls).lookup .empty = .ok "" := by
  have hfresh : fresh.lookup .empty = .ok "" := by decide
  exact lookup_after calls hfresh

/-- The only spelling in a new table is the empty one. -/
theorem mem_entries_fresh : s ∈ fresh.spellings.entries ↔ s = "" := by
  have hempty : s ∉ (⟨Interner.empty⟩ : SymbolTable).spellings.entries := Array.not_mem_empty s
  have hintern := mem_entries_intern ⟨Interner.empty⟩ "" s
  rw [or_iff_right hempty] at hintern
  exact hintern

/-- **After any calls** symbols and spellings correspond one to one. -/
theorem bijective_after (calls : List SymbolCall) :
    (fresh.after calls).Bijective (SymbolCall.interned calls) := by
  have hmem : ∀ s, s ∈ (fresh.after calls).spellings.entries ↔
      s = "" ∨ s ∈ SymbolCall.interned calls := by
    intro s
    rw [mem_entries_after, mem_entries_fresh, SymbolCall.mem_interned]
  refine ⟨fun s => ?_, fun s sym => get?_eq_some_iff, fun s sym => intern_of_get?,
    fun sym => exists_lookup_iff, ?_, lookup_empty calls⟩
  · rw [← mem_entries_iff, hmem]
  · have hset : (fresh.after calls).spellings.entries.toList.toFinset
        = insert "" (SymbolCall.interned calls).toFinset := by
      ext s
      rw [List.mem_toFinset, Array.mem_toList_iff, hmem, Finset.mem_insert, List.mem_toFinset]
    rw [← hset, List.toFinset_card_of_nodup (nodup_entries _)]
    exact Array.length_toList.symm

/-- The symbol given to a spelling stands for it from then on. -/
theorem lookup_of_interned (t : SymbolTable) (s : String) (more : List SymbolCall) :
    (t.after (.intern s :: more)).lookup (t.intern s).1 = .ok s :=
  lookup_after more (get?_eq_some_iff.mp (get?_intern t s))

/-- Equal spellings are given equal symbols and different ones different, whenever
they are interned. -/
theorem intern_later_eq_iff (t : SymbolTable) (s s' : String) (more : List SymbolCall) :
    ((t.after (.intern s :: more)).intern s').1 = (t.intern s).1 ↔ s' = s := by
  have hfirst := lookup_of_interned t s more
  constructor
  · intro h
    have hagain := lookup_of_interned (t.after (.intern s :: more)) s' []
    have hstill := lookup_after [.intern s'] hfirst
    rw [h, hstill] at hagain
    exact (Except.ok.inj hagain).symm
  · rintro rfl
    rw [intern_of_get? (get?_eq_some_iff.mpr hfirst)]

end SymbolTable

/-! ## The table of a context -/

/-- The call that a command makes on the table of spellings. -/
def Command.symbolCall? : Command → Option SymbolCall
  | .ask (.intern s) | .ask (.name (.identifier s)) => some (.intern s)
  | .ask (.query (.symbol s)) => some (.get s)
  | _ => none

/-- The requests that intern a spelling. -/
theorem Command.symbolCall?_eq_intern {command : Command} {s : String} :
    command.symbolCall? = some (.intern s) ↔
      command = .ask (.intern s) ∨ command = .ask (.name (.identifier s)) := by
  constructor
  · intro h
    unfold symbolCall? at h
    split at h
    · cases h
      exact .inl rfl
    · cases h
      exact .inr rfl
    · cases h
    · cases h
  · rintro (rfl | rfl) <;> rfl

namespace Workspace

/-- A command does to the spellings what its call does. -/
theorem step_symbols (w : Workspace) (command : Command) :
    (w.step command).2.context.symbols = w.context.symbols.after command.symbolCall?.toList := by
  by_cases hwords : ∃ request, command = .ask request ∧ request.HasWords
  · obtain ⟨request, rfl, hrequest⟩ := hwords
    match request, hrequest with
    | .intern s, _ => rfl
    | .name (.identifier s), _ => rfl
    | .name .placeholder, _ => rfl
    | .type .placeholder, _ =>
      rw [step_ask, Request.perform, Build.runOn_map, TypeRequest.perform,
        Build.placeholderType_run]
      rfl
  · have hsame := w.step_wordless fun request hcommand hrequest =>
      hwords ⟨request, hcommand, hrequest⟩
    rw [hsame.symbols]
    cases hcall : command.symbolCall? with
    | none => rfl
    | some c =>
      cases c with
      | get s => rfl
      | intern s =>
        rcases Command.symbolCall?_eq_intern.mp hcall with rfl | rfl
        · exact absurd ⟨_, rfl, trivial⟩ hwords
        · exact absurd ⟨_, rfl, trivial⟩ hwords

/-- A run does to the spellings what its calls do. -/
theorem run_symbols (w : Workspace) (commands : List Command) :
    (w.run commands).2.context.symbols
      = w.context.symbols.after (commands.filterMap Command.symbolCall?) := by
  induction commands generalizing w with
  | nil => rfl
  | cons command rest ih =>
    rw [run_cons, ih, step_symbols, ← SymbolTable.after_append]
    cases hcall : command.symbolCall? <;> simp [hcall]

/-- The command hands on what the table answers: in its own answer, or in the
name that it stores. -/
def HandsOn (w : Workspace) (command : Command) (answer : Option Symbol) : Prop :=
  (w.step command).1 = .ok (.symbol answer) ∨
    ∃ n sym, answer = some sym ∧ (w.step command).1 = .ok (.node .name n) ∧
      (w.step command).2.context.arena.name n = .ok (.simple sym)

/-- A command that makes a call hands on what the call answers. -/
theorem handsOn_of_symbolCall? (w : Workspace) {command : Command} {c : SymbolCall}
    (h : command.symbolCall? = some c) : w.HandsOn command (w.context.symbols.call c).1 := by
  cases c with
  | get s =>
    unfold Command.symbolCall? at h
    split at h
    · cases h
    · cases h
    · cases h
      exact .inl rfl
    · cases h
  | intern s =>
    rcases Command.symbolCall?_eq_intern.mp h with rfl | rfl
    · exact .inl rfl
    · exact .inr ⟨_, _, rfl, rfl, fetch_push_size _ _⟩

/-- The request for an identifier. -/
def identify (s : String) : Command := .ask (.name (.identifier s))

/-- An identifier is spelled as it was asked for. -/
theorem spell_identifier (w : Workspace) (s : String) :
    ∃ n, (w.step (identify s)).1 = .ok (.node .name n) ∧
      (w.step (identify s)).2.context.spell n = .ok s := by
  have hname : (w.step (identify s)).2.context.arena.name ⟨w.context.arena.names.size⟩
      = .ok (.simple (w.context.symbols.intern s).1) := fetch_push_size _ _
  have hsymbol : (w.step (identify s)).2.context.symbols.lookup (w.context.symbols.intern s).1
      = .ok s := w.context.symbols.lookup_of_interned s []
  refine ⟨_, rfl, ?_⟩
  show Context.spellWithin _ (_ + 1) _ = _
  rw [Context.spellWithin, hname]
  exact hsymbol

variable (config : Config) (digest : List Nat → UInt64)

/-- The table of a context has seen the calls that the commands made, in their
order, and no others. -/
theorem reached_symbols (commands : List Command) :
    (reached config digest commands).context.symbols
      = SymbolTable.fresh.after (commands.filterMap Command.symbolCall?) :=
  (start config digest).run_symbols commands

/-- **Symbols and spellings correspond one to one.**  Of a table by itself, after
any calls:

* its symbols and spellings are in bijection, the symbols are the numbers below
  its size, and the spellings are the empty one, whose symbol is 0, and those
  interned;
* the symbol that was given to a spelling stands for it from then on, and is
  what interning answers for that spelling and for no other;
* to ask for the symbol that a spelling has changes nothing.

The table of a context is such a table, after the calls that the commands of the
run make; each of these commands hands on what the table answers, and a query
changes nothing at all.  So an identifier is spelled, then and ever after, as it
was asked for. -/
theorem symbols_correspond :
    (∀ calls : List SymbolCall,
        (SymbolTable.fresh.after calls).Bijective (SymbolCall.interned calls)) ∧
      (∀ (calls more : List SymbolCall) (s : String),
        (SymbolTable.fresh.after (calls ++ .intern s :: more)).lookup
            ((SymbolTable.fresh.after calls).intern s).1 = .ok s ∧
          ∀ s', ((SymbolTable.fresh.after (calls ++ .intern s :: more)).intern s').1
            = ((SymbolTable.fresh.after calls).intern s).1 ↔ s' = s) ∧
      (∀ (calls : List SymbolCall) (s : String),
        ((SymbolTable.fresh.after calls).call (.get s)).2 = SymbolTable.fresh.after calls) ∧
      (∀ commands, (reached config digest commands).context.symbols
        = SymbolTable.fresh.after (commands.filterMap Command.symbolCall?)) ∧
      (∀ commands command c, command.symbolCall? = some c →
        (reached config digest commands).HandsOn command
          ((reached config digest commands).context.symbols.call c).1) ∧
      (∀ commands s, ((reached config digest commands).step (.ask (.query (.symbol s)))).2
        = reached config digest commands) ∧
      ∀ before s, ∃ n,
        ((reached config digest before).step (identify s)).1 = .ok (.node .name n) ∧
          ∀ rest,
            (reached config digest (before ++ identify s :: rest)).context.spell n = .ok s := by
  refine ⟨SymbolTable.bijective_after, fun calls more s => ?_, fun _ _ => rfl,
    reached_symbols config digest, fun commands command c hc => ?_, fun _ _ => rfl,
    fun before s => ?_⟩
  · rw [SymbolTable.after_append]
    exact ⟨SymbolTable.lookup_of_interned _ s more,
      fun s' => SymbolTable.intern_later_eq_iff _ s s' more⟩
  · exact handsOn_of_symbolCall? _ hc
  · obtain ⟨n, hanswer, hspell⟩ := spell_identifier (reached config digest before) s
    refine ⟨n, hanswer, fun rest => ?_⟩
    have hle : ((reached config digest before).step (identify s)).2.context.Precedes
        (reached config digest (before ++ identify s :: rest)).context := by
      rw [reached, reached, run_append]
      exact run_precedes _ rest
    exact hle.spell hspell

end Workspace

end TermGraph
