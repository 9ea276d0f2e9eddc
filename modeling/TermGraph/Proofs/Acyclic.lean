import Mathlib.Data.Finset.Card
import Mathlib.Data.Finset.Image
import Mathlib.Data.Finset.Range
import Mathlib.Logic.Relation
import TermGraph.Proofs.Walks

/-!
# Walks without cycles

Where handles are passed that were never issued, a node may mention a node that
comes later, and there is no rank to count down.  But a walk only goes on from
entries that are there, and if it never comes back to one of them then it
leaves one behind at each step: fewer entries are ahead of it
(`card_ahead_lt`).  So it takes no more steps than there are entries
(`Ends.of_acyclic`), and that is what the walks are allowed.

Handles that lead nowhere are no obstacle, for there a walk stops.
-/

namespace TermGraph

open Relation

section Ahead

variable {ι α : Type} {follows : ι → ι → Prop} {table : Finset ι} {i j : ι}

open Classical in
/-- The entries of a table to which one gets from an entry, itself included. -/
noncomputable def ahead (follows : ι → ι → Prop) (table : Finset ι) (i : ι) : Finset ι :=
  table.filter fun j => ReflTransGen follows i j

/-- What is ahead of an entry: the entries to which one gets from it. -/
theorem mem_ahead : j ∈ ahead follows table i ↔ j ∈ table ∧ ReflTransGen follows i j := by
  simp [ahead]

/-- **One entry is left behind.**  From an entry that one does not come back to,
every step leads to where fewer entries are ahead. -/
theorem card_ahead_lt (h : follows i j) (hi : i ∈ table) (hacyclic : ¬ TransGen follows i i) :
    (ahead follows table j).card < (ahead follows table i).card := by
  apply Finset.card_lt_card
  constructor
  · intro l hl
    obtain ⟨hthere, hreach⟩ := mem_ahead.mp hl
    exact mem_ahead.mpr ⟨hthere, .head h hreach⟩
  · intro hsub
    have hself : i ∈ ahead follows table i := mem_ahead.mpr ⟨hi, .refl⟩
    obtain ⟨_, hback⟩ := mem_ahead.mp (hsub hself)
    exact hacyclic (.head' h hback)

/-- **Walks without cycles end.**  A walk that goes on from the entries of a table
only, and comes back to none, ends within one step more than there are
entries. -/
theorem Ends.of_acyclic (walks : ι → Nat → Except Fault α)
    (hinside : ∀ i j, follows i j → i ∈ table)
    (hdown : ∀ i bound, (∀ j, follows i j → Ends (walks j) bound) → Ends (walks i) (bound + 1))
    (hacyclic : ∀ j, ReflTransGen follows i j → ¬ TransGen follows j j) :
    Ends (walks i) (table.card + 1) := by
  -- only what is reached from the start matters, so these are what is measured
  let start : { j // ReflTransGen follows i j } := ⟨i, .refl⟩
  have hall : (ahead follows table i).card < table.card + 1 :=
    Nat.lt_succ_of_le (Finset.card_le_card fun l hl => (mem_ahead.mp hl).1)
  refine of_measure (i := start) (fun j n => walks j.1 n)
    (fun j => (ahead follows table j.1).card) ?_ hall
  intro j bound hgo
  refine hdown j.1 bound fun l hjl => ?_
  exact hgo ⟨l, j.2.tail hjl⟩ (card_ahead_lt hjl (hinside j.1 l hjl) (hacyclic j.1 j.2))

end Ahead

/-- The handles of a table of a given size. -/
def Handle.inside {c : Category} (size : Nat) : Finset (Handle c) :=
  (Finset.range size).image Handle.mk

/-- The handles of a table are those with an index below its size. -/
theorem Handle.mem_inside {c : Category} {size : Nat} {h : Handle c} :
    h ∈ Handle.inside size ↔ h.index < size := by
  constructor
  · intro hmem
    obtain ⟨index, hindex, rfl⟩ := Finset.mem_image.mp hmem
    exact Finset.mem_range.mp hindex
  · intro hlt
    exact Finset.mem_image.mpr ⟨h.index, Finset.mem_range.mpr hlt, rfl⟩

/-- A table has no more handles than entries. -/
theorem Handle.card_inside_le {c : Category} (size : Nat) :
    (Handle.inside size : Finset (Handle c)).card ≤ size := by
  calc (Handle.inside size : Finset (Handle c)).card
      ≤ (Finset.range size).card := Finset.card_image_le
    _ = size := Finset.card_range size

namespace Arena

variable {a : Arena}

/-- The words of a part are found, or are missing, by the bound, if no node
reached from the part contains itself. -/
theorem words_end {p : Part} (hacyclic : ∀ q, ReflTransGen a.HasPart p q → ¬ TransGen a.HasPart q q) :
    Ends (fun n => a.wordsWithin n p) a.depthBound := by
  have hinside : ∀ p q, a.HasPart p q → p ∈ a.nodes := by
    intro p q hpart
    obtain ⟨ps, hps, _⟩ := hpart
    exact mem_nodes hps
  have hends := Ends.of_acyclic (fun p n => a.wordsWithin n p) hinside
    (fun p bound hgo => wordsWithin_ends hgo) hacyclic
  exact hends.mono a.card_nodes_lt

/-- The first declaration is a template around the second. -/
def Wraps (a : Arena) (d inner : DeclId) : Prop :=
  ∃ parms constraint, a.decl d = .ok (.template parms inner constraint)

/-- Looking through templates ends if none wraps itself. -/
theorem core_ends (hacyclic : ∀ d, ¬ TransGen a.Wraps d d) (d : DeclId) :
    Ends (fun n => a.coreWithin n d) (a.decls.size + 1) := by
  have hinside : ∀ d inner, a.Wraps d inner → d ∈ Handle.inside a.decls.size := by
    intro d inner hwraps
    obtain ⟨parms, constraint, hdecl⟩ := hwraps
    exact Handle.mem_inside.mpr (lt_of_fetch hdecl)
  have hends := Ends.of_acyclic (i := d) (fun d n => a.coreWithin n d) hinside
    (fun d bound hgo => coreWithin_ends fun parms inner constraint hdecl =>
      hgo inner ⟨parms, constraint, hdecl⟩) fun j _ => hacyclic j
  exact hends.mono (Nat.succ_le_succ (Handle.card_inside_le _))

/-- The name of a declaration is found, or is missing, if no template wraps
itself. -/
theorem declName_ne_cyclic (hacyclic : ∀ d, ¬ TransGen a.Wraps d d) (d : DeclId) :
    a.declName d ≠ .error .cyclic :=
  map_ne_cyclic (core_ends hacyclic d).answers

end Arena

/-- Spelling ends if no template wraps itself and no name is spelled through
itself. -/
theorem Context.spell_ends {cx : Context} (hwraps : ∀ d, ¬ TransGen cx.arena.Wraps d d)
    (hspells : ∀ n, ¬ TransGen cx.SpellsThrough n n) (n : NameId) :
    Ends (fun steps => cx.spellWithin steps n) (cx.arena.names.size + 1) := by
  have hinside : ∀ n m, cx.SpellsThrough n m → n ∈ Handle.inside cx.arena.names.size :=
    fun n m h => Handle.mem_inside.mpr h.issued
  have hends := Ends.of_acyclic (i := n) (fun n steps => cx.spellWithin steps n) hinside
    (fun n bound hgo => spellWithin_ends (Arena.declName_ne_cyclic hwraps) hgo)
    fun j _ => hspells j
  exact hends.mono (Nat.succ_le_succ (Handle.card_inside_le _))

end TermGraph
