import Std.Data.TreeMap

/-!
# Interning

An interner gives equal keys one number and different keys different numbers.
It keeps the keys in the order in which they first came (`entries`) beside a
map that leads from a key to its place in that order (`position`), and the two
always say the same thing: `position_iff` is part of the type.

Spellings and types are interned this way.  What their tables promise comes
down to three facts about a single `intern`:

* `entries_intern` — the table only grows, at its end, and by at most the key;
* `getElem?_intern` — the number answered leads back to the key;
* `intern_of_position` — a key already there keeps its number, and the table
  is left alone.
-/

namespace TermGraph

open Std (TreeMap TransOrd LawfulEqOrd)

/-- Keys numbered from zero in the order of their first appearance. -/
structure Interner (κ : Type) [Ord κ] [TransOrd κ] [LawfulEqOrd κ] where
  entries : Array κ
  position : TreeMap κ Nat
  /-- Reading a key's number and reading a number's key are inverse. -/
  position_iff : ∀ (k : κ) (i : Nat), position[k]? = some i ↔ entries[i]? = some k

namespace Interner

variable {κ : Type} [Ord κ] [TransOrd κ] [LawfulEqOrd κ]

def empty : Interner κ where
  entries := #[]
  position := ∅
  position_iff := by simp

instance : Inhabited (Interner κ) := ⟨empty⟩

def size (t : Interner κ) : Nat := t.entries.size

/-- The number of a key, if it has one. -/
def find? (t : Interner κ) (k : κ) : Option Nat := t.position[k]?

/-- A new key may take the next number: the map and the order stay inverse. -/
theorem position_iff_push {t : Interner κ} {k : κ} (new : t.position[k]? = none) (k' : κ)
    (i : Nat) :
    (t.position.insert k t.entries.size)[k']? = some i ↔ (t.entries.push k)[i]? = some k' := by
  have below : ∀ {j}, t.entries[j]? = some k' → j < t.entries.size := fun h =>
    (Array.getElem?_eq_some_iff.mp h).1
  rw [TreeMap.getElem?_insert, Array.getElem?_push]
  by_cases same : k = k'
  · subst same
    rw [if_pos Std.ReflCmp.compare_self]
    by_cases last : i = t.entries.size
    · simp [last]
    · have absent : t.entries[i]? ≠ some k := fun h => by
        simp [(t.position_iff k i).mpr h] at new
      simp [last, absent, Ne.symm last]
  · rw [if_neg (fun h => same (Std.LawfulEqCmp.eq_of_compare h)), t.position_iff]
    by_cases last : i = t.entries.size
    · subst last
      simp [same]
    · simp [last]

/-- The number of a key, given to it now if it has none. -/
def intern (t : Interner κ) (k : κ) : Nat × Interner κ :=
  match found : t.position[k]? with
  | some i => (i, t)
  | none =>
    (t.entries.size,
      { entries := t.entries.push k
        position := t.position.insert k t.entries.size
        position_iff := position_iff_push found })

/-- A key that has a number keeps it, and the table does not change. -/
theorem intern_of_position {t : Interner κ} {k : κ} {i : Nat} (h : t.position[k]? = some i) :
    t.intern k = (i, t) := by
  unfold intern
  split <;> simp_all

/-- A key that is listed keeps its number. -/
theorem intern_of_getElem? {t : Interner κ} {k : κ} {i : Nat} (h : t.entries[i]? = some k) :
    t.intern k = (i, t) :=
  intern_of_position ((t.position_iff k i).mpr h)

/-- A key is listed once. -/
theorem eq_of_getElem? {t : Interner κ} {k : κ} {i j : Nat} (hi : t.entries[i]? = some k)
    (hj : t.entries[j]? = some k) : i = j := by
  have hsame := (intern_of_getElem? hi).symm.trans (intern_of_getElem? hj)
  exact congrArg Prod.fst hsame

/-- A key without a number gets the next one. -/
theorem intern_of_none {t : Interner κ} {k : κ} (h : t.position[k]? = none) :
    (t.intern k).1 = t.entries.size ∧ (t.intern k).2.entries = t.entries.push k := by
  unfold intern
  split <;> simp_all

/-- The table grows at its end, by the key or by nothing. -/
theorem entries_intern (t : Interner κ) (k : κ) :
    (t.intern k).2.entries = t.entries ∨ (t.intern k).2.entries = t.entries.push k := by
  cases h : t.position[k]? with
  | some i => exact .inl (by rw [intern_of_position h])
  | none => exact .inr (intern_of_none h).2

/-- The number answered is the number of the key. -/
theorem getElem?_intern (t : Interner κ) (k : κ) :
    (t.intern k).2.entries[(t.intern k).1]? = some k := by
  cases h : t.position[k]? with
  | some i => rw [intern_of_position h]; exact (t.position_iff k i).mp h
  | none => rw [(intern_of_none h).1, (intern_of_none h).2]; simp

end Interner

end TermGraph
