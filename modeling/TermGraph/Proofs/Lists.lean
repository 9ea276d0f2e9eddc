import Mathlib.Data.List.Forall2

/-!
# Lists, entry by entry

Two lists are related entry by entry when `List.Forall₂` holds of them.  Here
it is cut at a place in the lists, and tied to reading a list by a function
that may have no value: a list is read to another exactly when its entries are
(`mapM_eq_some`).  For induction on a list from its end there is one lemma on
where a list with one element more can be split
(`append_singleton_eq_split`).
-/

namespace TermGraph

open List

variable {α β γ : Type}

/-- Lists cut at the same place are related when both halves are. -/
theorem forall₂_append_iff {r : α → β → Prop} {ps rs : List α} {qs ss : List β}
    (h : ps.length = qs.length) :
    Forall₂ r (ps ++ rs) (qs ++ ss) ↔ Forall₂ r ps qs ∧ Forall₂ r rs ss := by
  induction ps generalizing qs with
  | nil => simp [length_eq_zero_iff.mp h.symm]
  | cons p ps ih =>
      cases qs with
      | nil => simp at h
      | cons q qs => simp [ih (Nat.succ.inj h), and_assoc]

/-- A step that always gives something does not make anything missing. -/
@[simp]
theorem bind_some_isSome {x : Option α} {f : α → β} :
    (x.bind fun a => some (f a)).isSome = x.isSome := by
  cases x <;> rfl

/-- Nor do two of them, one within the other. -/
@[simp]
theorem bind_bind_some_isSome {x : Option α} {y : Option β} {f : α → β → γ} :
    (x.bind fun a => y.bind fun b => some (f a b)).isSome = (x.isSome && y.isSome) := by
  cases x <;> cases y <;> rfl

/-- A split of a list with one element more either is made at that element or is
a split of the rest. -/
theorem append_singleton_eq_split {xs before after : List α} {last x : α} :
    xs ++ [last] = before ++ x :: after ↔
      after = [] ∧ xs = before ∧ last = x ∨
        ∃ rest, after = rest ++ [last] ∧ xs = before ++ x :: rest := by
  constructor
  · intro h
    rcases after.eq_nil_or_concat with rfl | ⟨rest, final, rfl⟩
    · obtain ⟨hinit, hlast⟩ := append_inj' h rfl
      exact .inl ⟨rfl, hinit, (cons.inj hlast).1⟩
    · have h' : xs ++ [last] = (before ++ x :: rest) ++ [final] := by
        simpa using h
      obtain ⟨hinit, hlast⟩ := append_inj' h' rfl
      obtain rfl : last = final := (cons.inj hlast).1
      exact .inr ⟨rest, concat_eq_append, hinit⟩
  · rintro (⟨rfl, rfl, rfl⟩ | ⟨rest, rfl, rfl⟩)
    · rfl
    · simp

/-- A list is read when its entries are. -/
theorem mapM_eq_some {f : α → Option β} {xs : List α} {ys : List β} :
    xs.mapM f = some ys ↔ Forall₂ (fun x y => f x = some y) xs ys := by
  induction xs generalizing ys with
  | nil => cases ys <;> simp
  | cons x xs ih =>
      cases ys with
      | nil => simp [mapM_cons, Option.bind_eq_some_iff]
      | cons y ys => simp [mapM_cons, Option.bind_eq_some_iff, ← ih]

/-- A list can be read exactly when its entries can. -/
theorem mapM_isSome {f : α → Option β} {xs : List α} :
    (xs.mapM f).isSome ↔ ∀ x ∈ xs, (f x).isSome := by
  induction xs with
  | nil => simp
  | cons x xs ih =>
      rw [forall_mem_cons, ← ih, mapM_cons]
      cases f x with
      | none => simp
      | some y => cases xs.mapM f <;> simp

/-- A list that was read by a function with a left inverse is found again. -/
theorem map_of_mapM_eq_some {f : α → Option β} {g : β → α} (h : ∀ x y, f x = some y → g y = x)
    {xs : List α} {ys : List β} (hxs : xs.mapM f = some ys) : ys.map g = xs := by
  rw [mapM_eq_some] at hxs
  induction hxs with
  | nil => rfl
  | cons hx _ ih => rw [map_cons, h _ _ hx, ih]

/-- Lists whose entries are read alike are read alike. -/
theorem mapM_congr {f : α → Option γ} {g : β → Option γ} {xs : List α} {ys : List β}
    (h : Forall₂ (fun x y => f x = g y) xs ys) : xs.mapM f = ys.mapM g := by
  induction h with
  | nil => rfl
  | cons hxy _ ih => rw [mapM_cons, mapM_cons, hxy, ih]

/-- Of lists that are read to the same, the entries are. -/
theorem forall₂_of_mapM {f : α → Option γ} {g : β → Option γ} {r : α → β → Prop}
    (h : ∀ x y z, f x = some z → g y = some z → r x y) {xs : List α} {ys : List β} {zs : List γ}
    (hxs : xs.mapM f = some zs) (hys : ys.mapM g = some zs) : Forall₂ r xs ys := by
  rw [mapM_eq_some] at hxs hys
  induction hxs generalizing ys with
  | nil =>
      cases hys
      exact .nil
  | cons hx _ ih =>
      cases hys with
      | cons hy hys => exact .cons (h _ _ _ hx hy) (ih hys)

/-- In particular their entries are read alike. -/
theorem forall₂_eq_of_mapM {f : α → Option γ} {g : β → Option γ} {xs : List α} {ys : List β}
    {zs : List γ} (hxs : xs.mapM f = some zs) (hys : ys.mapM g = some zs) :
    Forall₂ (fun x y => f x = g y) xs ys :=
  forall₂_of_mapM (fun _ _ _ hx hy => hx.trans hy.symm) hxs hys

/-- What is read by a function is read by any that continues it. -/
theorem mapM_mono {f g : α → Option β} (h : ∀ x y, f x = some y → g x = some y) {xs : List α}
    {ys : List β} (hxs : xs.mapM f = some ys) : xs.mapM g = some ys := by
  rw [mapM_eq_some] at hxs ⊢
  exact hxs.imp h

end TermGraph
