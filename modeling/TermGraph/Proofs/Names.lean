import TermGraph.Proofs.Bounds.Runs
import TermGraph.Proofs.Constraint.Canonical
import TermGraph.Proofs.Expr.Concurrence

/-!
# Names that are identified

Interning compares names by their structure, and nothing spells a name for it.
Spelling a name in turn looks at less of it, at the number of arguments but not
at the arguments, and leaves the structure of names for that of declarations to
find what is applied and what a scope is called.  So the two go down different
ways from a name.

They agree where the comparison says yes.  It does so only if the names are of
one sort and name one declaration with as many arguments, or hold parts that are
identified themselves (`Arena.match_of_alikeWithin`).  One level of spelling needs
no more than that (`Context.spellWithin_eq_of_match`), so identified names are
spelled alike, level by level (`Context.spell_eq_of_alike`).

The converse fails: an identifier may be spelled as a name that was made up.
But names of different sorts are never identified (`Arena.Alike.sort_eq`).
-/

namespace TermGraph

open List

/-- The sorts of names. -/
inductive NameSort where
  | identifier
  | placeholder
  | operator
  | destructor
  | templateId
  | conceptId
  | qualified
  | global
  deriving DecidableEq

def NameKind.sort : NameKind → NameSort
  | .simple _ => .identifier
  | .placeholder _ => .placeholder
  | .operator _ => .operator
  | .destructor _ => .destructor
  | .template _ _ => .templateId
  | .concept _ _ => .conceptId
  | .qualified _ _ => .qualified
  | .global => .global

/-! ## What is compared -/

/-- Demands are settled with yes exactly if all of them hold. -/
theorem Demand.settle_eq_true {alike? : Part → Part → Except Fault Bool} {ds : List Demand} :
    Demand.settle alike? ds = .ok true ↔ ∀ d ∈ ds, d.Holds fun p q => alike? p q = .ok true := by
  induction ds with
  | nil => exact ⟨fun _ => forall_mem_nil _, fun _ => rfl⟩
  | cons d ds ih =>
    rw [forall_mem_cons, ← ih]
    cases d with
    | holds b => cases b <;> simp [settle, pure, Except.pure]
    | alike p q =>
      rw [settle, bind_eq_ok, Demand.alike_iff]
      constructor
      · rintro ⟨first, hfirst, hrest⟩
        cases first with
        | true => exact ⟨hfirst, hrest⟩
        | false => cases hrest
      · rintro ⟨hfirst, hrest⟩
        exact ⟨true, hfirst, hrest⟩

/-- Layouts match only if the names are of one sort. -/
theorem NameKind.sort_eq_of_match {alike : Part → Part → Prop} {j k : NameKind}
    (h : Forall₂ (Piece.Match alike) j.pieces k.pieces) : j.sort = k.sort := by
  cases j <;> cases k <;> simp [pieces, sort] at h ⊢

namespace Arena

variable {a : Arena} {m n : NameId} {j k : NameKind}

/-- Two names that are said to be alike are one, or their layouts match by the
parts that are said to be alike. -/
theorem match_of_alikeWithin {depth : Nat}
    (h : a.alikeWithin (depth + 1) (.name m) (.name n) = .ok true) :
    m = n ∨ ∃ j k, a.name m = .ok j ∧ a.name n = .ok k ∧
      Forall₂ (Piece.Match fun p q => a.alikeWithin depth p q = .ok true) j.pieces k.pieces := by
  by_cases hmn : m = n
  · exact .inl hmn
  · rw [alikeWithin, if_neg hmn] at h
    obtain ⟨j, hj, h⟩ := bind_eq_ok.mp h
    obtain ⟨k, hk, h⟩ := bind_eq_ok.mp h
    exact .inr ⟨j, k, hj, hk, (j.demands_iff k).mp (Demand.settle_eq_true.mp h)⟩

/-- **Names that are alike are of one sort.** -/
theorem Alike.sort_eq (h : a.Alike (.name m) (.name n)) (hm : a.name m = .ok j)
    (hn : a.name n = .ok k) : j.sort = k.sort := by
  rcases match_of_alikeWithin h with rfl | ⟨j', k', hm', hn', hmatch⟩
  · rw [Except.ok.inj (hm.symm.trans hn)]
  · obtain rfl := Except.ok.inj (hm.symm.trans hm')
    obtain rfl := Except.ok.inj (hn.symm.trans hn')
    exact NameKind.sort_eq_of_match hmatch

end Arena

/-! ## What is spelled -/

namespace Context

variable {cx : Context} {m n : NameId}

/-- **One level of spelling.**  Names whose layouts match are spelled alike if the
names in them are that match. -/
theorem spellWithin_eq_of_match {alike : Part → Part → Prop} {steps : Nat} {j k : NameKind}
    (hparts : ∀ x y, alike (.name x) (.name y) → cx.spellWithin steps x = cx.spellWithin steps y)
    (hm : cx.arena.name m = .ok j) (hn : cx.arena.name n = .ok k)
    (h : Forall₂ (Piece.Match alike) j.pieces k.pieces) :
    cx.spellWithin (steps + 1) m = cx.spellWithin (steps + 1) n := by
  have hsort := NameKind.sort_eq_of_match h
  rw [spellWithin, spellWithin, hm, hn]
  cases j <;> cases k <;> cases hsort
  case simple.simple x y =>
    obtain rfl : x = y := by simpa [NameKind.pieces, Symbol.index_inj] using h
    rfl
  case placeholder.placeholder x y =>
    obtain rfl : x = y := by simpa [NameKind.pieces] using h
    rfl
  case operator.operator x y =>
    obtain rfl : x = y := by simpa [NameKind.pieces, Operator.toNat_inj] using h
    rfl
  case destructor.destructor => rfl
  case template.template d xs e ys | concept.concept d xs e ys =>
    obtain ⟨rfl, hargs⟩ : d = e ∧ Forall₂ _ xs ys := by
      simpa [NameKind.pieces, Handle.index_inj] using h
    -- the arguments are counted and not spelled
    show (cx.arena.declName d >>= fun name => _) = (cx.arena.declName d >>= fun name => _)
    rw [hargs.length_eq]
  case qualified.qualified s x t y =>
    obtain ⟨rfl, hxy⟩ : s = t ∧ alike (.name x) (.name y) := by
      simpa [NameKind.pieces, Handle.index_inj] using h
    show (cx.spellWithin steps x >>= fun inner => _) = (cx.spellWithin steps y >>= fun inner => _)
    rw [hparts x y hxy]
  case global.global => rfl

/-- Names that are said to be alike are spelled alike, however deep either walk
may go. -/
theorem spellWithin_eq_of_alikeWithin {depth : Nat}
    (h : cx.arena.alikeWithin depth (.name m) (.name n) = .ok true) (steps : Nat) :
    cx.spellWithin steps m = cx.spellWithin steps n := by
  induction depth generalizing m n steps with
  | zero => cases h
  | succ depth ih =>
    rcases Arena.match_of_alikeWithin h with rfl | ⟨j, k, hm, hn, hmatch⟩
    · rfl
    · cases steps with
      | zero => rfl
      | succ steps => exact spellWithin_eq_of_match (fun x y hxy => ih hxy steps) hm hn hmatch

/-- **Names that are alike are spelled alike.** -/
theorem spell_eq_of_alike (h : cx.arena.Alike (.name m) (.name n)) : cx.spell m = cx.spell n :=
  spellWithin_eq_of_alikeWithin h _

/-- As the argument of a concept, names make constraints of equal words exactly if
they are alike. -/
theorem Readable.words_concept_iff (hcx : cx.Readable) (hm : cx.Issued m) (hn : cx.Issued n)
    {c : DeclId} {u v : List Nat}
    (hu : cx.arena.constraintWords (.concept c [.name m]) = .ok u)
    (hv : cx.arena.constraintWords (.concept c [.name n]) = .ok v) :
    u = v ↔ cx.arena.Alike (.name m) (.name n) := by
  rw [hcx.alike_iff (p := .name m) (q := .name n) hm hn,
    ← Piece.match_iff_words cx.arena.prefixFree_partWords (ConstraintKind.fit _ _).inStep hu hv]
  simp [ConstraintKind.pieces, Term.pieces]

end Context

namespace Workspace

variable {config : Config} {digest : List Nat → UInt64} {commands : List Command} {m n : NameId}

/-- A request for the constraint that one name makes as the argument of a
concept. -/
def askOf (c : DeclId) (n : NameId) : Command := .ask (.constraint (.concept c [.name n]))

/-- Two names make one constraint as the argument of a concept, asked for in one
proper run, exactly if they were alike before. -/
theorem interns_concept_iff (hm : (reached config digest commands).context.Issued m)
    (hn : (reached config digest commands).context.Issued n) {c : DeclId} {between : List Command}
    (h : (start config digest).Proper (commands ++ askOf c m :: between ++ [askOf c n])) :
    ∃ x y, (reached config digest commands).Interns (.concept c [.name m]) x ∧
      (reached config digest (commands ++ askOf c m :: between)).Interns (.concept c [.name n]) y ∧
      (x = y ↔ (reached config digest commands).context.arena.Alike (.name m) (.name n)) := by
  obtain ⟨hsplit, _⟩ := proper_append.mp h
  have hreadable := (orderly_reached (proper_append.mp hsplit).1).readable
  have hreadable' := (orderly_reached hsplit).readable
  have hle := reached_precedes config digest commands (askOf c m :: between)
  obtain ⟨x, y, u, v, hx, hy, hu, hv, hsame⟩ := interns_by_words h
  refine ⟨x, y, hx, hy, hsame.trans ?_⟩
  rw [hreadable'.words_concept_iff (hm.later hle) (hn.later hle) hu hv]
  exact hreadable.alike_later_iff (p := .name m) (q := .name n) hle.arena hm hn

/-- **Identified names are spelled alike.**  After a proper run any two names are
compared, once and for all.  Whether they are alike is whether they make one
constraint as the argument of a concept, whatever happens between the two
requests.  If they are, they are spelled alike then and however the run goes on,
also if declarations are defined that they are spelled through.  If they are of
different sorts they are not alike, even if they are spelled alike.

If the symbols that were passed had spellings both names are spelled, and always
as they are now. -/
theorem names_identified (h : (start config digest).Proper commands)
    (hm : (reached config digest commands).context.Issued m)
    (hn : (reached config digest commands).context.Issued n) :
    ∃ b, (∀ rest, (reached config digest (commands ++ rest)).context.arena.partsAlike
        (.name m) (.name n) = .ok b) ∧
      (∀ c between,
        (start config digest).Proper (commands ++ askOf c m :: between ++ [askOf c n]) →
        ∃ x y, (reached config digest commands).Interns (.concept c [.name m]) x ∧
          (reached config digest (commands ++ askOf c m :: between)).Interns
            (.concept c [.name n]) y ∧
          (x = y ↔ b = true)) ∧
      (b = true → ∀ rest, (reached config digest (commands ++ rest)).context.spell m
        = (reached config digest (commands ++ rest)).context.spell n) ∧
      (∀ j k, (reached config digest commands).context.arena.name m = .ok j →
        (reached config digest commands).context.arena.name n = .ok k → j.sort ≠ k.sort →
        b = false) ∧
      ((start config digest).ProperSymbols commands → ∃ s t, ∀ rest,
        (reached config digest (commands ++ rest)).context.spell m = .ok s ∧
        (reached config digest (commands ++ rest)).context.spell n = .ok t) := by
  have hreadable := (orderly_reached h).readable
  obtain ⟨b, hb, _⟩ := hreadable.partsAlike_eq_ok (p := .name m) (q := .name n) hm hn
  have hlater (rest : List Command) :
      (reached config digest (commands ++ rest)).context.arena.partsAlike (.name m) (.name n)
        = .ok b :=
    Arena.partsAlike_later (reached_precedes config digest commands rest).arena hb
  have halike : (reached config digest commands).context.arena.Alike (.name m) (.name n) ↔
      b = true := by
    rw [Arena.Alike, hb, Except.ok.injEq]
  refine ⟨b, hlater, fun c between hproper => ?_, ?_, fun j k hj hk hsort => ?_, fun hsymbols => ?_⟩
  · obtain ⟨x, y, hx, hy, hsame⟩ := interns_concept_iff hm hn hproper
    exact ⟨x, y, hx, hy, hsame.trans halike⟩
  · rintro rfl rest
    exact Context.spell_eq_of_alike (hlater rest)
  · by_contra hyes
    exact hsort ((halike.mpr (Bool.eq_true_of_not_eq_false hyes)).sort_eq hj hk)
  · have hwhole := whole_reached h hsymbols
    obtain ⟨s, hs⟩ := (hwhole.spell hm).exists_ok
    obtain ⟨t, ht⟩ := (hwhole.spell hn).exists_ok
    refine ⟨s, t, fun rest => ?_⟩
    have hle := reached_precedes config digest commands rest
    exact ⟨hle.spell hs, hle.spell ht⟩

/-- A run that makes an identifier, a placeholder that is spelled like it and the
identifier again, and puts both writings of the identifier into one scope. -/
def twinsRun : List Command :=
  [.ask (.name (.identifier "__0")), .ask (.name .placeholder), .ask (.name (.identifier "__0")),
    .ask (.decl (.undefinedConcept ⟨1⟩ [])), .ask (.name (.qualified ⟨1⟩ ⟨1⟩)),
    .ask (.name (.qualified ⟨1⟩ ⟨3⟩))]

/-- The names in the scope are alike and spelled alike for good.  The identifier
and the placeholder never are alike, and share no constraint of the concept. -/
theorem names_identified_twinsRun :
    (start .standard ConstraintTable.polynomialDigest).Proper twinsRun ∧
      (∀ n ∈ ([⟨1⟩, ⟨2⟩, ⟨4⟩, ⟨5⟩] : List NameId),
        (reached .standard ConstraintTable.polynomialDigest twinsRun).context.Issued n) ∧
      (∀ rest,
        (reached .standard ConstraintTable.polynomialDigest (twinsRun ++ rest)).context.spell ⟨4⟩ =
          (reached .standard ConstraintTable.polynomialDigest
            (twinsRun ++ rest)).context.spell ⟨5⟩) ∧
      (∀ n ∈ ([⟨1⟩, ⟨2⟩] : List NameId),
        (reached .standard ConstraintTable.polynomialDigest twinsRun).context.spell n = .ok "__0") ∧
      (∀ rest, (reached .standard ConstraintTable.polynomialDigest
        (twinsRun ++ rest)).context.arena.partsAlike (.name ⟨1⟩) (.name ⟨2⟩) = .ok false) ∧
      ∃ x y, x ≠ y ∧
        (reached .standard ConstraintTable.polynomialDigest twinsRun).Interns
          (.concept ⟨1⟩ [.name ⟨1⟩]) x ∧
        (reached .standard ConstraintTable.polynomialDigest (twinsRun ++ [askOf ⟨1⟩ ⟨1⟩])).Interns
          (.concept ⟨1⟩ [.name ⟨2⟩]) y := by
  have hproper : (start .standard ConstraintTable.polynomialDigest).Proper twinsRun := by
    decide +kernel
  have hissued : ∀ n ∈ ([⟨1⟩, ⟨2⟩, ⟨4⟩, ⟨5⟩] : List NameId),
      (reached .standard ConstraintTable.polynomialDigest twinsRun).context.Issued n := by
    decide +kernel
  refine ⟨hproper, hissued, ?_, by decide +kernel, ?_⟩
  · obtain ⟨b, hb, _, hspelled, _⟩ := names_identified hproper (hissued ⟨4⟩ (by decide))
      (hissued ⟨5⟩ (by decide))
    have halike : (reached .standard ConstraintTable.polynomialDigest
        (twinsRun ++ [])).context.arena.partsAlike (.name ⟨4⟩) (.name ⟨5⟩) = .ok true := by
      decide +kernel
    exact hspelled (Except.ok.inj ((hb []).symm.trans halike))
  · obtain ⟨b, hb, hshared, _, hsorts, _⟩ := names_identified hproper (hissued ⟨1⟩ (by decide))
      (hissued ⟨2⟩ (by decide))
    obtain rfl : b = false := hsorts _ _ rfl rfl (by decide)
    obtain ⟨x, y, hx, hy, hsame⟩ := hshared ⟨1⟩ [] (by decide +kernel)
    exact ⟨hb, x, y, by simpa using hsame, hx, hy⟩

end Workspace

end TermGraph
