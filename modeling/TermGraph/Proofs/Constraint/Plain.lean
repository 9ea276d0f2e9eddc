import TermGraph.Proofs.Neutral
import TermGraph.Proofs.Constraint.Filed

/-!
# Buckets are an optimization

The plain way to intern a constraint has no buckets and no digest: compare the
constraint with every stored one, oldest first, and append it when none is
alike (`ConstraintTable.internPlain`).  A workspace that interns its
constraints like that and does everything else as before is the reference
(`Workspace.stepPlain`); it keeps nothing of its constraints but their list.

**Nothing tells the two apart.**  Over any proper run, whatever the digest,
both give the same answer to every command and have stored the same
constraints in the same order after it (`Workspace.observe_plain`).  The
reason is that the table is filed: an alike constraint has the same words, so
it can only be in the bucket that is searched, and there is at most one.
-/

namespace TermGraph

open List

namespace ConstraintTable

/-- The first of the listed constraints that is alike the given one; the list
begins at the given position. -/
def searchPlain (a : Arena) (kind : ConstraintKind) :
    Nat → List ConstraintKind → Except Fault (Option ConsId)
  | _, [] => return none
  | i, stored :: rest => do
    if ← a.constraintsAlike stored kind then return some ⟨i⟩ else searchPlain a kind (i + 1) rest

/-- The handle of the first stored constraint alike the given one, which is
appended now if there is none. -/
def internPlain (t : ConstraintTable) (a : Arena) (kind : ConstraintKind) :
    Except Fault (ConsId × ConstraintTable) := do
  match ← searchPlain a kind 0 t.kinds.toList with
  | some c => return (c, t)
  | none => return (⟨t.size⟩, { t with kinds := t.kinds.push kind })

end ConstraintTable

namespace Workspace

/-- Carry out a command, interning constraints the plain way. -/
def stepPlain (w : Workspace) : Command → Except Failure Answer × Workspace
  | .ask (.constraint kind) =>
    match w.context.constraints.internPlain w.context.arena kind with
    | .ok (c, constraints) => (.ok (.node .constraint c), w.withTable constraints)
    | .error fault => (.error (.broken fault), w)
  | command => w.step command

/-- What is seen of one step: the answer, how many constraints there are then,
and which. -/
structure Observation where
  answer : Except Failure Answer
  count : Nat
  stored : List ConstraintKind

/-- What is seen of a run, step by step, when commands are carried out by
`step`. -/
def observe (step : Workspace → Command → Except Failure Answer × Workspace) (w : Workspace) :
    List Command → List Observation
  | [] => []
  | command :: rest =>
    let (answer, w') := step w command
    ⟨answer, w'.context.constraints.size, w'.context.constraints.kinds.toList⟩ ::
      observe step w' rest

end Workspace

/-! ## The search -/

namespace ConstraintTable

variable {t : ConstraintTable} {a : Arena} {k : ConstraintKind} {u : List Nat}

/-- Searching plainly among constraints that have words finds the first with
the words of the constraint asked for, or there is none. -/
theorem searchPlain_eq_ok {listed : List ConstraintKind}
    (hlisted : ∀ j ∈ listed, ∃ v, a.constraintWords j = .ok v) (hu : a.constraintWords k = .ok u)
    (i : Nat) :
    (∃ n j, listed[n]? = some j ∧ a.constraintWords j = .ok u ∧
      searchPlain a k i listed = .ok (some ⟨i + n⟩)) ∨
    (∀ j ∈ listed, a.constraintWords j ≠ .ok u) ∧ searchPlain a k i listed = .ok none := by
  induction listed generalizing i with
  | nil => exact .inr ⟨by simp, rfl⟩
  | cons j rest ih =>
      obtain ⟨v, hv⟩ := hlisted j mem_cons_self
      obtain ⟨alike, halike, hiff⟩ := Arena.constraintsAlike_eq_ok hv hu
      cases alike with
      | true =>
        obtain rfl := hiff.mp rfl
        exact .inl ⟨0, j, rfl, hv, bind_eq_ok.mpr ⟨true, halike, rfl⟩⟩
      | false =>
        have hskip : searchPlain a k i (j :: rest) = searchPlain a k (i + 1) rest := by
          simp [searchPlain, halike, bind, Except.bind]
        have hother : a.constraintWords j ≠ .ok u := fun hj =>
          Bool.noConfusion (hiff.mpr (Except.ok.inj (hv.symm.trans hj)))
        rw [hskip]
        rcases ih (fun l hl => hlisted l (mem_cons_of_mem _ hl)) (i + 1) with
          ⟨n, l, hl, hwords, hfound⟩ | ⟨hnone, hfound⟩
        · refine .inl ⟨n + 1, l, hl, hwords, ?_⟩
          rw [hfound, Nat.add_assoc, Nat.add_comm 1 n]
        · exact .inr ⟨forall_mem_cons.mpr ⟨hother, hnone⟩, hfound⟩

/-- **Interning plainly.**  On the constraints of a filed table it answers the
handle that the buckets lead to, or appends as they do. -/
theorem Filed.internPlain (h : t.Filed a) {p : ConstraintTable} (hp : p.kinds = t.kinds)
    (hu : a.constraintWords k = .ok u) :
    (∀ c, t.HasWords a c u → p.internPlain a k = .ok (c, p)) ∧
      ((∀ c, ¬ t.HasWords a c u) →
        p.internPlain a k = .ok (⟨t.size⟩, { p with kinds := t.kinds.push k })) := by
  have hlisted (j : ConstraintKind) (hj : j ∈ p.kinds.toList) :
      ∃ v, a.constraintWords j = .ok v := by
    obtain ⟨i, hi⟩ := mem_iff_getElem?.mp hj
    exact h.hasWords ⟨i⟩ j (fetch_eq_ok.mpr (by simpa [hp] using hi))
  rcases searchPlain_eq_ok hlisted hu 0 with ⟨n, j, hj, hwords, hfound⟩ | ⟨hnone, hfound⟩
  · have hstored : t.HasWords a ⟨n⟩ u := ⟨j, fetch_eq_ok.mpr (by simpa [hp] using hj), hwords⟩
    rw [Nat.zero_add] at hfound
    refine ⟨fun c hc => ?_, fun hnew => (hnew _ hstored).elim⟩
    obtain rfl := h.distinct c ⟨n⟩ u hc hstored
    exact bind_eq_ok.mpr ⟨_, hfound, rfl⟩
  · refine ⟨fun c hc => ?_, fun _ => ?_⟩
    · obtain ⟨j, hj, hwords⟩ := hc
      have hmem : j ∈ p.kinds.toList :=
        mem_iff_getElem?.mpr ⟨c.index, by simpa [hp] using fetch_eq_ok.mp hj⟩
      exact (hnone j hmem hwords).elim
    · refine bind_eq_ok.mpr ⟨_, hfound, ?_⟩
      simp only [size, hp]
      rfl

end ConstraintTable

/-! ## In step -/

namespace Workspace

variable {w : Workspace} {command : Command} {p : ConstraintTable}

/-- The plain machine differs in nothing but constraints. -/
theorem stepPlain_eq_step (h : ∀ kind, command ≠ .ask (.constraint kind)) :
    w.stepPlain command = w.step command := by
  cases command with
  | header place request => rfl
  | ask request =>
    cases request with
    | constraint kind => exact (h kind rfl).elim
    | _ => rfl

/-- **One command.**  From states that differ in how constraints are found,
both ways of carrying it out answer the same and lead to such states again. -/
theorem stepPlain_withTable (hw : w.context.Orderly)
    (hissued : w.context.AllIssued command.handles)
    (hp : p.kinds = w.context.constraints.kinds) :
    ∃ p', p'.kinds = (w.step command).2.context.constraints.kinds ∧
      (w.withTable p).stepPlain command =
        ((w.step command).1, (w.step command).2.withTable p') := by
  by_cases hconstraint : ∃ kind, command = .ask (.constraint kind)
  · obtain ⟨kind, rfl⟩ := hconstraint
    obtain ⟨u, hu⟩ := hw.readable.constraintWords hissued
    obtain ⟨hfound, hfiled⟩ := hw.filed.internPlain hp hu
    rcases step_constraint hw.filed hu with ⟨c, hc, hstep⟩ | ⟨hnew, hstep⟩
    · refine ⟨p, by rw [hstep, hp], ?_⟩
      have hplain : (w.withTable p).context.constraints.internPlain
          (w.withTable p).context.arena kind = .ok (c, p) := hfound c hc
      rw [stepPlain, hplain, hstep]
      rfl
    · refine ⟨{ p with kinds := w.context.constraints.kinds.push kind }, by rw [hstep]; rfl, ?_⟩
      have hplain : (w.withTable p).context.constraints.internPlain
          (w.withTable p).context.arena kind
            = .ok (⟨w.context.constraints.size⟩,
                { p with kinds := w.context.constraints.kinds.push kind }) := hfiled hnew
      rw [stepPlain, hplain, hstep]
      rfl
  · have hother (kind : ConstraintKind) : command ≠ .ask (.constraint kind) :=
      fun h => hconstraint ⟨kind, h⟩
    refine ⟨p, by rw [step_constraints hother, hp], ?_⟩
    rw [stepPlain_eq_step hother, step_blind hother hp]

/-- **Any number of commands.** -/
theorem observe_withTable (hsound : w.Sound) (hw : w.context.Orderly) {commands : List Command}
    (h : w.Proper commands) (hp : p.kinds = w.context.constraints.kinds) :
    observe step w commands = observe stepPlain (w.withTable p) commands := by
  induction commands generalizing w p with
  | nil => rfl
  | cons command rest ih =>
      obtain ⟨hissued, hrest⟩ := h
      obtain ⟨hsound', hgrows, _⟩ := step_sound hsound _ hissued
      obtain ⟨p', hp', hplain⟩ := stepPlain_withTable hw hissued hp
      have hkinds : ((w.step command).2.withTable p').context.constraints.kinds
          = (w.step command).2.context.constraints.kinds := hp'
      simp only [observe, hplain, ConstraintTable.size, hkinds,
        ih hsound' (hgrows.orderly hw) hrest hp']

/-- **Buckets are an optimization.**  Over every proper run, whatever the
digest, interning through buckets and searching the plain list give the same
answers, and after every step as many constraints and the same ones.  The
reference has no use for its digest, so it may be any. -/
theorem observe_plain (config : Config) (digest unused : List Nat → UInt64)
    (commands : List Command) (h : (start config digest).Proper commands) :
    observe step (start config digest) commands =
      observe stepPlain (start config unused) commands :=
  observe_withTable (p := .fresh unused) (sound_start config digest)
    (Context.orderly_create config digest) h rfl

/-- A run that asks for one constraint over two writings of its expression,
for another one, and for the first again. -/
def collidingRun : List Command :=
  [.ask (.expr (.boolean true)), .ask (.expr (.boolean true)), .ask (.constraint (.predicate ⟨0⟩)),
    .ask (.constraint (.predicate ⟨1⟩)), .ask (.constraint (.conjunction ⟨0⟩ ⟨0⟩)),
    .ask (.constraint (.predicate ⟨1⟩))]

/-- With a digest that makes everything collide, two constraints are stored as
in the plain list. -/
theorem observe_plain_collidingRun :
    (start .standard fun _ => 0).Proper collidingRun ∧
      observe step (start .standard fun _ => 0) collidingRun =
        observe stepPlain (start .standard ConstraintTable.polynomialDigest) collidingRun ∧
      (observe step (start .standard fun _ => 0) collidingRun).map Observation.count =
        [0, 0, 1, 1, 2, 2] := by
  have hproper : (start .standard fun _ => 0).Proper collidingRun := by decide +kernel
  exact ⟨hproper, observe_plain .standard _ _ _ hproper, by decide +kernel⟩

end Workspace

end TermGraph
