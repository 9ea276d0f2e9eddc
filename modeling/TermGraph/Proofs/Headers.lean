import Mathlib.Data.List.Induction
import TermGraph.Proofs.Lists
import TermGraph.Proofs.Runs

/-!
# Pending headers

A place holds at most one template header, and what it holds is told by the
requests that were made about the place and by nothing else: requests to the
context and requests about other places make no difference
(`Workspace.run_pending`).

Seen from the place a run is a list of requests.  The header pending after them
is that of the last one that began a header, unless it was wrapped around a
declaration or given up since then, with the last constraint since then
(`HeaderRequest.Recorded`).  The induction is on the list from its end, so
that every step looks at one request more and the header pending before it.

From this comes the rule for headers: one is pending exactly when one was begun
since the last was used, and whatever is wrapped around a declaration was begun
after everything that was wrapped before.
-/

namespace TermGraph

/-! ## Requests about one place -/

/-- The request about the header in a place that a command makes. -/
def Command.header? (place : Nat) : Command → Option HeaderRequest
  | .header p request => if p = place then some request else none
  | .ask _ => none

/-- The requests about one place, in order. -/
def headerRequests (place : Nat) (commands : List Command) : List HeaderRequest :=
  commands.filterMap (Command.header? place)

namespace HeaderRequest

/-- The request begins a header. -/
def begins : HeaderRequest → Bool
  | .start _ => true
  | _ => false

/-- After the request no header is pending: the header was used or given up. -/
def clears : HeaderRequest → Bool
  | .templatize _ | .reset => true
  | _ => false

/-- The constraint that the request is about. -/
def constraint? : HeaderRequest → Option ExprId
  | .constrain expr => some expr
  | _ => none

/-- The header pending after the request. -/
def next (pending : Option TemplateHeader) (request : HeaderRequest) : Option TemplateHeader :=
  (request.perform pending).2

/-- The header was begun by one of the requests; since then no other was begun,
none was used or given up, and its constraint is the last one given since. -/
def Recorded (requests : List HeaderRequest) (header : TemplateHeader) : Prop :=
  ∃ before after, requests = before ++ .start header.parms :: after ∧
    (∀ r ∈ after, r.begins = false ∧ r.clears = false) ∧
    header.constraint = (after.filterMap constraint?).getLast?

/-- A header was begun since the last one was used or given up. -/
def Begun (requests : List HeaderRequest) : Prop :=
  ∃ before parms after, requests = before ++ .start parms :: after ∧ ∀ r ∈ after, r.clears = false

/-! ## One request more -/

section

variable {requests : List HeaderRequest} {r : HeaderRequest} {header : TemplateHeader}

/-- A header begun last has no constraint yet. -/
theorem recorded_snoc_of_begins {parms : List DeclId} :
    Recorded (requests ++ [.start parms]) header ↔ header = ⟨parms, none⟩ := by
  constructor
  · rintro ⟨before, after, hsplit, hafter, hconstraint⟩
    rcases append_singleton_eq_split.mp hsplit with ⟨rfl, _, hstart⟩ | ⟨rest, rfl, _⟩
    · obtain ⟨parms', constraint⟩ := header
      cases hstart
      simpa using hconstraint
    · have hlast := (hafter (.start parms) (by simp)).1
      cases hlast
  · rintro rfl
    exact ⟨requests, [], rfl, nofun, rfl⟩

/-- Nothing is recorded right after a header was used or given up. -/
theorem not_recorded_snoc_of_clears (hr : r.clears = true) : ¬ Recorded (requests ++ [r]) header := by
  rintro ⟨before, after, hsplit, hafter, _⟩
  rcases append_singleton_eq_split.mp hsplit with ⟨_, _, rfl⟩ | ⟨rest, rfl, _⟩
  · cases hr
  · have hlast := (hafter r (by simp)).2
    rw [hr] at hlast
    cases hlast

/-- Any other request leaves the header there and may give it another
constraint. -/
theorem recorded_snoc (hbegins : r.begins = false) (hclears : r.clears = false) :
    Recorded (requests ++ [r]) header ↔ ∃ held, Recorded requests held ∧
      header = { held with constraint := r.constraint?.or held.constraint } := by
  have hlast (rest : List HeaderRequest) : ((rest ++ [r]).filterMap constraint?).getLast?
      = r.constraint?.or (rest.filterMap constraint?).getLast? := by
    cases h : r.constraint? <;> simp [h]
  constructor
  · rintro ⟨before, after, hsplit, hafter, hconstraint⟩
    rcases append_singleton_eq_split.mp hsplit with ⟨_, _, rfl⟩ | ⟨rest, rfl, hrest⟩
    · cases hbegins
    · have hkept : ∀ q ∈ rest, q.begins = false ∧ q.clears = false :=
        (List.forall_mem_append.mp hafter).1
      refine ⟨⟨header.parms, (rest.filterMap constraint?).getLast?⟩,
        ⟨before, rest, hrest, hkept, rfl⟩, ?_⟩
      obtain ⟨parms, constraint⟩ := header
      exact congrArg _ (hconstraint.trans (hlast rest))
  · rintro ⟨held, ⟨before, rest, rfl, hrest, hconstraint⟩, rfl⟩
    refine ⟨before, rest ++ [r], by simp, ?_, ?_⟩
    · exact List.forall_mem_append.mpr ⟨hrest, List.forall_mem_singleton.mpr ⟨hbegins, hclears⟩⟩
    · exact (congrArg _ hconstraint).trans (hlast rest).symm

/-- A header was begun if the last request does so, or if one was before and the
last request does not end that. -/
theorem begun_snoc : Begun (requests ++ [r]) ↔ r.begins = true ∨ Begun requests ∧ r.clears = false := by
  constructor
  · rintro ⟨before, parms, after, hsplit, hafter⟩
    rcases append_singleton_eq_split.mp hsplit with ⟨_, _, rfl⟩ | ⟨rest, rfl, hrest⟩
    · exact .inl rfl
    · obtain ⟨hkept, hlast⟩ := List.forall_mem_append.mp hafter
      exact .inr ⟨⟨before, parms, rest, hrest, hkept⟩, hlast r List.mem_cons_self⟩
  · rintro (hbegins | ⟨⟨before, parms, rest, rfl, hrest⟩, hclears⟩)
    · cases r with
      | start parms => exact ⟨requests, parms, [], rfl, nofun⟩
      | _ => cases hbegins
    · refine ⟨before, parms, rest ++ [r], by simp, fun q hq => ?_⟩
      rcases List.mem_append.mp hq with hq | hq
      · exact hrest q hq
      · obtain rfl := List.mem_singleton.mp hq
        exact hclears

end

/-! ## The header pending after requests -/

/-- A request that begins or clears does not look at what was pending. -/
theorem next_eq_of_forgets {r : HeaderRequest} (h : r.begins = true ∨ r.clears = true)
    (p q : Option TemplateHeader) : r.next p = r.next q := by
  cases r with
  | start | reset => rfl
  | templatize d => cases p <;> cases q <;> rfl
  | constrain | isPending => rcases h with h | h <;> cases h

/-- Any other request leaves what is pending, up to the constraint. -/
theorem next_eq_map {r : HeaderRequest} (hbegins : r.begins = false) (hclears : r.clears = false)
    (p : Option TemplateHeader) :
    r.next p = p.map fun held => { held with constraint := r.constraint?.or held.constraint } := by
  cases r with
  | start => cases hbegins
  | reset | templatize => cases hclears
  | constrain | isPending => cases p <;> rfl

/-- **What is pending.**  Where nothing was pending at first, the header that is
pending after requests is the one that they recorded. -/
theorem foldl_next_eq_some (requests : List HeaderRequest) (header : TemplateHeader) :
    requests.foldl next none = some header ↔ Recorded requests header := by
  induction requests using List.reverseRecOn generalizing header with
  | nil =>
    constructor
    · nofun
    · rintro ⟨before, after, hsplit, _⟩
      simp at hsplit
  | append_singleton requests r ih =>
    rw [List.foldl_append, List.foldl_cons, List.foldl_nil]
    by_cases hbegins : r.begins = true
    · cases r with
      | start parms =>
        rw [recorded_snoc_of_begins]
        exact ⟨fun h => (Option.some.inj h).symm, fun h => congrArg some h.symm⟩
      | _ => cases hbegins
    · by_cases hclears : r.clears = true
      · have hnone : r.next (requests.foldl next none) = none := by
          rw [next_eq_of_forgets (.inr hclears) _ none]
          cases r <;> first | rfl | cases hclears
        rw [hnone]
        exact ⟨nofun, fun h => (not_recorded_snoc_of_clears hclears h).elim⟩
      · rw [Bool.not_eq_true] at hbegins hclears
        rw [next_eq_map hbegins hclears, recorded_snoc hbegins hclears, Option.map_eq_some_iff]
        constructor
        · rintro ⟨held, hheld, rfl⟩
          exact ⟨held, (ih held).mp hheld, rfl⟩
        · rintro ⟨held, hheld, rfl⟩
          exact ⟨held, (ih held).mpr hheld, rfl⟩

/-- Some header is pending exactly when one was begun since the last was used or
given up. -/
theorem isSome_foldl_next (requests : List HeaderRequest) :
    (requests.foldl next none).isSome = true ↔ Begun requests := by
  induction requests using List.reverseRecOn with
  | nil =>
    constructor
    · nofun
    · rintro ⟨before, parms, after, hsplit, _⟩
      simp at hsplit
  | append_singleton requests r ih =>
    rw [List.foldl_append, List.foldl_cons, List.foldl_nil, begun_snoc, ← ih]
    cases r with
    | templatize d => cases requests.foldl next none <;> simp [next, perform, begins, clears]
    | constrain expr => cases requests.foldl next none <;> simp [next, perform, begins, clears]
    | _ => simp [next, perform, begins, clears]

end HeaderRequest

/-! ## The place in a run -/

namespace Workspace

open HeaderRequest

/-- What is pending in a place after a command: only a request about the place
makes a difference. -/
theorem step_pending (w : Workspace) (command : Command) (place : Nat) :
    (w.step command).2.pending place = (command.header? place).toList.foldl next (w.pending place) := by
  cases command with
  | ask request => rfl
  | header p request =>
    show (if place = p then request.next (w.pending p) else w.pending place) = _
    by_cases hp : p = place
    · subst hp
      simp [Command.header?]
    · simp [Command.header?, hp, Ne.symm hp]

/-- **What is pending after a run** is told by the requests about the place. -/
theorem run_pending (w : Workspace) (commands : List Command) (place : Nat) :
    (w.run commands).2.pending place = (headerRequests place commands).foldl next (w.pending place) := by
  induction commands generalizing w with
  | nil => rfl
  | cons command rest ih =>
    have hstep := w.step_pending command place
    have hrest := ih (w.step command).2
    calc (w.run (command :: rest)).2.pending place
        = (headerRequests place rest).foldl next ((w.step command).2.pending place) := hrest
      _ = (headerRequests place (command :: rest)).foldl next (w.pending place) := by
          rw [hstep, headerRequests, headerRequests, List.filterMap_cons]
          cases command.header? place <;> rfl

/-- From the start nothing is pending, so the requests about a place tell all
there is to it. -/
theorem reached_pending (config : Config) (digest : List Nat → UInt64) (commands : List Command)
    (place : Nat) : (reached config digest commands).pending place
      = (headerRequests place commands).foldl next none :=
  run_pending _ commands place

/-- The workspace after the header in a place was wrapped around a declaration:
one declaration more, and nothing pending in the place. -/
def wrapped (w : Workspace) (place : Nat) (d : DeclId) (header : TemplateHeader) : Workspace where
  context :=
    { w.context with
      arena :=
        { w.context.arena with
          decls := w.context.arena.decls.push (.template header.parms d header.constraint) } }
  pending p := if p = place then none else w.pending p

/-- What the header in a place does, told by the requests made about the place
so far. -/
structure Holds (w : Workspace) (place : Nat) (requests : List HeaderRequest) : Prop where
  /-- What is pending is the header that was recorded. -/
  pending : ∀ header, w.pending place = some header ↔ Recorded requests header
  /-- Something is pending exactly when a header was begun since the last was
  used or given up. -/
  begun : (∃ header, w.pending place = some header) ↔ Begun requests
  isPending : ∃ b, w.step (.header place .isPending) = (.ok (.verdict b), w) ∧
    (b = true ↔ Begun requests)
  /-- A header that was begun can be constrained. -/
  constrains : ∀ expr, Begun requests →
    (w.step (.header place (.constrain expr))).1 = .ok (.verdict true) ∧
      (w.step (.header place (.constrain expr))).2.context = w.context
  /-- Without a header a constraint breaks the rules, and there is none
  afterwards. -/
  headless : ∀ expr, ¬ Begun requests → w.pending place = none ∧
    w.step (.header place (.constrain expr))
      = (.error (.broken (.violated .headlessConstraint)), w)
  /-- The recorded header is wrapped around a declaration by one template. -/
  wraps : ∀ d header, Recorded requests header →
    w.step (.header place (.templatize d))
      = (.ok (.node .decl ⟨w.context.arena.decls.size⟩), w.wrapped place d header)
  /-- Without a header a declaration is handed back as it is. -/
  returns : ∀ d, ¬ Begun requests →
    w.step (.header place (.templatize d)) = (.ok (.node .decl d), w)

/-- Putting back into a place what it held changes nothing. -/
theorem pending_put (w : Workspace) (place : Nat) :
    (⟨w.context, fun p => if p = place then w.pending place else w.pending p⟩ : Workspace) = w := by
  obtain ⟨context, pending⟩ := w
  congr
  funext p
  by_cases hp : p = place
  · simp [hp]
  · simp [hp]

/-- A place holds what was recorded if what is pending there is what the
requests leave. -/
theorem holds_of_pending {w : Workspace} {place : Nat} {requests : List HeaderRequest}
    (h : w.pending place = requests.foldl next none) : w.Holds place requests := by
  have hpending : ∀ header, w.pending place = some header ↔ Recorded requests header := by
    intro header
    rw [h]
    exact foldl_next_eq_some requests header
  have hbegun : (w.pending place).isSome = true ↔ Begun requests := by
    rw [h]
    exact isSome_foldl_next requests
  have hnone : ¬ Begun requests → w.pending place = none := by
    intro hno
    rw [← hbegun] at hno
    simpa using hno
  refine ⟨hpending, ?_, ⟨(w.pending place).isSome, ?_, hbegun⟩, ?_, ?_, ?_, ?_⟩
  · rw [← hbegun, Option.isSome_iff_exists]
  · exact congrArg (Prod.mk _) (w.pending_put place)
  · intro expr hyes
    obtain ⟨header, hheader⟩ := Option.isSome_iff_exists.mp (hbegun.mpr hyes)
    simp only [step, perform, hheader]
    exact ⟨rfl, rfl⟩
  · intro expr hno
    have hput := w.pending_put place
    rw [hnone hno] at hput
    refine ⟨hnone hno, ?_⟩
    simp only [step, perform, hnone hno]
    exact congrArg (Prod.mk _) hput
  · intro d header hrecorded
    simp only [step, perform, (hpending header).mpr hrecorded]
    rfl
  · intro d hno
    have hput := w.pending_put place
    rw [hnone hno] at hput
    simp only [step, perform, hnone hno]
    exact congrArg (Prod.mk _) hput

/-- **Headers are used once.**  After any run each place holds what was recorded
there, no more.  What is pending after a header was used or given up was begun
afterwards, parameters and constraint; and what is pending after a header was
begun owes nothing to any header before it. -/
theorem headers_once (config : Config) (digest : List Nat → UInt64) (commands : List Command)
    (place : Nat) :
    (reached config digest commands).Holds place (headerRequests place commands) ∧
    (∀ before request after header, commands = before ++ .header place request :: after →
      request.clears = true → (reached config digest commands).pending place = some header →
        Recorded (headerRequests place after) header) ∧
    (∀ before parms after header, commands = before ++ .header place (.start parms) :: after →
      (reached config digest commands).pending place = some header →
        Recorded (.start parms :: headerRequests place after) header) := by
  have hsplit : ∀ before request after, commands = before ++ .header place request :: after →
      request.begins = true ∨ request.clears = true →
        (reached config digest commands).pending place
          = (request :: headerRequests place after).foldl next none := by
    intro before request after hcommands hforgets
    have hlist : headerRequests place commands
        = headerRequests place before ++ request :: headerRequests place after := by
      simp [hcommands, headerRequests, Command.header?]
    rw [reached_pending, hlist, List.foldl_append, List.foldl_cons, List.foldl_cons,
      next_eq_of_forgets hforgets _ none]
  refine ⟨holds_of_pending (reached_pending config digest commands place), ?_, ?_⟩
  · intro before request after header hcommands hclears hheader
    rw [hsplit before request after hcommands (.inr hclears), List.foldl_cons] at hheader
    have hnone : request.next none = none := by
      cases request <;> first | rfl | cases hclears
    rw [hnone] at hheader
    exact (foldl_next_eq_some _ header).mp hheader
  · intro before parms after header hcommands hheader
    rw [hsplit before (.start parms) after hcommands (.inl rfl)] at hheader
    exact (foldl_next_eq_some _ header).mp hheader

end Workspace

end TermGraph
