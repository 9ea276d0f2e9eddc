import TermGraph.Proofs.Requests

/-!
# Proper runs

A workspace is *sound* when its context is closed and the handles in its
pending headers have been issued (`Workspace.Sound`).  Every workspace starts
sound, and a command whose handles have been issued keeps it sound, only grows
the context, and answers with issued handles (`Workspace.step_sound`).  So a
proper run does the same from any sound workspace (`Workspace.run_sound`).

This is where statements about runs become statements about growth: what
growth keeps, proper runs keep.
-/

namespace TermGraph

open Build

variable {cx : Context}

/-- A node that could be looked up has been issued. -/
theorem Context.issued_of_lookUp {c : Category} {id : Handle c} (h : cx.lookUp c id = .ok ()) :
    cx.Issued id := by
  cases c <;>
    · obtain ⟨entry, hentry, _⟩ := map_eq_ok.mp h
      exact lt_of_fetch hentry

/-- Queries answer with issued handles. -/
theorem Query.answer_issued (hcx : cx.Closed) (q : Query) (hq : cx.AllIssued q.handles)
    {answer : Answer} (h : q.answer cx = .ok answer) : cx.AllIssued answer.handles := by
  cases q with
  | symbol s =>
    cases h
    exact Context.allIssued_nil
  | spelling n | isValueType ty | alike x y =>
    obtain ⟨found, _, rfl⟩ := map_eq_ok.mp h
    exact Context.allIssued_nil
  | split ty =>
    obtain ⟨parts, hparts, rfl⟩ := map_eq_ok.mp h
    have hbase := hcx.splitQualifiers (Context.allIssued_cons.mp hq).1 hparts
    simpa [Answer.handles] using hbase
  | declName d =>
    obtain ⟨name, hname, rfl⟩ := map_eq_ok.mp h
    simpa [Answer.handles] using hcx.declName hname
  | parameterized d =>
    obtain ⟨target, htarget, rfl⟩ := map_eq_ok.mp h
    have hd := (Context.allIssued_cons.mp hq).1
    simpa [Answer.handles] using hcx.parameterized hd htarget
  | node c id =>
    obtain ⟨_, hfound, rfl⟩ := map_eq_ok.mp h
    simpa [Answer.handles] using Context.issued_of_lookUp hfound

/-- A construction of a node answers with its handle. -/
theorem Build.Safe.answer {c : Category} {b : Build (Handle c)}
    (h : Safe b cx fun id cx' => cx'.Issued id) :
    Safe (Answer.node c <$> b) cx fun answer cx' => cx'.AllIssued answer.handles :=
  .map fun hcx => ⟨(h hcx).1, fun id hid => by simpa [Answer.handles] using (h hcx).2 id hid⟩

/-- **Requests are safe.** -/
theorem Request.perform_safe (request : Request) (h : cx.AllIssued request.handles) :
    Safe request.perform cx fun answer cx' => cx'.AllIssued answer.handles := by
  cases request with
  | intern s =>
    exact .map fun hcx => ⟨(Safe.symbol s hcx).1, fun _ _ => Context.allIssued_nil⟩
  | name request => exact (request.perform_safe h).answer
  | type request => exact (request.perform_safe h).answer
  | expr request => exact (request.perform_safe h).answer
  | stmt kind => exact (Safe.pushStmt h).answer
  | decl request => exact (request.perform_safe h).answer
  | define kind => exact (define_safe h).answer
  | link request => exact (request.perform_safe h).answer
  | requirement kind => exact (Safe.pushReq h).answer
  | constraint kind => exact (Safe.internConstraint h).answer
  | query q => exact .read fun hcx answer hanswer => q.answer_issued hcx h hanswer

/-- Requests about the pending header are safe, and what is pending afterwards
has been issued. -/
theorem HeaderRequest.perform_safe {pending : Option TemplateHeader}
    (hpending : ∀ header ∈ pending, cx.AllIssued header.handles) (request : HeaderRequest)
    (h : cx.AllIssued request.handles) :
    Safe (request.perform pending).1 cx (fun answer cx' => cx'.AllIssued answer.handles) ∧
      ∀ header ∈ (request.perform pending).2, cx.AllIssued header.handles := by
  cases request with
  | start parms =>
    refine ⟨.pure fun _ => Context.allIssued_nil, fun header hheader => ?_⟩
    cases hheader
    simpa [TemplateHeader.handles, handles] using h
  | constrain expr =>
    cases pending with
    | none => exact ⟨.violation, fun header hheader => by cases hheader⟩
    | some header =>
      refine ⟨.pure fun _ => Context.allIssued_nil, fun header' hheader => ?_⟩
      cases hheader
      have hparms := hpending header rfl
      simp only [TemplateHeader.handles, Context.allIssued_append] at hparms ⊢
      exact ⟨hparms.1, h⟩
  | isPending => exact ⟨.pure fun _ => Context.allIssued_nil, hpending⟩
  | reset => exact ⟨.pure fun _ => Context.allIssued_nil, fun header hheader => by cases hheader⟩
  | templatize d =>
    cases pending with
    | none => exact ⟨.pure fun _ => h, fun header hheader => by cases hheader⟩
    | some header =>
      refine ⟨Safe.answer (.pushDecl ?_), fun header' hheader => by cases hheader⟩
      have hheader := hpending header rfl
      simp only [DeclKind.handles, Context.allIssued_cons]
      exact ⟨(Context.allIssued_cons.mp h).1, hheader⟩

namespace Workspace

/-- The context is closed, and the handles in pending headers are issued. -/
structure Sound (w : Workspace) : Prop where
  closed : w.context.Closed
  pending : ∀ place, ∀ header ∈ w.pending place, w.context.AllIssued header.handles

/-- A new workspace is sound: nothing is pending in it. -/
theorem sound_start (config : Config) (digest : List Nat → UInt64) : (start config digest).Sound :=
  ⟨Context.closed_create config digest, fun _ header hheader => by cases hheader⟩

/-- **One command.**  With issued handles it grows the context and nothing
else, keeps the workspace sound and answers with issued handles. -/
theorem step_sound {w : Workspace} (hw : w.Sound) (command : Command)
    (h : w.context.AllIssued command.handles) :
    (w.step command).2.Sound ∧ w.context.Grows (w.step command).2.context ∧
      ∀ answer, (w.step command).1 = .ok answer →
        (w.step command).2.context.AllIssued answer.handles := by
  cases command with
  | ask request =>
    obtain ⟨hgrows, hanswer⟩ := request.perform_safe h hw.closed
    refine ⟨⟨hgrows.closed hw.closed, fun place header hheader => ?_⟩, hgrows, hanswer⟩
    exact (hw.pending place header hheader).later hgrows.precedes
  | header place request =>
    obtain ⟨hsafe, hleft⟩ := request.perform_safe (hw.pending place) h
    obtain ⟨hgrows, hanswer⟩ := hsafe hw.closed
    refine ⟨⟨hgrows.closed hw.closed, fun p header hheader => ?_⟩, hgrows, hanswer⟩
    refine Context.AllIssued.later hgrows.precedes ?_
    by_cases hp : p = place
    · simp only [step, if_pos hp] at hheader
      exact hleft header hheader
    · simp only [step, if_neg hp] at hheader
      exact hw.pending p header hheader

/-- **Proper runs.**  They grow the context and keep the workspace sound. -/
theorem run_sound {w : Workspace} (hw : w.Sound) {commands : List Command}
    (h : w.Proper commands) :
    (w.run commands).2.Sound ∧ w.context.Grows (w.run commands).2.context := by
  induction commands generalizing w with
  | nil => exact ⟨hw, .refl⟩
  | cons command rest ih =>
      obtain ⟨hissued, hrest⟩ := h
      obtain ⟨hsound, hgrows, _⟩ := step_sound hw _ hissued
      obtain ⟨hsound', hgrows'⟩ := ih hsound hrest
      exact ⟨hsound', hgrows.trans hgrows'⟩

/-- A run goes on from where its first command leads. -/
theorem run_cons (w : Workspace) (command : Command) (rest : List Command) :
    (w.run (command :: rest)).2 = ((w.step command).2.run rest).2 := rfl

/-- A run in two parts. -/
theorem run_append (w : Workspace) (before after : List Command) :
    (w.run (before ++ after)).2 = ((w.run before).2.run after).2 := by
  induction before generalizing w with
  | nil => rfl
  | cons command rest ih => exact ih (w.step command).2

/-- The later commands have to be proper where the earlier ones have led. -/
theorem proper_append {w : Workspace} {before after : List Command} :
    w.Proper (before ++ after) ↔ w.Proper before ∧ (w.run before).2.Proper after := by
  induction before generalizing w with
  | nil => simp [Proper, run]
  | cons command rest ih => simp only [List.cons_append, Proper, ih, and_assoc, run]

/-- A run passes through the states after its beginnings. -/
theorem precedes_of_append {w : Workspace} (hw : w.Sound) {before after : List Command}
    (h : w.Proper (before ++ after)) :
    (w.run before).2.context.Precedes (w.run (before ++ after)).2.context := by
  obtain ⟨hbefore, hafter⟩ := proper_append.mp h
  rw [run_append]
  exact (run_sound (run_sound hw hbefore).1 hafter).2.precedes

/-- The workspace after a run from the start. -/
def reached (config : Config) (digest : List Nat → UInt64) (commands : List Command) : Workspace :=
  ((start config digest).run commands).2

/-- The state right after a command of a proper run is before its end. -/
theorem step_precedes_reached {config : Config} {digest : List Nat → UInt64}
    {before after : List Command} {command : Command}
    (h : (start config digest).Proper (before ++ command :: after)) :
    ((reached config digest before).step command).2.context.Precedes
      (reached config digest (before ++ command :: after)).context := by
  obtain ⟨hbefore, hissued, hafter⟩ := proper_append.mp h
  have hsound := (run_sound (sound_start config digest) hbefore).1
  have hlater := (run_sound (step_sound hsound _ hissued).1 hafter).2.precedes
  rw [reached, reached, run_append]
  exact hlater

end Workspace

end TermGraph
