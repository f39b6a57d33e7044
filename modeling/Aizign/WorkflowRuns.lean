import Aizign.Workflow

/-!
# Runs of commands

A run decides each command against the state of the moment and applies what it
accepts. Deciding, replaying and reconciling agree at every point of a run.
-/

namespace Aizign

structure WorkflowRun where
  state : WorkflowState
  events : List WorkflowEvent

def WorkflowRun.new : WorkflowRun := ⟨WorkflowState.new, []⟩

def WorkflowRun.submit (r : WorkflowRun) (command : Command) : Except ApplyError WorkflowRun :=
  match decideCommand r.state command with
  | .accepted event => (r.state.apply event).map fun s => ⟨s, r.events ++ [event]⟩
  | _ => .ok r

def WorkflowRun.submitAll (commands : List Command) (r : WorkflowRun) : Except ApplyError WorkflowRun :=
  commands.foldlM WorkflowRun.submit r

/-- The state is the one a cold read of the events rebuilds. -/
def WorkflowRun.Replays (r : WorkflowRun) : Prop := WorkflowState.replay r.events = .ok r.state

theorem replay_snoc {events : List WorkflowEvent} {s : WorkflowState} (h : WorkflowState.replay events = .ok s)
    (e : WorkflowEvent) : WorkflowState.replay (events ++ [e]) = s.apply e := by
  rw [WorkflowState.replay] at h ⊢
  rw [List.foldlM_append, h]
  show (s.apply e >>= fun x => pure x) = s.apply e
  rw [bind_pure]

section
variable {r r' : WorkflowRun} {signal : WorkflowSignal} {expected : ExpectedAssignment}

/-- An accepted event carries an id that the state does not have. -/
theorem accepted_none_of_decide {state : WorkflowState} {command : Command} {event : WorkflowEvent}
    (h : decideCommand state command = .accepted event) : state.accepted event.eventId = none := by
  obtain ⟨signal, expected⟩ := command
  simp only [decideCommand] at h
  split at h
  · cases h
  · split at h
    · split at h <;> cases h
    · rename_i hn
      cases h
      exact hn

theorem submit_accepted {command : Command} {event : WorkflowEvent} (h : decideCommand r.state command = .accepted event) :
    r.submit command = (r.state.apply event).map fun s => ⟨s, r.events ++ [event]⟩ := by
  simp only [WorkflowRun.submit, h]

theorem submit_unchanged {command : Command} (h : ∀ event, decideCommand r.state command ≠ .accepted event) :
    r.submit command = .ok r := by
  unfold WorkflowRun.submit
  split
  · rename_i event hd
    exact absurd hd (h event)
  · rfl

/-- One command never fails, and keeps what a cold read rebuilds. -/
theorem WorkflowRun.Replays.submit (h : r.Replays) (command : Command) :
    ∃ r', r.submit command = .ok r' ∧ r'.Replays := by
  by_cases hd : ∃ event, decideCommand r.state command = .accepted event
  · obtain ⟨event, hd⟩ := hd
    obtain ⟨s, hs⟩ := (r.state.apply_ok_iff event).mpr (accepted_none_of_decide hd)
    refine ⟨⟨s, r.events ++ [event]⟩, by rw [submit_accepted hd, hs]; rfl, ?_⟩
    exact (replay_snoc h event).trans hs
  · exact ⟨r, submit_unchanged fun event he => hd ⟨event, he⟩, h⟩

theorem WorkflowRun.Replays.submitAll (h : r.Replays) (commands : List Command) :
    ∃ r', r.submitAll commands = .ok r' ∧ r'.Replays := by
  unfold WorkflowRun.submitAll
  induction commands generalizing r with
  | nil => exact ⟨r, rfl, h⟩
  | cons c cs ih =>
    obtain ⟨r₁, h₁, hr₁⟩ := h.submit c
    rw [List.foldlM_cons, h₁]
    exact ih hr₁

theorem accepted_submit {command : Command} (h : r.submit command = .ok r') {i : EventId} {s : WorkflowSignal}
    (hs : r.state.accepted i = some s) : r'.state.accepted i = some s := by
  by_cases hd : ∃ event, decideCommand r.state command = .accepted event
  · obtain ⟨event, hd⟩ := hd
    rw [submit_accepted hd] at h
    cases ha : r.state.apply event with
    | error e => rw [ha] at h; cases h
    | ok t =>
      rw [ha] at h
      cases h
      have hnone := accepted_none_of_decide hd
      have hne : event.eventId ≠ i := by
        intro he
        rw [he, hs] at hnone
        cases hnone
      rw [WorkflowState.accepted_apply ha, if_neg hne]
      exact hs
  · rw [submit_unchanged fun event he => hd ⟨event, he⟩] at h
    cases h
    exact hs

theorem accepted_submitAll {commands : List Command} (h : r.submitAll commands = .ok r') {i : EventId}
    {s : WorkflowSignal} (hs : r.state.accepted i = some s) : r'.state.accepted i = some s := by
  unfold WorkflowRun.submitAll at h
  induction commands generalizing r with
  | nil => cases h; exact hs
  | cons c cs ih =>
    rw [List.foldlM_cons] at h
    cases hc : r.submit c with
    | error e => rw [hc] at h; cases h
    | ok r₁ =>
      rw [hc] at h
      exact ih h (accepted_submit hc hs)

theorem reconcile_ne_absent {state : WorkflowState} (h : reconcileWorkflowSignal state signal ≠ .absent) :
    ∃ s, state.accepted signal.eventId = some s := by
  unfold reconcileWorkflowSignal at h
  cases ha : state.accepted signal.eventId with
  | none => rw [ha] at h; exact absurd rfl h
  | some s => exact ⟨s, rfl⟩

/-- What is accepted or in conflict stays so. -/
theorem reconcile_submitAll {commands : List Command} (h : r.submitAll commands = .ok r')
    (hs : reconcileWorkflowSignal r.state signal ≠ .absent) :
    reconcileWorkflowSignal r'.state signal = reconcileWorkflowSignal r.state signal := by
  obtain ⟨s, hs⟩ := reconcile_ne_absent hs
  rw [reconcileWorkflowSignal, reconcileWorkflowSignal, accepted_submitAll h hs, hs]

/-- The decision on a matching signal, by what reconciliation says of it. -/
def reconciledDecision (signal : WorkflowSignal) : SignalReconciliation → Decision
  | .absent => .accepted (.signalAccepted signal)
  | .accepted => .duplicate signal.eventId
  | .conflict => .rejected (.eventConflict signal.eventId)

theorem decide_matching (state : WorkflowState) (h : signal.checkExpected expected = .ok ()) :
    decideCommand state (.submitSignal signal expected) =
      reconciledDecision signal (reconcileWorkflowSignal state signal) := by
  simp only [decideCommand, reconcileWorkflowSignal, h]
  cases ha : state.accepted signal.eventId with
  | none => rfl
  | some s => by_cases hs : s = signal <;> simp [hs, reconciledDecision]

theorem reconciledDecision_inj {a b : SignalReconciliation} :
    reconciledDecision signal a = reconciledDecision signal b ↔ a = b := by
  cases a <;> cases b <;> simp [reconciledDecision]

theorem submit_mismatch {e : WorkflowError} (h : signal.checkExpected expected = .error e) :
    r.submit (.submitSignal signal expected) = .ok r := by
  simp only [WorkflowRun.submit, decideCommand, h]

end

def SignalParts.assignment (p : SignalParts) : ExpectedAssignment :=
  ⟨p.workflowId, p.assignmentId, p.attemptId, p.role, p.artifactRevision, p.candidateDigest⟩

theorem checkExpected_ok_iff {signal : WorkflowSignal} {expected : ExpectedAssignment} :
    signal.checkExpected expected = .ok () ↔ signal.parts.assignment = expected := by
  constructor
  · intro h
    simp only [WorkflowSignal.checkExpected, bind, Except.bind, pure, Except.pure, throw, throwThe,
      MonadExceptOf.throw] at h
    -- each comparison that fails is an error
    repeat (split at h; · cases h)
    simp only [ne_eq, not_not] at *
    simp only [SignalParts.assignment, *]
  · rintro rfl
    simp [WorkflowSignal.checkExpected, SignalParts.assignment, pure, Except.pure]

/-- Over every run: applying what is accepted never fails, the accepted events replay to the state, decision and
reconciliation agree on every matching command, a mismatching command changes nothing, and what is accepted or in
conflict stays so. -/
theorem workflow_runs_agree (before after : List Command) :
    ∃ r r', WorkflowRun.new.submitAll before = .ok r ∧ r.submitAll after = .ok r' ∧
      WorkflowState.replay r.events = .ok r.state ∧
      (∀ signal expected, WorkflowSignal.checkExpected signal expected = .ok () ↔ signal.parts.assignment = expected) ∧
      (∀ signal expected d, signal.checkExpected expected = .ok () →
        (decideCommand r.state (.submitSignal signal expected) = reconciledDecision signal d ↔
          reconcileWorkflowSignal r.state signal = d)) ∧
      (∀ signal expected e, signal.checkExpected expected = .error e →
        r.submit (.submitSignal signal expected) = .ok r) ∧
      ∀ signal, reconcileWorkflowSignal r.state signal ≠ .absent →
        reconcileWorkflowSignal r'.state signal = reconcileWorkflowSignal r.state signal := by
  have hnew : WorkflowRun.new.Replays := rfl
  obtain ⟨r, hr, hreplay⟩ := hnew.submitAll before
  obtain ⟨r', hr', -⟩ := hreplay.submitAll after
  refine ⟨r, r', hr, hr', hreplay, fun _ _ => checkExpected_ok_iff, ?_, ?_, ?_⟩
  · intro signal expected d hm
    rw [decide_matching r.state hm]
    exact reconciledDecision_inj
  · intro signal expected e he
    exact submit_mismatch he
  · intro signal hs
    exact reconcile_submitAll hr' hs

end Aizign
