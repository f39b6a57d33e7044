import Aizign.EngineHandle

/-!
# Observation is transparent

An observed use case answers what the plain one answers and leaves the journal
as the plain one leaves it, whatever the observer does. The observer sees the
stages of the plain run in their order, each opened and closed, up to its first
panic.
-/

namespace Aizign

section
variable {σ ω : Type} (w : JournalWorld σ) (observe : Notice → ω → Bool × ω)

/-- Calls the observer for each notice until it panics: whether it is still enabled, and its state. -/
def deliver : Bool → List Notice → ω → Bool × ω
  | enabled, [], o => (enabled, o)
  | false, _ :: _, o => (false, o)
  | true, n :: ns, o => deliver (observe n o).1 ns (observe n o).2

def EngineStage.notices (stage : EngineStage) (entries : Option Nat) : List Notice :=
  [.stageStarted stage, .stageFinished stage entries]

theorem deliver_disabled (ns : List Notice) (o : ω) : deliver observe false ns o = (false, o) := by
  cases ns <;> rfl

theorem deliver_append (enabled : Bool) (ns ms : List Notice) (o : ω) :
    deliver observe enabled (ns ++ ms) o =
      deliver observe (deliver observe enabled ns o).1 ms (deliver observe enabled ns o).2 := by
  induction ns generalizing enabled o with
  | nil => rfl
  | cons n ns ih =>
    cases enabled with
    | false => rw [deliver_disabled, deliver_disabled, deliver_disabled]
    | true => exact ih _ _

theorem exec_bestEffortNotify (enabled : Bool) (n : Notice) (s : σ) (o : ω) :
    (bestEffortNotify enabled n).exec (w.runObserved observe) (s, o) =
      ((deliver observe enabled [n] o).1, s, (deliver observe enabled [n] o).2) := by
  cases enabled <;> rfl

theorem exec_notify (enabled : Bool) (n : Notice) (s : σ) (o : ω) :
    ((Mode.observed enabled).notify n).exec (w.runObserved observe) (s, o) =
      (.observed (deliver observe enabled [n] o).1, s, (deliver observe enabled [n] o).2) := by
  unfold Mode.notify
  rw [Prog.exec_bind, exec_bestEffortNotify]
  rfl

def Silent {α : Type} (p : EngineProg α) : Prop := p.Uses fun o => ∀ n, o ≠ .notify n

theorem exec_silent {α : Type} {p : EngineProg α} (h : Silent p) (s : σ) (o : ω) :
    p.exec (w.runObserved observe) (s, o) = ((p.exec w.run s).1, (p.exec w.run s).2, o) := by
  induction p generalizing s with
  | ret a => rfl
  | call op k ih =>
    cases op with
    | notify n => exact absurd rfl (h.1 n)
    | loadCommitted => exact ih _ (h.2 _) _
    | now => exact ih _ (h.2 _) _
    | append event time => exact ih _ (h.2 _) _

theorem silent_load : Silent loadPort := by
  apply Prog.Uses.op
  intro n h
  cases h

theorem silent_clock : Silent clockPort := by
  apply Prog.Uses.op
  intro n h
  cases h

theorem silent_append (event : WorkflowEvent) (time : BoundedTimestamp) : Silent (appendPort event time) := by
  apply Prog.Uses.op
  intro n h
  cases h

theorem silent_pure {α : Type} (a : α) : Silent (pure a) := trivial

variable {α : Type}

theorem exec_stage_plain (stage : EngineStage) (entries : α → Option Nat) (p : EngineProg α) (s : σ) :
    (Mode.plain.stage stage entries p).exec w.run s = (((p.exec w.run s).1, .plain), (p.exec w.run s).2) := by
  unfold Mode.stage
  rw [Prog.exec_bind, Prog.exec_bind]
  rfl

theorem exec_stage_observed {p : EngineProg α} (hp : Silent p) (stage : EngineStage) (entries : α → Option Nat)
    (enabled : Bool) (s : σ) (o : ω) :
    ((Mode.observed enabled).stage stage entries p).exec (w.runObserved observe) (s, o) =
      (((p.exec w.run s).1,
          .observed (deliver observe enabled (stage.notices (entries (p.exec w.run s).1)) o).1),
        (p.exec w.run s).2, (deliver observe enabled (stage.notices (entries (p.exec w.run s).1)) o).2) := by
  unfold Mode.stage
  rw [Prog.exec_bind, exec_notify, Prog.exec_bind, exec_silent w observe hp, Prog.exec_bind, exec_notify]
  have h := deliver_append observe enabled [.stageStarted stage] [.stageFinished stage (entries (p.exec w.run s).1)] o
  simp only [List.singleton_append] at h
  unfold EngineStage.notices
  rw [h]
  rfl

theorem exec_computed_plain (stage : EngineStage) (a : α) (s : σ) :
    (Mode.plain.stage stage (fun _ => none) (pure a)).exec w.run s = ((a, .plain), s) :=
  exec_stage_plain w stage _ (pure a) s

theorem exec_computed_observed (stage : EngineStage) (a : α) (enabled : Bool) (s : σ) (o : ω) :
    ((Mode.observed enabled).stage stage (fun _ => none) (pure a)).exec (w.runObserved observe) (s, o) =
      ((a, .observed (deliver observe enabled (stage.notices none) o).1), s,
        (deliver observe enabled (stage.notices none) o).2) :=
  exec_stage_observed w observe (silent_pure a) stage _ enabled s o

def runNotices (loaded : Except JournalError (List JournalEntry)) (rest : List EngineStage) : List Notice :=
  EngineStage.journalLoadDecode.notices (loadedEntries loaded) ++ rest.flatMap fun stage => stage.notices none

/-- The stages of a submission after the load, by what was loaded and what was answered: it decides on what it could
replay, and appends only what it decided to accept. -/
def submitStages : Except JournalError (List JournalEntry) → Except HandleError SignalOutcome → List EngineStage
  | .error _, _ => []
  | .ok _, .error (.replay _) => [.replay]
  | .ok _, .ok (.duplicate _) | .ok _, .error (.rejected _) | .ok _, .error (.clock _) => [.replay, .decide]
  | .ok _, .ok (.accepted _) | .ok _, .error (.journal _) => [.replay, .decide, .appendSync]

/-- The stages of a reconciliation after the load; it never reaches the append. -/
def reconcileStages : Except JournalError (List JournalEntry) → Except ReconcileError SignalReconciliation → List EngineStage
  | .error _, _ => []
  | .ok _, .error (.replay _) => [.replay]
  | .ok _, .ok _ | .ok _, .error (.journal _) => [.replay, .decide]

/-- An observed run against the plain run: the same answer and journal, and the notices of the stages. -/
def SameRun {β : Type} (stages : Except JournalError (List JournalEntry) → β → List EngineStage)
    (observed plain : EngineProg β) (s : σ) (o : ω) : Prop :=
  observed.exec (w.runObserved observe) (s, o) =
    ((plain.exec w.run s).1, (plain.exec w.run s).2,
      (deliver observe true (runNotices (w.load s).1 (stages (w.load s).1 (plain.exec w.run s).1)) o).2)

theorem deliver_stages (loaded : Except JournalError (List JournalEntry)) (before : List EngineStage)
    (stage : EngineStage) (o : ω) :
    deliver observe (deliver observe true (runNotices loaded before) o).1 (stage.notices none)
      (deliver observe true (runNotices loaded before) o).2 =
        deliver observe true (runNotices loaded (before ++ [stage])) o := by
  rw [← deliver_append]
  simp [runNotices]

theorem deliver_load (loaded : Except JournalError (List JournalEntry)) (o : ω) :
    deliver observe true (EngineStage.journalLoadDecode.notices (loadedEntries loaded)) o =
      deliver observe true (runNotices loaded []) o := by
  simp [runNotices]

theorem submit_same_run (command : Command) (s : σ) (o : ω) :
    SameRun w observe submitStages (handleWorkflowSignalObserved command) (handleWorkflowSignal command) s o := by
  unfold SameRun handleWorkflowSignalObserved handleWorkflowSignal executeWorkflowSignal Mode.loadCommitted
  simp only [Prog.exec_bind, exec_stage_plain, exec_stage_observed w observe silent_load]
  have hload : loadPort.exec w.run s = w.load s := rfl
  rw [hload, deliver_load]
  cases hl : (w.load s).1 with
  | error e => rfl
  | ok entries =>
    unfold Mode.replay
    simp only [Prog.exec_bind, exec_computed_plain, exec_computed_observed, deliver_stages]
    cases hr : WorkflowState.replay (entries.map JournalEntry.event) with
    | error e => rfl
    | ok state =>
      unfold Mode.decide
      simp only [Prog.exec_bind, exec_computed_plain, exec_computed_observed, deliver_stages]
      cases hd : decideCommand state command with
      | duplicate eventId => rfl
      | rejected error => rfl
      | accepted event =>
        simp only [Prog.exec_bind, exec_silent w observe silent_clock]
        cases hn : (clockPort.exec w.run (w.load s).2).1 with
        | error e => rfl
        | ok time =>
          unfold Mode.append
          simp only [Prog.exec_bind, exec_stage_plain, exec_stage_observed w observe (silent_append event time),
            deliver_stages]
          cases ha : ((appendPort event time).exec w.run (clockPort.exec w.run (w.load s).2).2).1 with
          | error e => rfl
          | ok entry => rfl

theorem reconcile_same_run (signal : WorkflowSignal) (s : σ) (o : ω) :
    SameRun w observe reconcileStages (reconcileSignalObserved signal) (reconcileSignal signal) s o := by
  unfold SameRun reconcileSignalObserved reconcileSignal executeReconciliation Mode.loadCommitted
  simp only [Prog.exec_bind, exec_stage_plain, exec_stage_observed w observe silent_load]
  have hload : loadPort.exec w.run s = w.load s := rfl
  rw [hload, deliver_load]
  cases hl : (w.load s).1 with
  | error e => rfl
  | ok entries =>
    unfold Mode.replay
    simp only [Prog.exec_bind, exec_computed_plain, exec_computed_observed, deliver_stages]
    cases hr : WorkflowState.replay (entries.map JournalEntry.event) with
    | error e => rfl
    | ok state =>
      unfold Mode.reconcile
      simp only [Prog.exec_bind, exec_computed_plain, exec_computed_observed, deliver_stages]
      rfl

/-- No observer, whatever it does and wherever it panics, changes an answer of the engine or the journal. -/
theorem observation_transparent (command : Command) (signal : WorkflowSignal) (s : σ) (o : ω) :
    SameRun w observe submitStages (handleWorkflowSignalObserved command) (handleWorkflowSignal command) s o ∧
      SameRun w observe reconcileStages (reconcileSignalObserved signal) (reconcileSignal signal) s o :=
  ⟨submit_same_run w observe command s o, reconcile_same_run w observe signal s o⟩

end

end Aizign
