import Aizign.Engine
import Aizign.ProgRefine
import Aizign.WorkflowRuns

/-!
# The use cases of the engine

`handle_workflow_signal` and `reconcile_workflow_signal` as programs over the
ports of the engine: the journal, the clock and an observer of the stages. An
observer that panics is not called again for the rest of the operation.
-/

namespace Aizign

/-! ## Ports -/

inductive EngineStage
  | journalLoadDecode
  | replay
  | decide
  | appendSync
  deriving DecidableEq

/-- A call of `EngineObserver`. -/
inductive Notice
  | stageStarted (stage : EngineStage)
  | stageFinished (stage : EngineStage) (journalEntries : Option Nat)
  deriving DecidableEq

inductive ClockError
  | outOfRange
  deriving DecidableEq

def ClockError.text : ClockError → Text
  | .outOfRange => "system time is outside the bounded range".toList

inductive EngineOp
  | loadCommitted
  | now
  | append (event : WorkflowEvent) («at» : BoundedTimestamp)
  | notify (notice : Notice)

/-- What a port answers; an observer answers whether the call returned without a panic. -/
def EngineOp.Res : EngineOp → Type
  | .loadCommitted => Except JournalError (List JournalEntry)
  | .now => Except ClockError BoundedTimestamp
  | .append _ _ => Except JournalError JournalEntry
  | .notify _ => Bool

abbrev EngineProg (α : Type) := Prog EngineOp.Res α

def loadPort : EngineProg (Except JournalError (List JournalEntry)) := .op EngineOp.loadCommitted

def clockPort : EngineProg (Except ClockError BoundedTimestamp) := .op EngineOp.now

def appendPort (event : WorkflowEvent) (time : BoundedTimestamp) : EngineProg (Except JournalError JournalEntry) :=
  .op (EngineOp.append event time)

def observerPort (notice : Notice) : EngineProg Bool := .op (EngineOp.notify notice)

/-! ## Modes -/

/-- `SubmitMode` and `ReconcileMode`; an observer is wrapped with its `enabled` flag. -/
inductive Mode
  | plain
  | observed (enabled : Bool)
  deriving DecidableEq

/-- `BestEffortObserver::notify`: whether the observer stays enabled. -/
def bestEffortNotify (enabled : Bool) (notice : Notice) : EngineProg Bool :=
  if enabled then observerPort notice else pure false

def Mode.notify (notice : Notice) : Mode → EngineProg Mode
  | .plain => pure .plain
  | .observed enabled => do return .observed (← bestEffortNotify enabled notice)

/-- A stage: announced before, announced after with what `entries` counts of the answer. -/
def Mode.stage {α : Type} (mode : Mode) (stage : EngineStage) (entries : α → Option Nat) (p : EngineProg α) :
    EngineProg (α × Mode) := do
  let mode ← mode.notify (.stageStarted stage)
  let a ← p
  let mode ← mode.notify (.stageFinished stage (entries a))
  return (a, mode)

def loadedEntries : Except JournalError (List JournalEntry) → Option Nat
  | .ok entries => some entries.length
  | .error _ => none

def Mode.loadCommitted (mode : Mode) : EngineProg (Except JournalError (List JournalEntry) × Mode) :=
  mode.stage .journalLoadDecode loadedEntries loadPort

def Mode.replay (mode : Mode) (entries : List JournalEntry) : EngineProg (Except ApplyError WorkflowState × Mode) :=
  mode.stage .replay (fun _ => none) (pure (WorkflowState.replay (entries.map JournalEntry.event)))

def Mode.decide (mode : Mode) (state : WorkflowState) (command : Command) : EngineProg (Decision × Mode) :=
  mode.stage .decide (fun _ => none) (pure (decideCommand state command))

def Mode.append (mode : Mode) (event : WorkflowEvent) (time : BoundedTimestamp) :
    EngineProg (Except JournalError JournalEntry × Mode) :=
  mode.stage .appendSync (fun _ => none) (appendPort event time)

def Mode.reconcile (mode : Mode) (state : WorkflowState) (signal : WorkflowSignal) :
    EngineProg (SignalReconciliation × Mode) :=
  mode.stage .decide (fun _ => none) (pure (reconcileWorkflowSignal state signal))

/-! ## Outcomes -/

inductive SignalOutcome
  | accepted (entry : JournalEntry)
  | duplicate (eventId : EventId)
  deriving DecidableEq

inductive HandleError
  | rejected (error : WorkflowError)
  | journal (error : JournalError)
  | replay (error : ApplyError)
  | clock (error : ClockError)
  deriving DecidableEq

def HandleError.code : HandleError → Text
  | .rejected e => e.code
  | .journal e => e.code
  | .replay _ => "JOURNAL_CORRUPT".toList
  | .clock _ => "INTERNAL".toList

def HandleError.text : HandleError → Text
  | .rejected e => e.text
  | .journal e => e.text
  | .replay e => "journal is corrupt: ".toList ++ e.text
  | .clock e => e.text

inductive ReconcileError
  | journal (error : JournalError)
  | replay (error : ApplyError)
  deriving DecidableEq

def ReconcileError.code : ReconcileError → Text
  | .journal e => e.code
  | .replay _ => "JOURNAL_CORRUPT".toList

def ReconcileError.text : ReconcileError → Text
  | .journal e => e.text
  | .replay e => "journal is corrupt: ".toList ++ e.text

/-! ## The use cases -/

def executeWorkflowSignal (mode : Mode) (command : Command) : EngineProg (Except HandleError SignalOutcome) := do
  let loaded ← mode.loadCommitted
  match loaded.1 with
  | .error e => return .error (.journal e)
  | .ok entries =>
    let replayed ← loaded.2.replay entries
    match replayed.1 with
    | .error e => return .error (.replay e)
    | .ok state =>
      let decision ← replayed.2.decide state command
      match decision.1 with
      | .duplicate eventId => return .ok (.duplicate eventId)
      | .rejected error => return .error (.rejected error)
      | .accepted event =>
        match ← clockPort with
        | .error e => return .error (.clock e)
        | .ok time =>
          let appended ← decision.2.append event time
          match appended.1 with
          | .error e => return .error (.journal e)
          | .ok entry => return .ok (.accepted entry)

def handleWorkflowSignal (command : Command) : EngineProg (Except HandleError SignalOutcome) :=
  executeWorkflowSignal .plain command

def handleWorkflowSignalObserved (command : Command) : EngineProg (Except HandleError SignalOutcome) :=
  executeWorkflowSignal (.observed true) command

def executeReconciliation (mode : Mode) (signal : WorkflowSignal) :
    EngineProg (Except ReconcileError SignalReconciliation) := do
  let loaded ← mode.loadCommitted
  match loaded.1 with
  | .error e => return .error (.journal e)
  | .ok entries =>
    let replayed ← loaded.2.replay entries
    match replayed.1 with
    | .error e => return .error (.replay e)
    | .ok state => return .ok (← replayed.2.reconcile state signal).1

def reconcileSignal (signal : WorkflowSignal) : EngineProg (Except ReconcileError SignalReconciliation) :=
  executeReconciliation .plain signal

def reconcileSignalObserved (signal : WorkflowSignal) : EngineProg (Except ReconcileError SignalReconciliation) :=
  executeReconciliation (.observed true) signal

/-! ## Worlds -/

structure JournalWorld (σ : Type) where
  load : σ → Except JournalError (List JournalEntry) × σ
  append : WorkflowEvent → BoundedTimestamp → σ → Except JournalError JournalEntry × σ
  now : σ → Except ClockError BoundedTimestamp × σ

def JournalWorld.run {σ : Type} (w : JournalWorld σ) : (o : EngineOp) → σ → o.Res × σ
  | .loadCommitted, s => w.load s
  | .now, s => w.now s
  | .append event time, s => w.append event time s
  | .notify _, s => (true, s)

/-- The ports with an observer over its own state, which may panic at any call. -/
def JournalWorld.runObserved {σ ω : Type} (w : JournalWorld σ) (observe : Notice → ω → Bool × ω) :
    (o : EngineOp) → σ × ω → o.Res × (σ × ω)
  | .loadCommitted, s => ((w.load s.1).1, (w.load s.1).2, s.2)
  | .now, s => ((w.now s.1).1, (w.now s.1).2, s.2)
  | .append event time, s => ((w.append event time s.1).1, (w.append event time s.1).2, s.2)
  | .notify notice, s => ((observe notice s.2).1, s.1, (observe notice s.2).2)

end Aizign
