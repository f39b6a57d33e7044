import Aizign.EngineHandle
import Aizign.EnvelopeEncode
import Aizign.Store

/-!
# What the command line executes

`execute_request`: a request is handed to the engine over a store that is
opened for it, and the outcome becomes the body of the response. The lock goes
with the opened journal, at the end of the use case. Logs and measurements are
left out.
-/

namespace Aizign

open ErrorCodes

variable [SerdeJson]

/-! ## Errors -/

def JournalError.shortCode (e : JournalError) : ShortErrorCode := ⟨e.code, by cases e <;> rfl⟩

def HandleError.shortCode : HandleError → ShortErrorCode
  | .rejected e => e.shortCode
  | .journal e => e.shortCode
  | .replay _ => ⟨"JOURNAL_CORRUPT".toList, rfl⟩
  | .clock _ => ⟨"INTERNAL".toList, rfl⟩

def ReconcileError.shortCode : ReconcileError → ShortErrorCode
  | .journal e => e.shortCode
  | .replay _ => ⟨"JOURNAL_CORRUPT".toList, rfl⟩

omit [SerdeJson] in
theorem HandleError.shortCode_value (e : HandleError) : e.shortCode.value = e.code := by cases e <;> rfl

omit [SerdeJson] in
theorem ReconcileError.shortCode_value (e : ReconcileError) : e.shortCode.value = e.code := by cases e <;> rfl

def handleError (e : HandleError) : ProtocolError :=
  match e with
  | .rejected rejection => rejection.protocolError
  | other => ⟨other.shortCode, other.text⟩

def reconcileError (e : ReconcileError) : ProtocolError := ⟨e.shortCode, e.text⟩

def capabilityUnsupported : ShortErrorCode := ⟨"CAPABILITY_UNSUPPORTED".toList, rfl⟩

def storeCapabilityUnsupported (kind : Text) : ProtocolError :=
  ⟨capabilityUnsupported, kind ++ " is unavailable on this unverified storage platform".toList⟩

/-! ## The handshake -/

def capabilityWorkflowSignalSubmit : Text := "workflow.signal.submit".toList
def capabilityWorkflowSignalReconcile : Text := "workflow.signal.reconcile".toList

/-- `supported` is `STORE_PLATFORM_SUPPORTED` of the build. -/
def helloInfo (supported : Bool) : HelloInfo :=
  ⟨protocolVersion, UInt32.ofNat (min journalSchemaVersion u32Max),
    if supported then [capabilityWorkflowSignalSubmit, capabilityWorkflowSignalReconcile] else [],
    ⟨"aizign".toList, "0.1.0".toList⟩⟩

/-! ## Use cases over a store -/

def storePort (clock : Except ClockError BoundedTimestamp) (lock : Nat) : (o : EngineOp) → Prog Op.Res o.Res
  | .loadCommitted => (loadCommitted lock).run
  | .now => .ret clock
  | .append event time => (appendWithOps lock event time).run
  | .notify _ => .ret true

/-- `JsonlJournal::open`, then the use case. -/
def submitStored (clock : Except ClockError BoundedTimestamp) (command : Command) :
    Prog Op.Res (Except HandleError SignalOutcome) := do
  match ← openWriter.run with
  | .error e => return .error (.journal e)
  | .ok lock => (handleWorkflowSignal command).via (storePort clock lock)

/-- `JsonlJournalReader::open`, then the use case. -/
def reconcileStored (signal : WorkflowSignal) : Prog Op.Res (Except ReconcileError SignalReconciliation) := do
  match ← openReader.run with
  | .error e => return .error (.journal e)
  | .ok lock => (reconcileSignal signal).via (storePort (.error .outOfRange) lock)

def submitBody : Except HandleError SignalOutcome → ResponseBody
  | .ok (.accepted entry) => .workflowSignal ⟨.accepted, entry.event.eventId⟩
  | .ok (.duplicate eventId) => .workflowSignal ⟨.duplicate, eventId⟩
  | .error e => .error (handleError e)

def reconciliationDisposition : SignalReconciliation → ReconciliationDisposition
  | .accepted => .accepted
  | .conflict => .conflict
  | .absent => .absent

def reconcileBody (signal : WorkflowSignal) : Except ReconcileError SignalReconciliation → ResponseBody
  | .ok disposition => .workflowSignalReconciliation ⟨reconciliationDisposition disposition, signal.eventId⟩
  | .error e => .error (reconcileError e)

def submitResponse (clock : Except ClockError BoundedTimestamp) (command : Command) : Prog Op.Res ResponseBody := do
  return submitBody (← submitStored clock command)

def reconcileResponse (signal : WorkflowSignal) : Prog Op.Res ResponseBody := do
  return reconcileBody signal (← reconcileStored signal)

def executeRequest (supported : Bool) (clock : Except ClockError BoundedTimestamp) (kind : RequestKind) :
    Prog Op.Res ResponseBody :=
  match kind with
  | .hello => return .hello (helloInfo supported)
  | .submitWorkflowSignal command =>
    if supported then submitResponse clock command else return .error (storeCapabilityUnsupported kind.name)
  | .reconcileWorkflowSignal signal =>
    if supported then reconcileResponse signal else return .error (storeCapabilityUnsupported kind.name)

end Aizign
