import Aizign.Framing
import Aizign.ResponseTs

/-!
# The one-shot client

`OneShotCoreClient`: one child process for one request. The events of the child,
of the timer and of the caller's abort signal come in any order; the first that
settles the exchange decides it, and only a frame of a child that exited with 0
is decoded. What is decoded is classified against the request that was sent;
all else is unknown.
-/

namespace Aizign

open ErrorCodes

/-! ## Outcomes -/

inductive UnknownReason
  | noResponse
  | undecodableResponse
  | oversizedResponse
  | correlationMismatch
  | timeout
  | spawnFailed
  | reportedUnknown
  | aborted
  deriving DecidableEq

structure UnknownOutcome where
  reason : UnknownReason
  detail : Units
  reportedCode : Option Units
  deriving DecidableEq

inductive Exchange
  | response (response : TsResponse)
  | unknown (outcome : UnknownOutcome)
  deriving DecidableEq

def unknownExchange (reason : UnknownReason) (detail : Units) : Exchange := .unknown ⟨reason, detail, none⟩

/-! ## The exchange -/

/-- `String(value)` of a number or `null`. -/
def exitCodeText : Option Nat → Text
  | some code => decimal code
  | none => "null".toList

def signalText : Option Units → Units
  | some name => name
  | none => codes "null".toList

/-- `String(error)` of a `DecodeFailure`. -/
def TsDecodeFailure.text (f : TsDecodeFailure) : Units :=
  if f.error.message = [] then codes "DecodeFailure".toList else codes "DecodeFailure: ".toList ++ f.error.message

def maxClientFrameBytes : Nat := 65536

structure ExchangeState where
  stdout : FrameCollector
  settled : Option Exchange
  /-- Whether the client has sent SIGKILL. -/
  killed : Bool

inductive ChildEvent
  | data (chunk : Bytes)
  | stderr (chunk : Bytes)
  | stdinError (message : Units)
  | exit
  | error (message : Units)
  | timer
  | abort
  | close (code : Option Nat) (closeSignal : Option Units)

namespace ExchangeState

def spawned : ExchangeState := ⟨FrameCollector.new maxClientFrameBytes, none, false⟩

def settle (s : ExchangeState) (exchange : Exchange) : ExchangeState :=
  if s.settled.isSome then s else { s with settled := some exchange }

def kill (s : ExchangeState) : ExchangeState := { s with killed := true }

def mayHaveAppended : Text := "; the core may have appended".toList

def onData (s : ExchangeState) (chunk : Bytes) : ExchangeState :=
  let kept := s.stdout.append chunk
  let s := { s with stdout := kept.2 }
  if kept.1 then s
  else s.kill.settle (unknownExchange .oversizedResponse
    (codes ("stdout exceeded ".toList ++ decimal maxClientFrameBytes ++ " bytes".toList ++ mayHaveAppended)))

/-- The timer; settling clears it. -/
def onTimer (timeoutMs : Nat) (s : ExchangeState) : ExchangeState :=
  if s.settled.isSome then s
  else s.kill.settle (unknownExchange .timeout
    (codes ("no response within ".toList ++ decimal timeoutMs ++ "ms".toList ++ mayHaveAppended)))

/-- The abort listener; settling removes it. -/
def onAbort (s : ExchangeState) : ExchangeState :=
  if s.settled.isSome then s
  else s.kill.settle (unknownExchange .aborted (codes ("cancelled while waiting".toList ++ mayHaveAppended)))

def clientContext (requestAxis : TsAxis) : TsContext :=
  ⟨some requestAxis, some bootstrapEnvelopeVersion.toNat, some protocolVersion.toNat⟩

/-- What the `close` handler settles with. -/
def closed (requestAxis : TsAxis) (extraction : FrameExtraction) (code : Option Nat) (closeSignal : Option Units) :
    Exchange :=
  match extraction with
  | .oversized detail => unknownExchange .oversizedResponse (codes detail)
  | .empty =>
    unknownExchange .noResponse
      (codes ("process exited with ".toList ++ exitCodeText code ++ " without a frame".toList))
  | .extra detail => unknownExchange .undecodableResponse (codes detail)
  | .frame frame =>
    match closeSignal, code with
    | none, some code =>
      if code ≠ 0 then
        unknownExchange .undecodableResponse
          (codes ("process exited ".toList ++ decimal code ++ " while emitting a response frame".toList))
      else
        match tsDecodeResponse frame (clientContext requestAxis) with
        | .ok response => .response response
        | .error failure => unknownExchange .undecodableResponse failure.text
    | closeSignal, _ =>
      unknownExchange .noResponse (codes "process terminated without an exit code (".toList ++ signalText closeSignal ++
        codes ")".toList)

def step (timeoutMs : Nat) (requestAxis : TsAxis) (s : ExchangeState) : ChildEvent → ExchangeState
  | .data chunk => s.onData chunk
  -- the handlers of these do nothing, but for the timing of the exit
  | .stderr _ | .stdinError _ | .exit => s
  | .error message => s.settle (unknownExchange .spawnFailed message)
  | .timer => s.onTimer timeoutMs
  | .abort => s.onAbort
  | .close code closeSignal => s.settle (closed requestAxis s.stdout.extract code closeSignal)

def run (timeoutMs : Nat) (requestAxis : TsAxis) (s : ExchangeState) (events : List ChildEvent) : ExchangeState :=
  events.foldl (step timeoutMs requestAxis) s

end ExchangeState

inductive Launch
  | abortedBefore
  | spawnThrew (error : Units)
  | spawned (events : List ChildEvent)

/-- `#exchange`: what the promise resolves with, if it does. -/
def exchange (timeoutMs : Nat) (requestAxis : TsAxis) : Launch → Option Exchange
  | .abortedBefore => some (unknownExchange .aborted (codes "cancelled before the process was spawned".toList))
  | .spawnThrew error => some (unknownExchange .spawnFailed error)
  | .spawned events => (ExchangeState.spawned.run timeoutMs requestAxis events).settled

/-! ## Classification -/

structure SentRequest where
  requestId : Units
  kind : Units
  eventId : Option Units

inductive CorrelationField
  | requestId
  | kind
  | eventId
  deriving DecidableEq

def CorrelationField.text : CorrelationField → Text
  | .requestId => "requestId".toList
  | .kind => "kind".toList
  | .eventId => "eventId".toList

structure CorrelationMismatch where
  field : CorrelationField
  expected : Units
  actual : Option Units
  deriving DecidableEq

def TsResponseBody.eventId? : TsResponseBody → Option Units
  | .workflowSignal result => some result.eventId
  | .workflowSignalReconciliation result => some result.eventId
  | _ => none

def checkCorrelation (sent : SentRequest) (response : TsResponse) : Option CorrelationMismatch :=
  if response.requestId ≠ some sent.requestId then some ⟨.requestId, sent.requestId, response.requestId⟩
  else if response.kind ≠ some sent.kind then some ⟨.kind, sent.kind, response.kind⟩
  else match sent.eventId, response.body.eventId? with
    | some expected, some actual => if actual ≠ expected then some ⟨.eventId, expected, some actual⟩ else none
    | _, _ => none

def CorrelationMismatch.text (m : CorrelationMismatch) : Units :=
  codes m.field.text ++ codes ": expected ".toList ++ m.expected ++ codes ", got ".toList ++ signalText m.actual

def TsResponseBody.errorCode? : TsResponseBody → Option Units
  | .error code _ => some code
  | _ => none

def responseVersionMismatch (response : TsResponse) (expected : TsVersion) (allowBootstrapCompatibility : Bool) :
    Option UnknownOutcome :=
  if response.version = expected then none
  else if allowBootstrapCompatibility ∧
      response.body.errorCode? = some (codes protocolVersionUnsupported.value) ∧
      response.version = ⟨.bootstrap, bootstrapEnvelopeVersion.toNat⟩ then none
  else some ⟨.undecodableResponse, codes ("response used ".toList ++ response.version.axis.text ++ "@".toList ++
    decimal response.version.version ++ "; expected ".toList ++ expected.axis.text ++ "@".toList ++
    decimal expected.version), none⟩

/-- `CURRENT_FIXED_ERROR_CODES`, the values of `codes`. -/
def fixedErrorCodes : List Text :=
  ["PROTOCOL_VERSION_UNSUPPORTED".toList, "INVALID_ENVELOPE".toList, "UNKNOWN_KIND".toList, "INVALID_PAYLOAD".toList,
    "REQUEST_TOO_LARGE".toList, "CAPABILITY_UNSUPPORTED".toList, "INTERNAL".toList, "HANDLER_TIMEOUT".toList,
    "INVALID_EXPECTATION".toList, "INVALID_SIGNAL".toList, "WORKFLOW_MISMATCH".toList, "ASSIGNMENT_MISMATCH".toList,
    "ATTEMPT_MISMATCH".toList, "ROLE_MISMATCH".toList, "REVISION_MISMATCH".toList, "CANDIDATE_DIGEST_MISMATCH".toList,
    "EVENT_CONFLICT".toList, "JOURNAL_UNAVAILABLE".toList, "JOURNAL_CORRUPT".toList,
    "JOURNAL_SCHEMA_UNSUPPORTED".toList, "JOURNAL_LOCKED".toList, "JOURNAL_BOUND_EXCEEDED".toList,
    "JOURNAL_OUTCOME_UNKNOWN".toList]

/-- `CURRENT_UNKNOWN_OUTCOME_CODES`. -/
def unknownOutcomeCodes : List Text :=
  ["INTERNAL".toList, "HANDLER_TIMEOUT".toList, "JOURNAL_OUTCOME_UNKNOWN".toList]

inductive OperationKind
  | hello
  | submit
  | reconcile
  deriving DecidableEq

inductive TimingOutcome
  | ok
  | accepted
  | duplicate
  | conflict
  | absent
  | rejected
  | error
  | unknown
  deriving DecidableEq

/-- `CorrelatedResponseCase`: the disposition of a success, or an error. -/
def classifyCorrelatedOutcome (operation : OperationKind) (responseCase : Option TimingOutcome)
    (reportedCode : Option Units) : TimingOutcome :=
  match responseCase with
  | some disposition => disposition
  | none =>
    match reportedCode with
    | none => .unknown
    | some code =>
      if code ∉ fixedErrorCodes.map codes ∨ code ∈ unknownOutcomeCodes.map codes then .unknown
      else match operation with
        | .hello => .error
        | .submit => .rejected
        | .reconcile => .unknown

def reportedUnknown (code message : Units) : UnknownOutcome :=
  ⟨.reportedUnknown, code ++ codes ": ".toList ++ message, some code⟩

/-! ## The operations -/

inductive SubmitOutcome
  | settled (disposition : Disposition) (eventId : Units)
  | rejected (code message : Units)
  | unknown (outcome : UnknownOutcome)

def operationVersion : TsVersion := ⟨.acceptedOperation, protocolVersion.toNat⟩

def submitOutcome (requestId eventId : Units) : Exchange → SubmitOutcome
  | .unknown outcome => .unknown outcome
  | .response response =>
    match checkCorrelation ⟨requestId, codes kindWorkflowSignalSubmit, some eventId⟩ response with
    | some mismatch => .unknown ⟨.correlationMismatch, mismatch.text, response.body.errorCode?⟩
    | none =>
      match responseVersionMismatch response operationVersion true with
      | some outcome => .unknown outcome
      | none =>
        match response.body with
        | .workflowSignal result => .settled result.disposition result.eventId
        | .error code message =>
          if classifyCorrelatedOutcome .submit none (some code) = .rejected then .rejected code message
          else .unknown (reportedUnknown code message)
        | _ => .unknown ⟨.undecodableResponse, codes "submit answered with a non-signal body".toList, none⟩

inductive ReconcileOutcome
  | settled (disposition : ReconciliationDisposition) (eventId : Units)
  | unknown (outcome : UnknownOutcome)

def reconcileOutcome (requestId eventId : Units) : Exchange → ReconcileOutcome
  | .unknown outcome => .unknown outcome
  | .response response =>
    match checkCorrelation ⟨requestId, codes kindWorkflowSignalReconcile, some eventId⟩ response with
    | some mismatch => .unknown ⟨.correlationMismatch, mismatch.text, response.body.errorCode?⟩
    | none =>
      match responseVersionMismatch response operationVersion true with
      | some outcome => .unknown outcome
      | none =>
        match response.body with
        | .workflowSignalReconciliation result => .settled result.disposition result.eventId
        | .error code message => .unknown (reportedUnknown code message)
        | _ => .unknown ⟨.undecodableResponse, codes "reconcile answered with a non-reconciliation body".toList, none⟩

end Aizign
