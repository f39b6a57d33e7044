import Aizign.Record

/-!
# Protocol errors and payloads

The short codes of the protocol boundary and the closed payload schemas: the
submitted and reconciled signal, their results, and the handshake.
-/

namespace Aizign

variable [SerdeJson]

/-! ## Errors -/

structure ProtocolError where
  code : ShortErrorCode
  message : Text
  deriving DecidableEq

namespace ErrorCodes

def protocolVersionUnsupported : ShortErrorCode := ⟨"PROTOCOL_VERSION_UNSUPPORTED".toList, rfl⟩
def invalidEnvelope : ShortErrorCode := ⟨"INVALID_ENVELOPE".toList, rfl⟩
def unknownKind : ShortErrorCode := ⟨"UNKNOWN_KIND".toList, rfl⟩
def invalidPayload : ShortErrorCode := ⟨"INVALID_PAYLOAD".toList, rfl⟩
def requestTooLarge : ShortErrorCode := ⟨"REQUEST_TOO_LARGE".toList, rfl⟩
def handlerTimeout : ShortErrorCode := ⟨"HANDLER_TIMEOUT".toList, rfl⟩
def invalidExpectation : ShortErrorCode := ⟨"INVALID_EXPECTATION".toList, rfl⟩
def invalidSignal : ShortErrorCode := ⟨"INVALID_SIGNAL".toList, rfl⟩

end ErrorCodes

open ErrorCodes

def WorkflowError.shortCode (e : WorkflowError) : ShortErrorCode := ⟨e.code, by cases e <;> rfl⟩

def WorkflowError.protocolError (e : WorkflowError) : ProtocolError := ⟨e.shortCode, e.text⟩

/-! ## Payloads -/

def field {α} (code : ShortErrorCode) (name : Text) (r : Except IdentityError α) : Except ProtocolError α :=
  match r with
  | .ok a => .ok a
  | .error e => .error ⟨code, name ++ ": ".toList ++ e.text⟩

def fieldOption {α} (code : ShortErrorCode) (name : Text) (new : Text → Except IdentityError α) :
    Option Text → Except ProtocolError (Option α)
  | none => .ok none
  | some v => (field code name (new v)).map some

def digest (code : ShortErrorCode) (name : Text) (dto : DigestDto) : Except ProtocolError Digest :=
  field code name (Digest.new dto.algorithm dto.hex)

structure ExpectedDto where
  workflowId : Text
  assignmentId : Text
  attemptId : Text
  role : Role
  artifactRevision : Text
  candidateDigest : DigestDto
  deriving DecidableEq

def expectedFields : List Field := [⟨"workflowId".toList, false⟩, ⟨"assignmentId".toList, false⟩,
  ⟨"attemptId".toList, false⟩, ⟨"role".toList, false⟩, ⟨"artifactRevision".toList, false⟩,
  ⟨"candidateDigest".toList, false⟩]

def ExpectedDto.de (c : Cst) : Except DeError ExpectedDto := do
  match ← deStruct expectedFields true c with
  | [some w, some a, some t, some r, some v, some d] =>
    return ⟨← deString w, ← deString a, ← deString t, ← deRole r, ← deString v, ← DigestDto.de d⟩
  | _ => .error .trailing

structure SubmitPayload where
  expected : ExpectedDto
  signal : SignalDto
  deriving DecidableEq

def submitFields : List Field := [⟨"expected".toList, false⟩, ⟨"signal".toList, false⟩]

/-- A payload is decoded from a value that was read within the recursion limit, so `reject_null` reads its part of
it again without reaching that limit. -/
def SubmitPayload.de (c : Cst) : Except DeError SubmitPayload := do
  match ← deStruct submitFields true c with
  | [some e, some s] => return ⟨← ExpectedDto.de e, ← SignalDto.de s⟩
  | _ => .error .trailing

def reconcileFields : List Field := [⟨"signal".toList, false⟩]

def ReconcilePayload.de (c : Cst) : Except DeError SignalDto := do
  match ← deStruct reconcileFields true c with
  | [some s] => SignalDto.de s
  | _ => .error .trailing

def decodeSignal (dto : SignalDto) : Except ProtocolError WorkflowSignal := do
  let parts : SignalParts := {
    eventId := ← field invalidSignal "signal.eventId".toList (EventId.new dto.eventId)
    workflowId := ← field invalidSignal "signal.workflowId".toList (WorkflowId.new dto.workflowId)
    assignmentId := ← field invalidSignal "signal.assignmentId".toList (AssignmentId.new dto.assignmentId)
    attemptId := ← field invalidSignal "signal.attemptId".toList (AttemptId.new dto.attemptId)
    role := dto.role
    artifactRevision := ← field invalidSignal "signal.artifactRevision".toList
      (ArtifactRevision.new dto.artifactRevision)
    candidateDigest := ← digest invalidSignal "signal.candidateDigest".toList dto.candidateDigest
    kind := dto.kind
    findingCount := dto.findingCount
    artifactRef := ← fieldOption invalidSignal "signal.artifactRef".toList ArtifactRef.new dto.artifactRef
    shortErrorCode := ← fieldOption invalidSignal "signal.shortErrorCode".toList ShortErrorCode.new
      dto.shortErrorCode }
  (WorkflowSignal.validate parts).mapError WorkflowError.protocolError

def ExpectedDto.assignment (dto : ExpectedDto) : Except ProtocolError ExpectedAssignment := do
  return {
    workflowId := ← field invalidExpectation "expected.workflowId".toList (WorkflowId.new dto.workflowId)
    assignmentId := ← field invalidExpectation "expected.assignmentId".toList (AssignmentId.new dto.assignmentId)
    attemptId := ← field invalidExpectation "expected.attemptId".toList (AttemptId.new dto.attemptId)
    role := dto.role
    artifactRevision := ← field invalidExpectation "expected.artifactRevision".toList
      (ArtifactRevision.new dto.artifactRevision)
    candidateDigest := ← digest invalidExpectation "expected.candidateDigest".toList dto.candidateDigest }

def payloadError (type : Text) (document : Bytes) (e : DeError) : ProtocolError :=
  ⟨invalidPayload, SerdeJson.display type document e⟩

def decodeSubmit (payload : Cst) : Except ProtocolError Command := do
  let dto ← (SubmitPayload.de payload).mapError (payloadError "SubmitPayload".toList (utf8 payload.text))
  let expected ← dto.expected.assignment
  let signal ← decodeSignal dto.signal
  return .submitSignal signal expected

def decodeReconcile (payload : Cst) : Except ProtocolError WorkflowSignal := do
  let signal ← (ReconcilePayload.de payload).mapError (payloadError "ReconcilePayload".toList (utf8 payload.text))
  decodeSignal signal

inductive Disposition
  | accepted
  | duplicate
  deriving DecidableEq

def Disposition.all : List Disposition := [.accepted, .duplicate]

def Disposition.wire : Disposition → Text
  | .accepted => "accepted".toList
  | .duplicate => "duplicate".toList

inductive ReconciliationDisposition
  | accepted
  | conflict
  | absent
  deriving DecidableEq

def ReconciliationDisposition.all : List ReconciliationDisposition := [.accepted, .conflict, .absent]

def ReconciliationDisposition.wire : ReconciliationDisposition → Text
  | .accepted => "accepted".toList
  | .conflict => "conflict".toList
  | .absent => "absent".toList

/-- `SignalResult` and `ReconciliationResult`: a disposition with the event id it is about. -/
structure Result (δ : Type) where
  disposition : δ
  eventId : EventId
  deriving DecidableEq

abbrev SignalResult := Result Disposition
abbrev ReconciliationResult := Result ReconciliationDisposition

def resultFields : List Field := [⟨"disposition".toList, false⟩, ⟨"eventId".toList, false⟩]

/-- `SignalResultDto` and `ReconciliationResultDto`. -/
def resultDto {δ : Type} (disposition : De δ) (c : Cst) : Except DeError (δ × Text) := do
  match ← deStruct resultFields true c with
  | [some d, some e] => return (← disposition d, ← deString e)
  | _ => .error .trailing

def decodeResultWith {δ : Type} (type : Text) (disposition : De δ) (payload : Cst) : Except ProtocolError (Result δ) := do
  let dto ← (resultDto disposition payload).mapError (payloadError type (utf8 payload.text))
  return ⟨dto.1, ← field invalidPayload "eventId".toList (EventId.new dto.2)⟩

def decodeResult : Cst → Except ProtocolError SignalResult :=
  decodeResultWith "SignalResultDto".toList (deEnum Disposition.all Disposition.wire)

def decodeReconciliationResult : Cst → Except ProtocolError ReconciliationResult :=
  decodeResultWith "ReconciliationResultDto".toList (deEnum ReconciliationDisposition.all ReconciliationDisposition.wire)

/-! ## The handshake -/

structure PackageInfo where
  name : Text
  version : Text
  deriving DecidableEq

structure HelloInfo where
  protocolVersion : UInt32
  journalSchemaVersion : UInt32
  capabilities : List Text
  package : PackageInfo
  deriving DecidableEq

def packageFields : List Field := [⟨"name".toList, false⟩, ⟨"version".toList, false⟩]

def PackageInfo.de (c : Cst) : Except DeError PackageInfo := do
  match ← deStruct packageFields true c with
  | [some n, some v] => return ⟨← deString n, ← deString v⟩
  | _ => .error .trailing

def helloFields : List Field := [⟨"protocolVersion".toList, false⟩, ⟨"journalSchemaVersion".toList, false⟩,
  ⟨"capabilities".toList, false⟩, ⟨"package".toList, false⟩]

def deVec {α} (d : De α) (c : Cst) : Except DeError (List α) :=
  match c.elements? with
  | some vs => vs.mapM d
  | none => .error (.invalidType c.unexpected "a sequence".toList)

def HelloInfo.de (c : Cst) : Except DeError HelloInfo := do
  match ← deStruct helloFields true c with
  | [some p, some j, some cs, some k] => return ⟨← deU32 p, ← deU32 j, ← deVec deString cs, ← PackageInfo.de k⟩
  | _ => .error .trailing

def isAsciiLowercase (c : Char) : Bool := decide ('a' ≤ c) && decide (c ≤ 'z')

def capabilityToken : Text → Bool
  | [] => false
  | first :: rest => isAsciiLowercase first && rest.all fun c => isAsciiLowercase c || c.isDigit

def validCapability (name : Text) : Bool :=
  decide ((utf8 name).length ≤ 128) && !name.isEmpty && (name.splitOn '.').all capabilityToken

def checkCapabilities (seen : List Text) : List Text → Except Text Unit
  | [] => .ok ()
  | c :: cs =>
    if !validCapability c then
      .error ("capability `".toList ++ c ++ "` must match ^[a-z][a-z0-9]*(\\.[a-z][a-z0-9]*)*$ (at most 128 bytes)".toList)
    else if c ∈ seen then .error ("capability `".toList ++ c ++ "` is listed twice".toList)
    else checkCapabilities (c :: seen) cs

def HelloInfo.validate (info : HelloInfo) : Except Text Unit :=
  if info.protocolVersion = 0 then .error "protocolVersion must be at least 1".toList
  else if info.journalSchemaVersion = 0 then .error "journalSchemaVersion must be at least 1".toList
  else checkCapabilities [] info.capabilities

end Aizign
