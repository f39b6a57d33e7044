import Aizign.Commit
import Aizign.EnvelopeTs
import Aizign.JsonTokenTs

/-!
# The tool of the adapter

The configuration a plugin instance is bound to, the closed arguments of the
`submit_workflow_signal` tool, and the mapping from both to a payload. The agent
chooses a kind and a finding count; everything else is configured.
-/

namespace Aizign

/-- `HarnessError`, `ConfigError`, and whatever a getter of an argument throws. -/
inductive AdapterError
  | harness (message code : Text)
  | config (message : Text)
  | thrown
  deriving DecidableEq

/-! ## Configuration -/

structure TrustedSignalValues where
  artifactRef : Option Units
  blockedShortErrorCode : Units
  deriving DecidableEq

structure Config where
  binary : Units
  stateDir : Units
  timeoutMs : Option JsNumber
  eventId : Units
  workflowId : Units
  assignmentId : Units
  attemptId : Units
  role : Units
  artifactRevision : Units
  digestAlgorithm : Units
  digestHex : Units
  trustedSignalValues : JsValue

structure SignalBinding where
  eventId : Units
  expected : TsExpected
  deriving DecidableEq

structure AdapterConfig where
  binary : Units
  stateDir : Units
  timeoutMs : JsNumber
  binding : SignalBinding
  trustedSignalValues : TrustedSignalValues
  deriving DecidableEq

def invalidTrustedConfig : AdapterError :=
  .harness "Aizign rejected invalid trusted signal configuration".toList "INVALID_EXPECTATION".toList

/-- An own property that may stand in the trusted bundle: named, data, enumerable. -/
def trustedProperty (p : PropertyKey × Property JsValue) : Bool :=
  match p with
  | (.string key, .data _ enumerable) =>
    decide (key ∈ ["artifactRef".toList, "blockedShortErrorCode".toList].map codes) && enumerable
  | _ => false

def trustedArtifactRef (ps : Properties JsValue) : Except AdapterError (Option Units) :=
  match ownValue ps "artifactRef".toList with
  | none => .ok none
  | some (.string ref) => if artifactRefPattern ref then .ok (some ref) else .error invalidTrustedConfig
  | some _ => .error invalidTrustedConfig

def trustedErrorCode (ps : Properties JsValue) : Except AdapterError Units :=
  match ownValue ps "blockedShortErrorCode".toList with
  | some (.string code) => if shortErrorCodePattern code then .ok code else .error invalidTrustedConfig
  | _ => .error invalidTrustedConfig

def validateTrustedSignalValues (value : JsValue) (role : Units) : Except AdapterError TrustedSignalValues :=
  match value with
  | .object _ false .objectPrototype ps => do
    if !ps.all trustedProperty || !hasOwn ps "blockedShortErrorCode".toList then throw invalidTrustedConfig
    let artifactRef ← trustedArtifactRef ps
    let blockedShortErrorCode ← trustedErrorCode ps
    if role = codes Role.implementation.wire ∧ artifactRef = none then throw invalidTrustedConfig
    return ⟨artifactRef, blockedShortErrorCode⟩
  | _ => .error invalidTrustedConfig

def identifierMessage (field : Text) : Text := field ++ " must match ^[A-Za-z0-9][A-Za-z0-9._:-]\x7b0,127\x7d$".toList

/-- The checks that the schema of the configuration cannot make. -/
def configChecks (config : Config) : List (Bool × AdapterError) := [
  (config.binary.all isTrimmed, .config "binary must be a non-empty path".toList),
  (config.stateDir.all isTrimmed, .config "stateDir must be a non-empty path".toList),
  (!identifierPattern config.eventId, .config (identifierMessage "eventId".toList)),
  (!identifierPattern config.workflowId, .config (identifierMessage "workflowId".toList)),
  (!identifierPattern config.assignmentId, .config (identifierMessage "assignmentId".toList)),
  (!identifierPattern config.attemptId, .config (identifierMessage "attemptId".toList)),
  (!identifierPattern config.artifactRevision, .config (identifierMessage "artifactRevision".toList)),
  (decide (config.digestAlgorithm ≠ codes DigestAlgorithm.sha256.wire) || !sha256HexPattern config.digestHex,
    .config "candidateDigest must be a sha256 digest with 64 lowercase hex digits".toList)]

def defaultTimeoutMs : JsNumber := .integral 15000

def validateConfig (config : Config) : Except AdapterError AdapterConfig := do
  let trustedSignalValues ← validateTrustedSignalValues config.trustedSignalValues config.role
  refuseFirst (configChecks config)
  let some role := role? (.string config.role) | throw (.config "role must be implementation or review".toList)
  let timeoutMs := config.timeoutMs.getD defaultTimeoutMs
  if !timeoutMs.isInteger || decide (timeoutMs.value ≤ 0) then throw (.config "timeoutMs must be a positive integer".toList)
  return {
    binary := config.binary
    stateDir := config.stateDir
    timeoutMs
    binding := ⟨config.eventId, ⟨config.workflowId, config.assignmentId, config.attemptId, role, config.artifactRevision,
      ⟨.sha256, config.digestHex⟩⟩⟩
    trustedSignalValues }

/-! ## Arguments -/

/-- The kinds a role may submit; `blocked` is always allowed. -/
def kindsForRole : Role → List SignalKind
  | .implementation => [.implementationReady, .repairSubmitted, .blocked]
  | .review => [.reviewPassed, .reviewFindings, .blocked]

structure SignalArgs where
  kind : SignalKind
  findingCount : Option JsNumber
  deriving DecidableEq

def invalidToolInput : AdapterError :=
  .harness "Aizign rejected invalid workflow signal input".toList "INVALID_SIGNAL".toList

def argument (prototype : Prototype JsValue) (ps : Properties JsValue) (key : Text) : Except AdapterError JsValue :=
  match readProperty prototype ps key with
  | some v => .ok v
  | none => .error .thrown

def decodeArgs (args : JsValue) (role : Role) : Except AdapterError SignalArgs :=
  match args with
  | .object _ false prototype ps => do
    if !(enumerableKeys ps).all fun key => decide (key ∈ ["kind".toList, "findingCount".toList].map codes) then
      throw invalidToolInput
    let kindValue ← argument prototype ps "kind".toList
    let findingCount ← argument prototype ps "findingCount".toList
    let some kind := (kindsForRole role).find? fun k => kindValue.isString k.wire | throw invalidToolInput
    match findingCount with
    | .undefined => return ⟨kind, none⟩
    | .number n => if !n.isInteger || decide (n.value < 0) then throw invalidToolInput else return ⟨kind, some n⟩
    | _ => throw invalidToolInput
  | _ => .error invalidToolInput

/-! ## The mapping -/

structure SignalSource where
  assignment : TsExpected
  eventId : Units
  kind : SignalKind
  findingCount : Option JsNumber
  artifactRef : Option Units
  shortErrorCode : Option Units
  deriving DecidableEq

structure SubmitSource where
  expected : TsExpected
  signal : SignalSource
  deriving DecidableEq

structure TrustedValueResolution where
  payload : SubmitSource
  trustedValueMappingKey : Text
  deriving DecidableEq

/-- The canonical JSON of an assignment: its members in the order of their names. -/
def TsExpected.canonical (e : TsExpected) : Cst := jsonMap expectedFields [some (jsString e.workflowId),
  some (jsString e.assignmentId), some (jsString e.attemptId), some (jsString (codes e.role.wire)),
  some (jsString e.artifactRevision), some e.candidateDigest.graph]

def mappingFields : List Field := [⟨"schemaVersion".toList, false⟩, ⟨"eventId".toList, false⟩, ⟨"expected".toList, false⟩,
  ⟨"artifactRef".toList, false⟩, ⟨"blockedShortErrorCode".toList, false⟩]

def mappingRecord (binding : SignalBinding) (trusted : TrustedSignalValues) : Cst := jsonMap mappingFields [some (jsonNat 1),
  some (jsString binding.eventId), some binding.expected.canonical, some (trusted.artifactRef.elim .null jsString),
  some (jsString trusted.blockedShortErrorCode)]

/-- The only mapping from the arguments and the trusted values to a payload. -/
def resolveTrustedSignalValues (binding : SignalBinding) (trusted : TrustedSignalValues) (args : SignalArgs) :
    TrustedValueResolution where
  payload := ⟨binding.expected, {
    assignment := binding.expected
    eventId := binding.eventId
    kind := args.kind
    findingCount := args.findingCount
    artifactRef := if args.kind = .repairSubmitted ∨ args.kind = .reviewFindings then trusted.artifactRef else none
    shortErrorCode := if args.kind = .blocked then some trusted.blockedShortErrorCode else none }⟩
  trustedValueMappingKey := encodeHex (sha256 (utf8 ("aizign:dsh:trusted-signal-values:v1\n".toList ++
    (mappingRecord binding trusted).text)))

/-! ### The payload as a value -/

def TsDigest.value (d : TsDigest) : JsValue :=
  jsObject [("algorithm".toList, .string (codes d.algorithm.wire)), ("hex".toList, .string d.hex)]

def TsExpected.members (e : TsExpected) : List (Text × JsValue) := [("workflowId".toList, .string e.workflowId),
  ("assignmentId".toList, .string e.assignmentId), ("attemptId".toList, .string e.attemptId),
  ("role".toList, .string (codes e.role.wire)), ("artifactRevision".toList, .string e.artifactRevision),
  ("candidateDigest".toList, e.candidateDigest.value)]

/-- `...expected, eventId, kind`. -/
def SignalSource.members (s : SignalSource) : List (Text × JsValue) := s.assignment.members ++
  [("eventId".toList, .string s.eventId), ("kind".toList, .string (codes s.kind.wire))]

def SignalSource.all (s : SignalSource) : List (Text × JsValue) := s.members ++
  optionalMember "findingCount".toList (s.findingCount.map .number) ++
  optionalMember "artifactRef".toList (s.artifactRef.map .string) ++
  optionalMember "shortErrorCode".toList (s.shortErrorCode.map .string)

def SignalSource.value (s : SignalSource) : JsValue := jsObject s.all

def SubmitSource.value (p : SubmitSource) : JsValue :=
  jsObject [("expected".toList, jsObject p.expected.members), ("signal".toList, p.signal.value)]

def submitRequest (requestId : Units) (payload : JsValue) : JsValue := jsObject [("requestId".toList, .string requestId),
  ("kind".toList, .string (codes kindWorkflowSignalSubmit)), ("payload".toList, payload)]

end Aizign
