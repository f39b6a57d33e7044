import Aizign.JsonToken
import Aizign.Payload

/-!
# Protocol envelopes

`decode_request` and `decode_response_for`: a lenient probe over the raw-token
scan, a structural pass over the text with its payload emptied, and a typed pass
over the text with its payload integers bounded, after which the payload is
mapped to the core's values. An assertion or an `unreachable!` of the source is
an outcome of its own (`Stop.panic`).
-/

namespace Aizign

open ErrorCodes

variable [SerdeJson]

/-! ## Constants -/

def protocolName : Text := "aizign".toList
def protocolVersion : UInt32 := 1
def bootstrapEnvelopeVersion : UInt32 := 1
def maxFrameBytes : Nat := 64 * 1024
def maxRequestBytes : Nat := maxFrameBytes
def maxRequestIdLen : Nat := 128

def kindHello : Text := "hello".toList
def kindWorkflowSignalSubmit : Text := "workflow.signal.submit".toList
def kindWorkflowSignalReconcile : Text := "workflow.signal.reconcile".toList

def protocolKey : Text := "protocol".toList
def versionKey : Text := "version".toList
def requestIdKey : Text := "requestId".toList
def kindKey : Text := "kind".toList
def okKey : Text := "ok".toList

inductive RegisteredKind
  | hello
  | workflowSignalSubmit
  | workflowSignalReconcile
  deriving DecidableEq

def registeredKind (kind : Text) : Option RegisteredKind :=
  if kind = kindHello then some .hello
  else if kind = kindWorkflowSignalSubmit then some .workflowSignalSubmit
  else if kind = kindWorkflowSignalReconcile then some .workflowSignalReconcile
  else none

inductive ResponseVersion
  | bootstrap (version : UInt32)
  | acceptedOperation (version : UInt32)
  deriving DecidableEq

def ResponseVersion.currentBootstrap : ResponseVersion := .bootstrap bootstrapEnvelopeVersion
def ResponseVersion.operation : ResponseVersion := .acceptedOperation protocolVersion

def ResponseVersion.wire : ResponseVersion → UInt32
  | .bootstrap v | .acceptedOperation v => v

structure DecodeFailure where
  requestId : Option Text
  kind : Option Text
  responseVersion : ResponseVersion
  error : ProtocolError
  deriving DecidableEq

/-! ## Wire shapes -/

structure JsonMap where
  value : Cst
  object : value.members?.isSome = true

def JsonMap.isEmpty (m : JsonMap) : Bool := (m.value.members?.getD []).isEmpty

def deJsonMap (depth : Nat) (c : Cst) : Except DeError JsonMap :=
  if h : c.members?.isSome = true then (deValue depth c).map fun _ => ⟨c, h⟩
  else .error (.invalidType c.unexpected "a map".toList)

def deJsonValue (depth : Nat) (c : Cst) : Except DeError Cst := (deValue depth c).map fun _ => c

/-- What the recursion limit leaves inside an envelope. -/
def envelopeDepth : Nat := recursionLimit - 1

structure RequestEnvelope where
  protocol : Text
  version : UInt32
  requestId : Text
  kind : Text
  payload : JsonMap

def requestFields : List Field := [⟨protocolKey, false⟩, ⟨versionKey, false⟩, ⟨requestIdKey, false⟩,
  ⟨kindKey, false⟩, ⟨payloadKey, false⟩]

def requestType : Text := "RequestEnvelope".toList

def RequestEnvelope.de (c : Cst) : Except DeError RequestEnvelope := do
  match ← deStruct requestFields true c with
  | [some p, some v, some r, some k, some m] =>
    return ⟨← deString p, ← deU32 v, ← deString r, ← deString k, ← deJsonMap envelopeDepth m⟩
  | _ => .error .trailing

def RequestEnvelope.fromStr (t : Text) : Except DeError RequestEnvelope := Aizign.fromStr t >>= RequestEnvelope.de

structure ErrorDto where
  code : Text
  message : Text
  deriving DecidableEq

def errorFields : List Field := [⟨codeKey, false⟩, ⟨"message".toList, false⟩]

def ErrorDto.de (c : Cst) : Except DeError ErrorDto := do
  match ← deStruct errorFields true c with
  | [some c, some m] => return ⟨← deString c, ← deString m⟩
  | _ => .error .trailing

structure ResponseEnvelope where
  protocol : Text
  version : UInt32
  requestId : Option Text
  kind : Option Text
  ok : Bool
  payload : Option Cst
  error : Option ErrorDto

def responseFields : List Field := [⟨protocolKey, false⟩, ⟨versionKey, false⟩, ⟨requestIdKey, false⟩,
  ⟨kindKey, false⟩, ⟨okKey, false⟩, ⟨payloadKey, true⟩, ⟨errorKey, true⟩]

def responseType : Text := "ResponseEnvelope".toList

def ResponseEnvelope.de (c : Cst) : Except DeError ResponseEnvelope := do
  match ← deStruct responseFields true c with
  | [some p, some v, some r, some k, some o, m, e] =>
    return ⟨← deString p, ← deU32 v, ← deOption deString r, ← deOption deString k, ← deBool o,
      ← optional (deOption (deJsonValue envelopeDepth)) m, ← optional (deOption ErrorDto.de) e⟩
  | _ => .error .trailing

def ResponseEnvelope.fromStr (t : Text) : Except DeError ResponseEnvelope := Aizign.fromStr t >>= ResponseEnvelope.de

/-! ## Frames -/

/-- `std::str::from_utf8` fails at `index`, on `size` bytes that no sequence starts with, or on the bytes left. -/
structure Utf8Error where
  index : Nat
  size : Option Nat

def Utf8Error.text (e : Utf8Error) : Text :=
  match e.size with
  | some n => "invalid utf-8 sequence of ".toList ++ decimal n ++ " bytes from index ".toList ++ decimal e.index
  | none => "incomplete utf-8 byte sequence from index ".toList ++ decimal e.index

def isContinuation (b : UInt8) : Bool := decide (0x80 ≤ b.toNat) && decide (b.toNat ≤ 0xbf)

/-- The bytes that may follow the first one of a sequence: the range of the next, and how many come after that. -/
def sequenceTail (first : Nat) : Option (Nat × Nat × Nat) :=
  if 0xc2 ≤ first ∧ first ≤ 0xdf then some (0x80, 0xbf, 0)
  else if first = 0xe0 then some (0xa0, 0xbf, 1)
  else if first = 0xed then some (0x80, 0x9f, 1)
  else if 0xe1 ≤ first ∧ first ≤ 0xef then some (0x80, 0xbf, 1)
  else if first = 0xf0 then some (0x90, 0xbf, 2)
  else if first = 0xf4 then some (0x80, 0x8f, 2)
  else if 0xf1 ≤ first ∧ first ≤ 0xf3 then some (0x80, 0xbf, 2)
  else none

/-- How many of the next `n` bytes are continuations; `none` when the input ends before that is known. -/
def continuations (read : Nat) : Nat → Bytes → Option Nat
  | 0, _ => some read
  | _ + 1, [] => none
  | n + 1, b :: bs => if isContinuation b then continuations (read + 1) n bs else some read

def errorLength : Bytes → Option Nat
  | [] => none
  | first :: bs =>
    match sequenceTail first.toNat with
    | none => some 1
    | some (lo, hi, n) =>
      match bs with
      | [] => none
      | b :: bs => if lo ≤ b.toNat ∧ b.toNat ≤ hi then continuations 2 n bs else some 1

def validUpTo (frame : Bytes) : Nat :=
  ((List.range (frame.length + 1)).reverse.find? fun n => (fromUtf8 (frame.take n)).isSome).getD 0

def utf8Error (frame : Bytes) : Utf8Error := ⟨validUpTo frame, errorLength (frame.drop (validUpTo frame))⟩

def byteOrderMark : Char := Char.ofNat 0xfeff

/-- The size, UTF-8 and byte-order-mark gates of a frame that is called `what`. -/
def frameText (what : Text) (tooLarge : ShortErrorCode) (frame : Bytes) : Except ProtocolError Text :=
  if maxFrameBytes < frame.length then
    .error ⟨tooLarge, what ++ " is ".toList ++ decimal frame.length ++ " bytes; at most ".toList ++
      decimal maxFrameBytes ++ " allowed".toList⟩
  else match fromUtf8 frame with
    | none => .error ⟨invalidEnvelope, (utf8Error frame).text⟩
    | some text =>
      if text.head? = some byteOrderMark then
        .error ⟨invalidEnvelope, "UTF-8 BOM is not allowed before a JSON frame".toList⟩
      else .ok text

def scanFrame (text : Text) : Except ProtocolError Scan :=
  let scan := scanJsonTokens text
  match scan.syntaxError with
  | some message => .error ⟨invalidEnvelope, message⟩
  | none =>
    if scan.topLevelObject then .ok scan else .error ⟨invalidEnvelope, "frame must be a JSON object".toList⟩

/-! ## The probe -/

def validRequestId (value : Text) : Bool :=
  !value.isEmpty && decide ((utf8 value).length ≤ maxRequestIdLen) &&
    (utf8 value).zipIdx.all fun b => identifierByte b.2 b.1

def parseVersionToken (token : Option Text) : Option UInt32 :=
  match token with
  | none => none
  | some token => if token.head? = some '-' then none else (parseU32 token).map UInt32.ofNat

def probeString : Option ProbeValue → Option Text
  | some (.string value) => some value
  | _ => none

def probeNumber : Option ProbeValue → Option Text
  | some (.number token) => some token
  | _ => none

def probeBoolean : Option ProbeValue → Option Bool
  | some (.boolean value) => some value
  | _ => none

structure Recovered where
  requestId : Option Text
  kind : Option Text
  responseVersion : ResponseVersion
  typedText : Text
  envelopeText : Text
  payloadIntegerOutOfRange : Bool
  payloadExceedsTypedDepth : Bool

def Recovered.fail (r : Recovered) (error : ProtocolError) : DecodeFailure :=
  ⟨r.requestId, r.kind, r.responseVersion, error⟩

def Scan.recovered (scan : Scan) (version : ResponseVersion) : Recovered :=
  { requestId := if scan.correlationSafety = .safe then
        (probeString (scan.topLevelValues requestIdKey)).filter validRequestId
      else none
    kind := if scan.correlationSafety = .safe then probeString (scan.topLevelValues kindKey) else none
    responseVersion := version
    typedText := scan.typedText
    envelopeText := scan.envelopeText
    payloadIntegerOutOfRange := scan.payloadIntegerOutOfRange
    payloadExceedsTypedDepth := scan.payloadExceedsTypedDepth }

def Failure.protocolError (f : Failure) : ProtocolError :=
  ⟨if f.kind = .noncanonicalNumber ∧ f.inPayload then invalidPayload else invalidEnvelope, f.message⟩

def wrongProtocol : ProtocolError :=
  ⟨invalidEnvelope, "protocol must be \"".toList ++ protocolName ++ "\"".toList⟩

def wrongVersion : ProtocolError :=
  ⟨invalidEnvelope, "version must be an integer between 0 and ".toList ++ decimal u32Max⟩

/-- The lexical gate, the protocol name and the version token. -/
def Scan.version (scan : Scan) : Except ProtocolError UInt32 :=
  match scan.failure with
  | some f => .error f.protocolError
  | none =>
    if probeString (scan.topLevelValues protocolKey) ≠ some protocolName then .error wrongProtocol
    else match parseVersionToken (probeNumber (scan.topLevelValues versionKey)) with
      | none => .error wrongVersion
      | some version => .ok version

def unaddressed (version : ResponseVersion) (error : ProtocolError) : DecodeFailure := ⟨none, none, version, error⟩

def acceptedVersion (kind : Text) : UInt32 := if kind = kindHello then bootstrapEnvelopeVersion else protocolVersion

def unsupportedVersion (version accepted : UInt32) : ProtocolError :=
  ⟨protocolVersionUnsupported, "protocol version ".toList ++ decimal version.toNat ++
    " is not supported; this axis speaks ".toList ++ decimal accepted.toNat⟩

def probe (frame : Bytes) : Except DecodeFailure Recovered := do
  let text ← (frameText "request".toList requestTooLarge frame).mapError (unaddressed .currentBootstrap)
  let scan ← (scanFrame text).mapError (unaddressed .currentBootstrap)
  let recovered := scan.recovered .currentBootstrap
  let version ← scan.version.mapError recovered.fail
  match recovered.kind with
  | none => .ok recovered
  | some kind =>
    if version = acceptedVersion kind then
      if kind = kindHello then .ok recovered
      else .ok { recovered with responseVersion := .acceptedOperation (acceptedVersion kind) }
    else .error (recovered.fail (unsupportedVersion version (acceptedVersion kind)))

/-! ## Requests -/

inductive RequestKind
  | hello
  | submitWorkflowSignal (command : Command)
  | reconcileWorkflowSignal (signal : WorkflowSignal)
  deriving DecidableEq

structure Request where
  requestId : Text
  kind : RequestKind
  deriving DecidableEq

/-- A decoder stops with the failure it returns, or with a panic. -/
inductive Stop
  | failure (f : DecodeFailure)
  | panic (message : Text)
  deriving DecidableEq

def requestIdError : ProtocolError :=
  ⟨invalidEnvelope, "requestId must match ^[A-Za-z0-9][A-Za-z0-9._:-]\x7b0,".toList ++ decimal (maxRequestIdLen - 1) ++
    "\x7d$".toList⟩

def unregisteredKind (kind : Text) : ProtocolError :=
  ⟨unknownKind, "kind \"".toList ++ kind ++ "\" is not registered".toList⟩

def tooDeepError : ProtocolError := ⟨invalidPayload, "payload does not match the bounded Protocol v1 shape".toList⟩

def helloPayloadError : ProtocolError := ⟨invalidPayload, "hello takes an empty object payload".toList⟩

def integerRangeError : ProtocolError :=
  ⟨invalidPayload, "payload integer is outside the unsigned 32-bit range".toList⟩

/-- A payload mapped to its domain value once its integers are in range. -/
def boundedPayload {α} (outOfRange : Bool) (decode : Cst → Except ProtocolError α) (payload : Cst) :
    Except ProtocolError α :=
  if outOfRange then .error integerRangeError else decode payload

/-- The match on the kind of the typed envelope. -/
def requestKind (recovered : Recovered) (envelope : RequestEnvelope) : Except Stop RequestKind :=
  let fail (error : ProtocolError) : Stop := .failure (recovered.fail error)
  match registeredKind envelope.kind with
  | some .hello =>
    if envelope.payload.isEmpty then .ok .hello else .error (fail helloPayloadError)
  | some .workflowSignalSubmit =>
    ((boundedPayload recovered.payloadIntegerOutOfRange decodeSubmit envelope.payload.value).map
      .submitWorkflowSignal).mapError fail
  | some .workflowSignalReconcile =>
    ((boundedPayload recovered.payloadIntegerOutOfRange decodeReconcile envelope.payload.value).map
      .reconcileWorkflowSignal).mapError fail
  | none => .error (.panic "kind membership was checked before payload decode".toList)

def decodeRequest (frame : Bytes) : Except Stop Request := do
  let recovered ← (probe frame).mapError .failure
  let fail (error : ProtocolError) : Stop := .failure (recovered.fail error)
  let structural ← (RequestEnvelope.fromStr recovered.envelopeText).mapError fun e =>
    fail ⟨invalidEnvelope, SerdeJson.display requestType (utf8 recovered.envelopeText) e⟩
  if !validRequestId structural.requestId then throw (fail requestIdError)
  -- `debug_assert_eq!`
  if structural.version ≠ acceptedVersion structural.kind then throw (.panic "assertion failed".toList)
  if registeredKind structural.kind = none then throw (fail (unregisteredKind structural.kind))
  if recovered.payloadExceedsTypedDepth then throw (fail tooDeepError)
  let envelope ← (RequestEnvelope.fromStr recovered.typedText).mapError fun e =>
    fail (payloadError requestType (utf8 recovered.typedText) e)
  return ⟨envelope.requestId, ← requestKind recovered envelope⟩

/-! ## Responses -/

inductive ResponseBody
  | hello (info : HelloInfo)
  | workflowSignal (result : SignalResult)
  | workflowSignalReconciliation (result : ReconciliationResult)
  | error (error : ProtocolError)
  deriving DecidableEq

structure Response where
  version : ResponseVersion
  requestId : Option Text
  kind : Option Text
  body : ResponseBody
  deriving DecidableEq

def expectedBootstrapVersion : Option ResponseVersion → UInt32
  | some (.bootstrap version) => version
  | _ => bootstrapEnvelopeVersion

def expectedOperationVersion : Option ResponseVersion → UInt32
  | some (.acceptedOperation version) => version
  | _ => protocolVersion

def isUnconditionallyBootstrapErrorCode (code : Text) : Bool :=
  code == requestTooLarge.value || code == protocolVersionUnsupported.value || code == handlerTimeout.value

def inferredRequestStage (kind : Option Text) : Option ResponseVersion → ResponseVersion
  | some stage => stage
  | none => if kind.any (· != kindHello) then .operation else .currentBootstrap

def expectedResponseVersion (kind : Option Text) (ok : Option Bool) (errorCode : Option Text)
    (requestStage : Option ResponseVersion) : ResponseVersion :=
  if ok = some true then
    match kind with
    | some kind =>
      if kind = kindHello then .bootstrap (expectedBootstrapVersion requestStage)
      else .acceptedOperation (expectedOperationVersion requestStage)
    | none => inferredRequestStage kind requestStage
  else if ok = some false ∧ errorCode.any isUnconditionallyBootstrapErrorCode then
    .bootstrap (expectedBootstrapVersion requestStage)
  else inferredRequestStage kind requestStage

def ResponseVersion.axis : ResponseVersion → Text
  | .bootstrap _ => "bootstrap".toList
  | .acceptedOperation _ => "accepted-operation".toList

def wrongResponseVersion (expected : ResponseVersion) (version : UInt32) : ProtocolError :=
  ⟨protocolVersionUnsupported, expected.axis ++ " response version must be ".toList ++ decimal expected.wire.toNat ++
    "; got ".toList ++ decimal version.toNat⟩

/-- The part of `decode_response_for` before its structural pass: what was recovered, and the expected version. -/
def responseProbe (frame : Bytes) (requestStage : Option ResponseVersion) : Except DecodeFailure Recovered := do
  let initial := requestStage.getD .currentBootstrap
  let text ← (frameText "response".toList invalidEnvelope frame).mapError (unaddressed initial)
  let scan ← (scanFrame text).mapError (unaddressed initial)
  let kind := (scan.recovered initial).kind
  let expected := expectedResponseVersion kind (probeBoolean (scan.topLevelValues okKey)) scan.errorCode requestStage
  let recovered := scan.recovered expected
  let version ← scan.version.mapError recovered.fail
  if version ≠ expected.wire then throw (recovered.fail (wrongResponseVersion expected version))
  return recovered

/-- The arms of the match on the outcome and the kind of a response. -/
inductive ResponseShape
  | success (kind : RegisteredKind) (payload : Cst)
  | unregistered (kind : Text)
  | unnamed
  | failure (error : ErrorDto)
  | mismatch

def ResponseEnvelope.shape (e : ResponseEnvelope) : ResponseShape :=
  match e.ok, e.payload, e.error with
  | true, some payload, none =>
    match e.kind with
    | some kind => (registeredKind kind).elim (.unregistered kind) fun k => .success k payload
    | none => .unnamed
  | false, none, some error => .failure error
  | _, _, _ => .mismatch

def unnamedKind : ProtocolError := ⟨invalidEnvelope, "successful responses must name their kind".toList⟩

def mismatchedBody : ProtocolError :=
  ⟨invalidEnvelope, "ok responses carry exactly payload; error responses carry exactly error".toList⟩

/-- The match on the structural envelope. -/
def ResponseShape.check : ResponseShape → Except ProtocolError Unit
  | .success .. | .failure _ => .ok ()
  | .unregistered kind => .error (unregisteredKind kind)
  | .unnamed => .error unnamedKind
  | .mismatch => .error mismatchedBody

def decodeHello (payload : Cst) : Except ProtocolError HelloInfo := do
  let info ← (HelloInfo.de payload).mapError (payloadError "HelloInfo".toList (utf8 payload.text))
  info.validate.mapError fun message => ⟨invalidPayload, message⟩
  return info

def errorBody (error : ErrorDto) : Except ProtocolError ResponseBody :=
  match ShortErrorCode.new error.code with
  | .ok code => .ok (.error ⟨code, error.message⟩)
  | .error _ => .error ⟨invalidEnvelope, "error.code must match ^[A-Z][A-Z0-9_]\x7b0,63\x7d$".toList⟩

/-- The match on the typed envelope. -/
def responseBody (outOfRange : Bool) : ResponseShape → Except ProtocolError ResponseBody
  | .success .hello payload => (boundedPayload outOfRange decodeHello payload).map .hello
  | .success .workflowSignalSubmit payload => (boundedPayload outOfRange decodeResult payload).map .workflowSignal
  | .success .workflowSignalReconcile payload =>
    (boundedPayload outOfRange decodeReconciliationResult payload).map .workflowSignalReconciliation
  | .unregistered kind => .error (unregisteredKind kind)
  | .unnamed => .error unnamedKind
  | .failure error => errorBody error
  | .mismatch => .error mismatchedBody

def responseIdError : ProtocolError :=
  ⟨invalidEnvelope, "requestId must be null or match ^[A-Za-z0-9][A-Za-z0-9._:-]\x7b0,127\x7d$".toList⟩

def decodeResponseFor (frame : Bytes) (requestStage : Option ResponseVersion) : Except DecodeFailure Response := do
  let recovered ← responseProbe frame requestStage
  let structural ← (ResponseEnvelope.fromStr recovered.envelopeText).mapError fun e =>
    recovered.fail ⟨invalidEnvelope, SerdeJson.display responseType (utf8 recovered.envelopeText) e⟩
  if structural.protocol ≠ protocolName then throw (recovered.fail wrongProtocol)
  if structural.requestId.any fun id => !validRequestId id then throw (recovered.fail responseIdError)
  structural.shape.check.mapError recovered.fail
  if structural.ok && recovered.payloadExceedsTypedDepth then throw (recovered.fail tooDeepError)
  let envelope ← (ResponseEnvelope.fromStr recovered.typedText).mapError fun e =>
    recovered.fail (payloadError responseType (utf8 recovered.typedText) e)
  let body ← (responseBody recovered.payloadIntegerOutOfRange envelope.shape).mapError recovered.fail
  return ⟨recovered.responseVersion, envelope.requestId, envelope.kind, body⟩

def decodeResponse (frame : Bytes) : Except DecodeFailure Response := decodeResponseFor frame none

end Aizign
