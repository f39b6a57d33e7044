import Aizign.EnvelopeTs
import Aizign.JsParse

/-!
# Responses in the TypeScript package

`decodeResponse`: the scan of a frame recovers its correlation and selects the
version axis it is read on, `JSON.parse` gives the value, and the builders check
the payload that the kind calls for.
-/

namespace Aizign

open ErrorCodes

/-! ## Responses -/

inductive TsAxis
  | bootstrap
  | acceptedOperation
  deriving DecidableEq

def TsAxis.text : TsAxis → Text
  | .bootstrap => "bootstrap".toList
  | .acceptedOperation => "accepted-operation".toList

structure TsVersion where
  axis : TsAxis
  version : Nat
  deriving DecidableEq

structure TsHelloInfo where
  protocolVersion : UInt32
  journalSchemaVersion : UInt32
  capabilities : List Units
  packageName : Units
  packageVersion : Units
  deriving DecidableEq

structure TsResult (δ : Type) where
  disposition : δ
  eventId : Units
  deriving DecidableEq

inductive TsResponseBody
  | hello (info : TsHelloInfo)
  | workflowSignal (result : TsResult Disposition)
  | workflowSignalReconciliation (result : TsResult ReconciliationDisposition)
  | error (code message : Units)
  deriving DecidableEq

structure TsResponse where
  version : TsVersion
  requestId : Option Units
  kind : Option Units
  body : TsResponseBody
  deriving DecidableEq

structure TsDecodeFailure where
  requestId : Option Units
  kind : Option Units
  responseVersion : TsVersion
  error : TsError
  deriving DecidableEq

/-- `ResponseDecodeContext`. -/
structure TsContext where
  requestAxis : Option TsAxis
  bootstrapVersion : Option Nat
  operationVersion : Option Nat

def TsContext.version (context : TsContext) (axis : TsAxis) : TsVersion :=
  ⟨axis, match axis with
    | .bootstrap => context.bootstrapVersion.getD bootstrapEnvelopeVersion.toNat
    | .acceptedOperation => context.operationVersion.getD protocolVersion.toNat⟩

/-! ## Payloads -/

def versionOf : JsValue → Option UInt32
  | .number (.integral n) => if 1 ≤ n ∧ n ≤ u32Max then some (UInt32.ofNat n.toNat) else none
  | _ => none

/-- `^[a-z][a-z0-9]*(\.[a-z][a-z0-9]*)*$`, from the start of a token or inside one. -/
def capabilityPattern : Bool → Units → Bool
  | start, [] => !start
  | true, u :: r => lowerUnit u && capabilityPattern false r
  | false, u :: r =>
    if u = '.'.toNat then capabilityPattern true r else (lowerUnit u || digitUnit u) && capabilityPattern false r

def capability? : JsValue → Option Units
  | .string s => if s.length ≤ 128 ∧ capabilityPattern true s = true then some s else none
  | _ => none

/-- `JSON.parse` makes no array but ordinary ones. -/
def arrayValues (value : JsValue) (path : Text) : Except TsError (List JsValue) :=
  match value with
  | .array vs => .ok vs
  | _ => .error (payloadFail (codes (path ++ " must be a plain array".toList)))

def tsCheckCapabilities (seen : List Units) : List JsValue → Except TsError (List Units)
  | [] => .ok []
  | v :: vs =>
    match capability? v with
    | none => .error (payloadFail (codes ("capabilities must be lowercase dot-separated names ".toList ++
        "(^[a-z][a-z0-9]*(\\.[a-z][a-z0-9]*)*$, at most 128 bytes)".toList)))
    | some c =>
      if c ∈ seen then .error (payloadFail (codes "capabilities must not repeat".toList))
      else (tsCheckCapabilities (c :: seen) vs).map fun cs => c :: cs

def wellFormedString? : JsValue → Option Units
  | .string s => if isWellFormedUnicode s then some s else none
  | _ => none

def buildHelloInfo (payload : JsValue) : Except TsError TsHelloInfo := do
  let ps ← assertClosedObject payloadFail payload
    ["protocolVersion".toList, "journalSchemaVersion".toList, "capabilities".toList, "package".toList] "hello payload".toList
  let protocolVersion ← ownDataValue payloadFail ps "protocolVersion".toList "hello payload".toList
  let journalSchemaVersion ← ownDataValue payloadFail ps "journalSchemaVersion".toList "hello payload".toList
  let capabilitiesValue ← ownDataValue payloadFail ps "capabilities".toList "hello payload".toList
  let pkg ← ownDataValue payloadFail ps "package".toList "hello payload".toList
  let some protocolVersion := versionOf protocolVersion
    | throw (payloadFail (codes "protocolVersion must be an integer between 1 and 4294967295".toList))
  let some journalSchemaVersion := versionOf journalSchemaVersion
    | throw (payloadFail (codes "journalSchemaVersion must be an integer between 1 and 4294967295".toList))
  let capabilities ← tsCheckCapabilities [] (← arrayValues capabilitiesValue "capabilities".toList)
  let qs ← assertClosedObject payloadFail pkg ["name".toList, "version".toList] "package".toList
  let name ← ownDataValue payloadFail qs "name".toList "package".toList
  let version ← ownDataValue payloadFail qs "version".toList "package".toList
  let some name := wellFormedString? name
    | throw (payloadFail (codes "package.name and package.version must be strings".toList))
  let some version := wellFormedString? version
    | throw (payloadFail (codes "package.name and package.version must be strings".toList))
  return ⟨protocolVersion, journalSchemaVersion, capabilities, name, version⟩

def identifier? : JsValue → Option Units := requestId?

def buildResultWith {δ : Type} (all : List δ) (wire : δ → Text) (message : Text) (payload : JsValue) :
    Except TsError (TsResult δ) := do
  let some ps := plainObject? payload | throw (payloadFail (codes "payload must be an object".toList))
  assertOnlyKeys payloadFail ps ["disposition".toList, "eventId".toList]
  let disposition ← ownDataValue payloadFail ps "disposition".toList "payload".toList
  let eventId ← ownDataValue payloadFail ps "eventId".toList "payload".toList
  let some disposition := all.find? fun d => disposition.isString (wire d) | throw (payloadFail (codes message))
  let some eventId := identifier? eventId | throw (payloadFail (codes "eventId must be a stable identifier".toList))
  return ⟨disposition, eventId⟩

def buildSignalResult : JsValue → Except TsError (TsResult Disposition) :=
  buildResultWith Disposition.all Disposition.wire "disposition must be accepted or duplicate".toList

def buildReconciliationResult : JsValue → Except TsError (TsResult ReconciliationDisposition) :=
  buildResultWith ReconciliationDisposition.all ReconciliationDisposition.wire
    "disposition must be accepted, conflict, or absent".toList

/-! ## The probe -/

def JsonProbeValue.number? : JsonProbeValue → Option Units
  | .number raw => some raw
  | _ => none

def JsonProbeValue.boolean? : JsonProbeValue → Option Bool
  | .boolean b => some b
  | _ => none

structure TsRecovered where
  requestId : Option Units
  kind : Option Units

def correlationFromScan (scan : JsonTokenScan) : TsRecovered :=
  if scan.topLevelMemberNameUnicodeDefect then ⟨none, none⟩
  else ⟨((scan.topLevelValues (codes requestIdKey)).bind JsonProbeValue.string?).filter identifierPattern,
    (scan.topLevelValues (codes kindKey)).bind JsonProbeValue.string?⟩

def unitsLt : Units → Units → Bool
  | _, [] => false
  | [], _ :: _ => true
  | u :: s, v :: t => if u = v then unitsLt s t else decide (u < v)

def maxVersionText : Units := codes "4294967295".toList

/-- The token is a canonical integer. -/
def tsParseVersionToken : Option Units → Option Nat
  | none => none
  | some token =>
    if token.head? = some '-'.toNat then none
    else if maxVersionText.length < token.length then none
    else if token.length = maxVersionText.length ∧ unitsLt maxVersionText token = true then none
    else some (unitsValue token)

/-- `decodeFrame`, after the check of the size. -/
def tsFrameText (frame : Bytes) : Except TsError Units :=
  if maxFrameBytes < frame.length then
    .error (envelopeFail (codes ("response is ".toList ++ decimal frame.length ++ " bytes; at most ".toList ++
      decimal maxFrameBytes ++ " allowed".toList)))
  else if frame.take 3 = [0xef, 0xbb, 0xbf] then
    .error (envelopeFail (codes "frame is not JSON: UTF-8 BOM is not allowed before a JSON frame".toList))
  else match fromUtf8 frame with
    | none => .error (envelopeFail (codes "frame is not JSON: The encoded data was not valid for encoding utf-8".toList))
    | some text => .ok (utf16 text)

def tsScanFrame (text : Units) : Except TsError JsonTokenScan :=
  let scan := tsScanJsonTokens text
  match scan.syntaxError with
  | some e => .error (envelopeFail (codes e.2))
  | none =>
    if scan.topLevelObject then .ok scan else .error (envelopeFail (codes "frame must be a JSON object".toList))

def isBootstrapCode (code : Units) : Bool :=
  decide (code = codes requestTooLarge.value ∨ code = codes protocolVersionUnsupported.value ∨
    code = codes handlerTimeout.value)

def JsonTokenScan.axis (scan : JsonTokenScan) (context : TsContext) : TsAxis :=
  let kind := (correlationFromScan scan).kind
  let ok := (scan.topLevelValues (codes okKey)).bind JsonProbeValue.boolean?
  let code := scan.errorCode.filter shortErrorCodePattern
  let kindAxis (kind : Units) : TsAxis := if kind = codes kindHello then .bootstrap else .acceptedOperation
  match if ok = some true then kind else none with
  | some kind => kindAxis kind
  | none =>
    if ok = some false ∧ code.any isBootstrapCode = true then .bootstrap
    else context.requestAxis.getD (kind.elim .bootstrap kindAxis)

def JsonTokenScan.wireVersion (scan : JsonTokenScan) : Except TsError Nat :=
  match scan.failure with
  | some f =>
    .error ⟨if f.kind = .noncanonicalNumber ∧ f.inPayload then invalidPayload else invalidEnvelope, codes f.message⟩
  | none =>
    if (scan.topLevelValues (codes protocolKey)).bind JsonProbeValue.string? ≠ some (codes protocolName) then
      .error (envelopeFail (codes "protocol must be \"aizign\"".toList))
    else match tsParseVersionToken ((scan.topLevelValues (codes versionKey)).bind JsonProbeValue.number?) with
      | none => .error (envelopeFail (codes "version must be an integer between 0 and 4294967295".toList))
      | some version => .ok version

/-! ## Decoding -/

/-- A string or `null`, of the strings that `read` accepts. -/
def nullable (read : JsValue → Option Units) (message : Text) (v : JsValue) : Except TsError (Option Units) :=
  match v with
  | .null => .ok none
  | v =>
    match read v with
    | some s => .ok (some s)
    | none => .error (envelopeFail (codes message))

def string? : JsValue → Option Units
  | .string s => some s
  | _ => none

def shortErrorCode? : JsValue → Option Units
  | .string s => if shortErrorCodePattern s then some s else none
  | _ => none

def successBody (axis : TsAxis) (kind : Option Units) (payload : JsValue) : Except TsError TsResponseBody :=
  match kind with
  | none => .error (envelopeFail (codes "successful responses must name their kind".toList))
  | some kind =>
    if kind = codes kindHello then
      if axis ≠ .bootstrap then .error ⟨protocolVersionUnsupported, codes "hello response requires bootstrap axis".toList⟩
      else (buildHelloInfo payload).map .hello
    else if kind = codes kindWorkflowSignalSubmit then
      if axis ≠ .acceptedOperation then
        .error ⟨protocolVersionUnsupported, codes "submit response requires operation axis".toList⟩
      else (buildSignalResult payload).map .workflowSignal
    else if kind = codes kindWorkflowSignalReconcile then
      if axis ≠ .acceptedOperation then
        .error ⟨protocolVersionUnsupported, codes "reconcile response requires operation axis".toList⟩
      else (buildReconciliationResult payload).map .workflowSignalReconciliation
    else .error ⟨unknownKind, codes "kind \"".toList ++ kind ++ codes "\" is not registered".toList⟩

def tsErrorBody (error : JsValue) : Except TsError TsResponseBody := do
  let some es := plainObject? error | throw (envelopeFail (codes "error must be an object".toList))
  assertOnlyKeys envelopeFail es ["code".toList, "message".toList]
  let rawCode ← ownDataValue envelopeFail es "code".toList "error".toList
  let rawMessage ← ownDataValue envelopeFail es "message".toList "error".toList
  let some code := shortErrorCode? rawCode
    | throw (envelopeFail (codes "error.code must match ^[A-Z][A-Z0-9_]\x7b0,63\x7d$".toList))
  let some message := wellFormedString? rawMessage
    | throw (envelopeFail (codes "error.message must be a well-formed string".toList))
  return .error code message

def missingField (name : Text) : TsError := envelopeFail (codes ("missing field `".toList ++ name ++ ['`']))

/-- The part of `decodeResponse` that reads the parsed value: the request id, the kind and the body. -/
def readResponse (axis : TsAxis) (value : JsValue) : Except TsError (Option Units × Option Units × TsResponseBody) := do
  let some ps := plainObject? value | throw (envelopeFail (codes "frame must be a JSON object".toList))
  assertOnlyKeys envelopeFail ps
    ["protocol".toList, "version".toList, "requestId".toList, "kind".toList, "ok".toList, "payload".toList, "error".toList]
  let read (key : Text) : JsValue := (ownValue ps key).getD .undefined
  if !(read "protocol".toList).isString protocolName then
    throw (envelopeFail (codes "protocol must be \"aizign\"".toList))
  if !hasOwn ps "requestId".toList then throw (missingField "requestId".toList)
  if !hasOwn ps "kind".toList then throw (missingField "kind".toList)
  if !hasOwn ps "ok".toList then throw (missingField "ok".toList)
  let requestId ← nullable requestId? "requestId must be null or match ^[A-Za-z0-9][A-Za-z0-9._:-]\x7b0,127\x7d$".toList
    (read "requestId".toList)
  let kind ← nullable string? "kind must be a string or null".toList (read "kind".toList)
  let .boolean ok := read "ok".toList | throw (envelopeFail (codes "ok must be a boolean".toList))
  let hasPayload := hasOwn ps "payload".toList
  let hasError := hasOwn ps "error".toList
  if ok && hasPayload && !hasError then
    return (requestId, kind, ← successBody axis kind (read "payload".toList))
  else if !ok && hasError && !hasPayload then
    return (requestId, kind, ← tsErrorBody (read "error".toList))
  else throw (envelopeFail (codes "ok responses carry exactly payload; error responses carry exactly error".toList))

/-- Not reached: the scan has parsed the text. -/
def notJson : TsError := envelopeFail (codes "frame is not JSON: ".toList)

def tsDecodeResponse (frame : Bytes) (context : TsContext) : Except TsDecodeFailure TsResponse := do
  let unaddressed (error : TsError) : TsDecodeFailure :=
    ⟨none, none, context.version (context.requestAxis.getD .bootstrap), error⟩
  let text ← (tsFrameText frame).mapError unaddressed
  let scan ← (tsScanFrame text).mapError unaddressed
  let recovered := correlationFromScan scan
  let expected := context.version (scan.axis context)
  let fail (error : TsError) : TsDecodeFailure := ⟨recovered.requestId, recovered.kind, expected, error⟩
  let wireVersion ← scan.wireVersion.mapError fail
  if wireVersion ≠ expected.version then
    throw (fail ⟨protocolVersionUnsupported, codes (expected.axis.text ++ " response version must be ".toList ++
      decimal expected.version ++ "; got ".toList ++ decimal wireVersion)⟩)
  let some value := jsonParseValue text | throw (fail notJson)
  let (requestId, kind, body) ← (readResponse expected.axis value).mapError fail
  return ⟨⟨expected.axis, wireVersion⟩, requestId, kind, body⟩

end Aizign
