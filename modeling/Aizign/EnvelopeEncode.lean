import Aizign.JsonValue

/-!
# Encoding envelopes

`encode_request` and `encode_response`. A payload goes through
`serde_json::to_value`, so its members are written in the order of their names;
the envelope itself is a struct and is written in the order of its fields.
-/

namespace Aizign

open ErrorCodes

/-! ## Payloads -/

def DigestDto.value (d : DigestDto) : Cst :=
  jsonMap digestFields [some (jsonString d.algorithm.wire), some (jsonString d.hex)]

def SignalDto.value (d : SignalDto) : Cst := jsonMap signalFields [some (jsonString d.eventId),
  some (jsonString d.workflowId), some (jsonString d.assignmentId), some (jsonString d.attemptId),
  some (jsonString d.role.wire), some (jsonString d.artifactRevision), some d.candidateDigest.value,
  some (jsonString d.kind.wire), d.findingCount.map fun n => jsonNat n.toNat, d.artifactRef.map jsonString,
  d.shortErrorCode.map jsonString]

def ExpectedDto.value (d : ExpectedDto) : Cst := jsonMap expectedFields [some (jsonString d.workflowId),
  some (jsonString d.assignmentId), some (jsonString d.attemptId), some (jsonString d.role.wire),
  some (jsonString d.artifactRevision), some d.candidateDigest.value]

def ExpectedAssignment.dto (a : ExpectedAssignment) : ExpectedDto :=
  ⟨a.workflowId.value, a.assignmentId.value, a.attemptId.value, a.role, a.artifactRevision.value,
    ⟨a.candidateDigest.algorithm, a.candidateDigest.hex⟩⟩

def encodeSignal (signal : WorkflowSignal) : SignalDto := signal.parts.dto

def encodeSubmit : Command → Cst
  | .submitSignal signal expected =>
    jsonMap submitFields [some expected.dto.value, some (encodeSignal signal).value]

def encodeReconcile (signal : WorkflowSignal) : Cst := jsonMap reconcileFields [some (encodeSignal signal).value]

def encodeResultWith {δ : Type} (wire : δ → Text) (result : Result δ) : Cst :=
  jsonMap resultFields [some (jsonString (wire result.disposition)), some (jsonString result.eventId.value)]

def encodeResult : SignalResult → Cst := encodeResultWith Disposition.wire

def encodeReconciliationResult : ReconciliationResult → Cst := encodeResultWith ReconciliationDisposition.wire

def PackageInfo.value (p : PackageInfo) : Cst := jsonMap packageFields [some (jsonString p.name), some (jsonString p.version)]

def HelloInfo.value (info : HelloInfo) : Cst := jsonMap helloFields [some (jsonNat info.protocolVersion.toNat),
  some (jsonNat info.journalSchemaVersion.toNat), some (jsonArray (info.capabilities.map jsonString)),
  some info.package.value]

/-! ## Requests -/

def RequestKind.name : RequestKind → Text
  | .hello => kindHello
  | .submitWorkflowSignal _ => kindWorkflowSignalSubmit
  | .reconcileWorkflowSignal _ => kindWorkflowSignalReconcile

def RequestKind.payload : RequestKind → Cst
  | .hello => jsonObject []
  | .submitWorkflowSignal command => encodeSubmit command
  | .reconcileWorkflowSignal signal => encodeReconcile signal

def RequestKind.version : RequestKind → UInt32
  | .hello => bootstrapEnvelopeVersion
  | _ => protocolVersion

def Request.cst (request : Request) : Cst := jsonStruct requestFields [some (jsonString protocolName),
  some (jsonNat request.kind.version.toNat), some (jsonString request.requestId), some (jsonString request.kind.name),
  some request.kind.payload]

def finishRequestFrame (frame : Text) : Except ProtocolError Text :=
  if maxRequestBytes < (utf8 frame).length then
    .error ⟨requestTooLarge, "request is ".toList ++ decimal (utf8 frame).length ++ " bytes; at most ".toList ++
      decimal maxRequestBytes ++ " allowed".toList⟩
  else .ok frame

def encodeRequest (request : Request) : Except ProtocolError Text :=
  if !validRequestId request.requestId then
    .error ⟨invalidEnvelope, "requestId must match ^[A-Za-z0-9][A-Za-z0-9._:-]\x7b0,127\x7d$".toList⟩
  else finishRequestFrame request.cst.text

/-! ## Responses -/

def validateSuccessResponseKind (response : Response) : Except ProtocolError Unit :=
  match response.body, response.kind with
  | .error _, _ => .ok ()
  | _, some kind => if registeredKind kind = none then .error (unregisteredKind kind) else .ok ()
  | _, none => .error unnamedKind

def invalidVersionContext : ProtocolError :=
  ⟨invalidEnvelope, "response version must name a valid selected version context".toList⟩

def inconsistentResponse : ProtocolError :=
  ⟨invalidEnvelope, "response kind, body, and selected version context are inconsistent".toList⟩

def ResponseVersion.validContext : ResponseVersion → Bool
  | .bootstrap version => version == bootstrapEnvelopeVersion
  | .acceptedOperation version => decide (1 ≤ version)

/-- The match on the version, the kind and the body of a response. -/
def checkConsistent (response : Response) : Except ProtocolError Unit :=
  match response.version, response.kind.bind registeredKind, response.body with
  | .bootstrap version, some .hello, .hello info =>
    if version = bootstrapEnvelopeVersion then info.validate.mapError fun message => ⟨invalidPayload, message⟩
    else .error inconsistentResponse
  | .acceptedOperation _, some .workflowSignalSubmit, .workflowSignal _ => .ok ()
  | .acceptedOperation _, some .workflowSignalReconcile, .workflowSignalReconciliation _ => .ok ()
  | .bootstrap version, _, .error _ =>
    if version = bootstrapEnvelopeVersion then .ok () else .error inconsistentResponse
  | .acceptedOperation _, _, .error _ => .ok ()
  | _, _, _ => .error inconsistentResponse

def ResponseBody.ok : ResponseBody → Bool
  | .error _ => false
  | _ => true

def ResponseBody.payload : ResponseBody → Option Cst
  | .hello info => some info.value
  | .workflowSignal result => some (encodeResult result)
  | .workflowSignalReconciliation result => some (encodeReconciliationResult result)
  | .error _ => none

def ErrorDto.cst (e : ErrorDto) : Cst := jsonStruct errorFields [some (jsonString e.code), some (jsonString e.message)]

def ResponseBody.errorDto : ResponseBody → Option ErrorDto
  | .error e => some ⟨e.code.value, e.message⟩
  | _ => none

def jsonNullable : Option Text → Cst
  | none => .null
  | some t => jsonString t

def Response.cst (response : Response) : Cst := jsonStruct responseFields [some (jsonString protocolName),
  some (jsonNat response.version.wire.toNat), some (jsonNullable response.requestId), some (jsonNullable response.kind),
  some (.bool response.body.ok), response.body.payload, response.body.errorDto.map ErrorDto.cst]

def encodeResponse (response : Response) : Except ProtocolError Text := do
  if response.requestId.any fun id => !validRequestId id then throw responseIdError
  if !response.version.validContext then throw invalidVersionContext
  validateSuccessResponseKind response
  checkConsistent response
  let frame := response.cst.text
  if maxFrameBytes < (utf8 frame).length then
    throw ⟨invalidEnvelope, "response is ".toList ++ decimal (utf8 frame).length ++ " bytes; at most ".toList ++
      decimal maxFrameBytes ++ " allowed".toList⟩
  return frame

/-! ## What is written can be read -/

theorem DigestDto.de_value (d : DigestDto) : DigestDto.de d.value = .ok d := by
  rw [DigestDto.de, DigestDto.value, deStruct_jsonMap true digestFields_nodup rfl (by simp [digestFields])]
  simp [deAlgorithm_wire, deString_jsonString, bind, Except.bind, pure, Except.pure]

theorem SignalDto.de_value [SerdeJson] (d : SignalDto) : SignalDto.de d.value = .ok d := by
  rw [SignalDto.de, SignalDto.value, deStruct_jsonMap true signalFields_nodup rfl (by simp [signalFields])]
  simp [deRole_wire, deKind_wire, deString_jsonString, DigestDto.de_value, optional_map (rejectNull_u32 _),
    optional_map (rejectNull_string _), bind, Except.bind, pure, Except.pure]

theorem expectedFields_nodup : (fieldNames expectedFields).Nodup := by decide
theorem submitFields_nodup : (fieldNames submitFields).Nodup := by decide
theorem reconcileFields_nodup : (fieldNames reconcileFields).Nodup := by decide
theorem resultFields_nodup : (fieldNames resultFields).Nodup := by decide
theorem packageFields_nodup : (fieldNames packageFields).Nodup := by decide
theorem helloFields_nodup : (fieldNames helloFields).Nodup := by decide
theorem errorFields_nodup : (fieldNames errorFields).Nodup := by decide
theorem responseFields_nodup : (fieldNames responseFields).Nodup := by decide

theorem ExpectedDto.de_value (d : ExpectedDto) : ExpectedDto.de d.value = .ok d := by
  rw [ExpectedDto.de, ExpectedDto.value, deStruct_jsonMap true expectedFields_nodup rfl (by simp [expectedFields])]
  simp [deRole_wire, deString_jsonString, DigestDto.de_value, bind, Except.bind, pure, Except.pure]

theorem fieldOption_map {α : Type} {code : ShortErrorCode} {name : Text} {new : Text → Except IdentityError α}
    {f : α → Text} (h : ∀ a, new (f a) = .ok a) (o : Option α) : fieldOption code name new (o.map f) = .ok o := by
  cases o with
  | none => rfl
  | some a => simp [fieldOption, h, field, Except.map]

theorem decodeSignal_dto (signal : WorkflowSignal) : decodeSignal (encodeSignal signal) = .ok signal := by
  have hid : ∀ {max : Nat} (x : Identifier max), Identifier.new max x.value = .ok x :=
    fun _ => Identifier.new_eq_ok.mpr rfl
  have hs : ∀ x : ShortErrorCode, ShortErrorCode.new x.value = .ok x := fun _ => ShortErrorCode.new_eq_ok.mpr rfl
  have hd : Digest.new signal.parts.candidateDigest.algorithm signal.parts.candidateDigest.hex =
      .ok signal.parts.candidateDigest := Digest.new_eq_ok.mpr ⟨rfl, rfl⟩
  have hv : WorkflowSignal.validate signal.parts = .ok signal := WorkflowSignal.validate_eq_ok.mpr rfl
  simp only [decodeSignal, encodeSignal, SignalParts.dto, EventId.new, WorkflowId.new, AssignmentId.new, AttemptId.new,
    ArtifactRevision.new, ArtifactRef.new, hid, hd, field, digest, fieldOption_map hid, fieldOption_map hs, bind, Except.bind]
  exact mapError_eq_ok.mpr hv

theorem ExpectedAssignment.assignment_dto (a : ExpectedAssignment) : a.dto.assignment = .ok a := by
  have hid : ∀ {max : Nat} (x : Identifier max), Identifier.new max x.value = .ok x :=
    fun _ => Identifier.new_eq_ok.mpr rfl
  have hd : Digest.new a.candidateDigest.algorithm a.candidateDigest.hex = .ok a.candidateDigest :=
    Digest.new_eq_ok.mpr ⟨rfl, rfl⟩
  simp only [ExpectedDto.assignment, ExpectedAssignment.dto, WorkflowId.new, AssignmentId.new, AttemptId.new,
    ArtifactRevision.new, hid, hd, field, digest, bind, Except.bind, pure, Except.pure]

theorem decodeSubmit_encodeSubmit [SerdeJson] (command : Command) : decodeSubmit (encodeSubmit command) = .ok command := by
  obtain ⟨signal, expected⟩ := command
  have hde : SubmitPayload.de (encodeSubmit (.submitSignal signal expected)) = .ok ⟨expected.dto, encodeSignal signal⟩ := by
    rw [SubmitPayload.de, encodeSubmit, deStruct_jsonMap true submitFields_nodup rfl (by simp [submitFields])]
    simp [ExpectedDto.de_value, SignalDto.de_value, bind, Except.bind, pure, Except.pure]
  rw [decodeSubmit_ok hde]
  simp only [ExpectedAssignment.assignment_dto, decodeSignal_dto]
  rfl

theorem decodeReconcile_encodeReconcile [SerdeJson] (signal : WorkflowSignal) :
    decodeReconcile (encodeReconcile signal) = .ok signal := by
  have hde : ReconcilePayload.de (encodeReconcile signal) = .ok (encodeSignal signal) := by
    rw [ReconcilePayload.de, encodeReconcile, deStruct_jsonMap true reconcileFields_nodup rfl (by simp [reconcileFields])]
    exact SignalDto.de_value _
  rw [decodeReconcile_ok hde, decodeSignal_dto]

theorem decodeResultWith_encode [SerdeJson] {δ : Type} {type : Text} {de : De δ} {wire : δ → Text} (h : ∀ x, de (jsonString (wire x)) = .ok x)
    (result : Result δ) : decodeResultWith type de (encodeResultWith wire result) = .ok result := by
  have hde : resultDto de (encodeResultWith wire result) = .ok (result.disposition, result.eventId.value) := by
    rw [resultDto, encodeResultWith, deStruct_jsonMap true resultFields_nodup rfl (by simp [resultFields])]
    simp [h, deString_jsonString, bind, Except.bind, pure, Except.pure]
  have hid : EventId.new result.eventId.value = .ok result.eventId := Identifier.new_eq_ok.mpr rfl
  simp only [decodeResultWith, hde, Except.mapError, field, hid, bind, Except.bind, pure, Except.pure]

theorem decodeResult_encodeResult [SerdeJson] (result : SignalResult) : decodeResult (encodeResult result) = .ok result := by
  refine decodeResultWith_encode (fun x => ?_) result
  cases x <;> simp [deEnum, deVariant, jsonString, strValue_jsonBody] <;> rfl

theorem decodeReconciliationResult_encode [SerdeJson] (result : ReconciliationResult) :
    decodeReconciliationResult (encodeReconciliationResult result) = .ok result := by
  refine decodeResultWith_encode (fun x => ?_) result
  cases x <;> simp [deEnum, deVariant, jsonString, strValue_jsonBody] <;> rfl

theorem HelloInfo.de_value (info : HelloInfo) : HelloInfo.de info.value = .ok info := by
  have hpackage : PackageInfo.de info.package.value = .ok info.package := by
    rw [PackageInfo.de, PackageInfo.value, deStruct_jsonMap true packageFields_nodup rfl (by simp [packageFields])]
    simp [deString_jsonString, bind, Except.bind, pure, Except.pure]
  rw [HelloInfo.de, HelloInfo.value, deStruct_jsonMap true helloFields_nodup rfl (by simp [helloFields])]
  simp [deU32_jsonNat, deVec_jsonArray deString_jsonString, hpackage, bind, Except.bind, pure, Except.pure]

theorem decodeHello_value [SerdeJson] {info : HelloInfo} (h : info.validate = .ok ()) : decodeHello info.value = .ok info := by
  simp only [decodeHello, HelloInfo.de_value, h, Except.mapError, bind, Except.bind, pure, Except.pure]

theorem ErrorDto.de_cst (e : ErrorDto) : ErrorDto.de e.cst = .ok e := by
  rw [ErrorDto.de, ErrorDto.cst, deStruct_jsonStruct true errorFields_nodup rfl (by simp [errorFields])]
  simp [deString_jsonString, bind, Except.bind, pure, Except.pure]

/-! ## What is written passes the gates -/

theorem DigestDto.written (d : DigestDto) : d.value.Written 1 := by
  apply written_map digestFields_nodup
  intro v hv
  simp only [List.mem_cons, Option.some.injEq, List.not_mem_nil, or_false] at hv
  rcases hv with rfl | rfl <;> exact written_string _

/-- The values of a signal, with its digest written in any way. -/
theorem SignalDto.written_values (d : SignalDto) {c : Cst} (hc : c.Written 1) {v : Cst}
    (hv : some v ∈ [some (jsonString d.eventId), some (jsonString d.workflowId), some (jsonString d.assignmentId),
      some (jsonString d.attemptId), some (jsonString d.role.wire), some (jsonString d.artifactRevision), some c,
      some (jsonString d.kind.wire), d.findingCount.map fun n => jsonNat n.toNat, d.artifactRef.map jsonString,
      d.shortErrorCode.map jsonString]) : v.Written 1 := by
  simp only [List.mem_cons, Option.some.injEq, List.not_mem_nil, or_false, eq_comm (a := some v),
    Option.map_eq_some_iff] at hv
  have string : ∀ t : Text, (jsonString t).Written 1 := fun t => (written_string t).mono (Nat.zero_le 1)
  rcases hv with rfl | rfl | rfl | rfl | rfl | rfl | rfl | rfl | ⟨n, -, rfl⟩ | ⟨t, -, rfl⟩ | ⟨t, -, rfl⟩
  · exact string _
  · exact string _
  · exact string _
  · exact string _
  · exact string _
  · exact string _
  · exact hc
  · exact string _
  · exact (written_nat n).mono (Nat.zero_le 1)
  · exact string _
  · exact string _

theorem SignalDto.written (d : SignalDto) : d.value.Written 2 :=
  written_map signalFields_nodup fun _ hv => d.written_values d.candidateDigest.written hv

theorem ExpectedDto.written_values (d : ExpectedDto) {c : Cst} (hc : c.Written 1) {v : Cst}
    (hv : some v ∈ [some (jsonString d.workflowId), some (jsonString d.assignmentId), some (jsonString d.attemptId),
      some (jsonString d.role.wire), some (jsonString d.artifactRevision), some c]) : v.Written 1 := by
  simp only [List.mem_cons, Option.some.injEq, List.not_mem_nil, or_false] at hv
  have string : ∀ t : Text, (jsonString t).Written 1 := fun t => (written_string t).mono (Nat.zero_le 1)
  rcases hv with rfl | rfl | rfl | rfl | rfl | rfl
  · exact string _
  · exact string _
  · exact string _
  · exact string _
  · exact string _
  · exact hc

theorem ExpectedDto.written (d : ExpectedDto) : d.value.Written 2 :=
  written_map expectedFields_nodup fun _ hv => d.written_values d.candidateDigest.written hv

theorem RequestKind.written (k : RequestKind) : k.payload.Written 3 := by
  cases k with
  | hello =>
    have h : (jsonObject []).Written 1 := written_object List.nodup_nil fun m hm => absurd hm List.not_mem_nil
    exact h.mono (by omega)
  | submitWorkflowSignal command =>
    obtain ⟨signal, expected⟩ := command
    apply written_map submitFields_nodup
    intro v hv
    simp only [List.mem_cons, Option.some.injEq, List.not_mem_nil, or_false] at hv
    rcases hv with rfl | rfl
    · exact expected.dto.written
    · exact (encodeSignal signal).written
  | reconcileWorkflowSignal signal =>
    apply written_map reconcileFields_nodup
    intro v hv
    simp only [List.mem_cons, Option.some.injEq, List.not_mem_nil, or_false] at hv
    subst hv
    exact (encodeSignal signal).written

end Aizign
