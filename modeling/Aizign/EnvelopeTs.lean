import Aizign.EnvelopeRoundTrip
import Aizign.SignalTs

/-!
# Requests of the TypeScript package

`encodeRequest`: a source value is checked and copied into a fresh graph, which
`JSON.stringify` writes in the order of its members. The core reads it as the
same request.
-/

namespace Aizign

open ErrorCodes

/-! ## The wire graph -/

def TsDigest.graph (d : TsDigest) : Cst :=
  jsonStruct digestFields [some (jsString (codes d.algorithm.wire)), some (jsString d.hex)]

def TsExpected.graph (e : TsExpected) : Cst := jsonStruct expectedFields [some (jsString e.workflowId),
  some (jsString e.assignmentId), some (jsString e.attemptId), some (jsString (codes e.role.wire)),
  some (jsString e.artifactRevision), some e.candidateDigest.graph]

def TsSignal.graph (s : TsSignal) : Cst := jsonStruct signalFields [some (jsString s.eventId), some (jsString s.workflowId),
  some (jsString s.assignmentId), some (jsString s.attemptId), some (jsString (codes s.role.wire)),
  some (jsString s.artifactRevision), some s.candidateDigest.graph, some (jsString (codes s.kind.wire)),
  s.findingCount.map fun n => jsonNat n.toNat, s.artifactRef.map jsString, s.shortErrorCode.map jsString]

def TsSubmit.graph (payload : TsSubmit) : Cst := jsonStruct submitFields [some payload.expected.graph, some payload.signal.graph]

def TsSignal.reconcileGraph (s : TsSignal) : Cst := jsonStruct reconcileFields [some s.graph]

/-! ## Encoding -/

def envelopeFail (message : Units) : TsError := ⟨invalidEnvelope, message⟩

/-- `isRequestId`, with the string. -/
def requestId? : JsValue → Option Units
  | .string s => if identifierPattern s then some s else none
  | _ => none

def requestIdMessage : Text := "requestId must match ^[A-Za-z0-9][A-Za-z0-9._:-]\x7b0,127\x7d$".toList

/-- The frame of a wire graph, which nothing of the source's prototypes can change. -/
def stringifyWireGraph (root : Cst) : Except TsError Text :=
  let frame := root.text
  if frame.head? ≠ some '\x7b' ∨ frame.getLast? ≠ some '\x7d' ∨ '\n' ∈ frame ∨ '\r' ∈ frame then
    .error (envelopeFail (codes "encoder produced an invalid frame".toList))
  else .ok frame

def tsFinishRequestFrame (frame : Text) : Except TsError Text :=
  if maxRequestBytes < (utf8 frame).length then
    .error ⟨requestTooLarge, codes ("request is ".toList ++ decimal (utf8 frame).length ++ " bytes; at most ".toList ++
      decimal maxRequestBytes ++ " allowed".toList)⟩
  else .ok frame

def payloadGraph (request : JsValue) (ps : Properties JsValue) (kind : Units) : Except TsError Cst := do
  if kind = codes kindHello then
    let _ ← assertClosedObject envelopeFail request ["requestId".toList, "kind".toList] "request".toList
    return jsonObject []
  else if kind = codes kindWorkflowSignalSubmit then
    let source ← ownDataValue envelopeFail ps "payload".toList "request".toList
    return (← buildWorkflowSignalSubmit source).graph
  else if kind = codes kindWorkflowSignalReconcile then
    let source ← ownDataValue envelopeFail ps "payload".toList "request".toList
    return (← buildWorkflowSignalReconcile source).reconcileGraph
  else throw ⟨unknownKind, codes "kind \"".toList ++ kind ++ codes "\" is not registered".toList⟩

def tsEncodeRequest (request : JsValue) : Except TsError Text := do
  let ps ← assertClosedObject envelopeFail request ["requestId".toList, "kind".toList, "payload".toList] "request".toList
  let requestIdValue ← ownDataValue envelopeFail ps "requestId".toList "request".toList
  let kindValue ← ownDataValue envelopeFail ps "kind".toList "request".toList
  let some requestId := requestId? requestIdValue | throw (envelopeFail (codes requestIdMessage))
  let .string kind := kindValue | throw (envelopeFail (codes "kind must be a string".toList))
  let payload ← payloadGraph request ps kind
  let version := if kind = codes kindHello then bootstrapEnvelopeVersion else protocolVersion
  let frame ← stringifyWireGraph (jsonStruct requestFields [some (jsString (codes protocolName)),
    some (jsonNat version.toNat), some (jsString requestId), some (jsString kind), some payload])
  tsFinishRequestFrame frame

/-! ## The graph of a valid payload -/

theorem jsString_identifier {max : Nat} (x : Identifier max) : jsString (codes x.value) = jsonString x.value :=
  jsString_codes (isAscii_of_plain x.plain)

theorem jsString_errorCode (x : ShortErrorCode) : jsString (codes x.value) = jsonString x.value :=
  jsString_codes (isAscii_of_plain x.plain)

theorem Digest.graph_ts (d : Digest) : d.ts.graph = DigestDto.cst ⟨d.algorithm, d.hex⟩ := by
  have halgorithm : jsString (codes d.algorithm.wire) = jsonString d.algorithm.wire :=
    jsString_codes (by cases d.algorithm; decide)
  rw [TsDigest.graph, Digest.ts, halgorithm, jsString_codes (isAscii_of_plain d.plain)]
  rfl

theorem jsString_role (r : Role) : jsString (codes r.wire) = jsonString r.wire := jsString_codes (by cases r <;> decide)

theorem jsString_kind (k : SignalKind) : jsString (codes k.wire) = jsonString k.wire := jsString_codes (by cases k <;> decide)

theorem SignalParts.graph_ts (p : SignalParts) : p.ts.graph = p.dto.cst := by
  have href : (p.artifactRef.map fun r => codes r.value).map jsString = (p.artifactRef.map fun r => r.value).map jsonString := by
    cases p.artifactRef with
    | none => rfl
    | some r => exact congrArg some (jsString_identifier r)
  have hcode : (p.shortErrorCode.map fun c => codes c.value).map jsString =
      (p.shortErrorCode.map fun c => c.value).map jsonString := by
    cases p.shortErrorCode with
    | none => rfl
    | some c => exact congrArg some (jsString_errorCode c)
  rw [TsSignal.graph, SignalParts.ts]
  simp only [jsString_identifier, jsString_role, jsString_kind, Digest.graph_ts, href, hcode]
  rfl

def ExpectedDto.cst (d : ExpectedDto) : Cst := jsonStruct expectedFields [some (jsonString d.workflowId),
  some (jsonString d.assignmentId), some (jsonString d.attemptId), some (jsonString d.role.wire),
  some (jsonString d.artifactRevision), some d.candidateDigest.cst]

theorem ExpectedAssignment.graph_ts (a : ExpectedAssignment) : a.ts.graph = a.dto.cst := by
  rw [TsExpected.graph, ExpectedAssignment.ts]
  simp only [jsString_identifier, jsString_role, Digest.graph_ts]
  rfl

theorem ExpectedDto.de_cst (d : ExpectedDto) : ExpectedDto.de d.cst = .ok d := by
  rw [ExpectedDto.de, ExpectedDto.cst, deStruct_jsonStruct true expectedFields_nodup rfl (by simp [expectedFields])]
  simp [deRole_wire, deString_jsonString, DigestDto.de_cst, bind, Except.bind, pure, Except.pure]

theorem DigestDto.cst_written (d : DigestDto) : d.cst.Written 1 := by
  rw [← DigestDto.value_eq]
  exact d.written

theorem SignalDto.cst_written (d : SignalDto) : d.cst.Written 2 :=
  written_struct signalFields_nodup fun _ hv => d.written_values d.candidateDigest.cst_written hv

theorem ExpectedDto.cst_written (d : ExpectedDto) : d.cst.Written 2 :=
  written_struct expectedFields_nodup fun _ hv => d.written_values d.candidateDigest.cst_written hv

theorem SignalParts.short_cst (p : SignalParts) : p.dto.cst.Short 1500 := ⟨p.ascii, p.length_cst⟩

theorem ExpectedAssignment.short_cst (a : ExpectedAssignment) : a.dto.cst.Short 1000 :=
  (short_struct (n := 130) (by decide) fun v hv => a.short_values hv).mono (by decide)

/-- The payload a request of the package carries, as the core reads it. -/
theorem carries_submit [SerdeJson] (id : Text) (signal : WorkflowSignal) (expected : ExpectedAssignment) :
    Request.Carries ⟨id, .submitWorkflowSignal (.submitSignal signal expected)⟩
      (TsSubmit.graph ⟨expected.ts, signal.parts.ts⟩) := by
  have hgraph : TsSubmit.graph ⟨expected.ts, signal.parts.ts⟩ =
      jsonStruct submitFields [some expected.dto.cst, some (encodeSignal signal).cst] := by
    rw [TsSubmit.graph, expected.graph_ts, signal.parts.graph_ts]
    rfl
  rw [hgraph]
  refine ⟨?_, ?_, ?_, ?_⟩
  · apply written_struct submitFields_nodup
    intro v hv
    simp only [List.mem_cons, Option.some.injEq, List.not_mem_nil, or_false] at hv
    rcases hv with rfl | rfl
    · exact expected.dto.cst_written
    · exact (encodeSignal signal).cst_written
  · refine (short_struct (n := 1500) (by decide) fun v hv => ?_).mono (by decide)
    simp only [List.mem_cons, Option.some.injEq, List.not_mem_nil, or_false] at hv
    rcases hv with rfl | rfl
    · exact expected.short_cst.mono (by decide)
    · exact signal.parts.short_cst
  · rw [jsonStruct, members_jsonObject]
    rfl
  · have hde : SubmitPayload.de (jsonStruct submitFields [some expected.dto.cst, some (encodeSignal signal).cst]) =
        .ok ⟨expected.dto, encodeSignal signal⟩ := by
      rw [SubmitPayload.de, deStruct_jsonStruct true submitFields_nodup rfl (by simp [submitFields])]
      simp [ExpectedDto.de_cst, SignalDto.de_cst, bind, Except.bind, pure, Except.pure]
    change decodeSubmit _ = _
    rw [decodeSubmit_ok hde]
    simp only [ExpectedAssignment.assignment_dto, decodeSignal_dto]
    rfl

theorem ReconcilePayload.de_struct [SerdeJson] (c : Cst) : ReconcilePayload.de (jsonStruct reconcileFields [some c]) = SignalDto.de c := by
  rw [ReconcilePayload.de, deStruct_jsonStruct true reconcileFields_nodup rfl (by simp [reconcileFields])]
  rfl

theorem carries_reconcile [SerdeJson] (id : Text) (signal : WorkflowSignal) :
    Request.Carries ⟨id, .reconcileWorkflowSignal signal⟩ signal.parts.ts.reconcileGraph := by
  have hgraph : signal.parts.ts.reconcileGraph = jsonStruct reconcileFields [some (encodeSignal signal).cst] := by
    rw [TsSignal.reconcileGraph, signal.parts.graph_ts]
    rfl
  rw [hgraph]
  refine ⟨?_, ?_, ?_, ?_⟩
  · apply written_struct reconcileFields_nodup
    intro v hv
    simp only [List.mem_cons, Option.some.injEq, List.not_mem_nil, or_false] at hv
    subst hv
    exact (encodeSignal signal).cst_written
  · refine (short_struct (n := 1500) (by decide) fun v hv => ?_).mono (by decide)
    simp only [List.mem_cons, Option.some.injEq, List.not_mem_nil, or_false] at hv
    subst hv
    exact signal.parts.short_cst
  · rw [jsonStruct, members_jsonObject]
    rfl
  · have hde : ReconcilePayload.de (jsonStruct reconcileFields [some (encodeSignal signal).cst]) = .ok (encodeSignal signal) := by
      rw [ReconcilePayload.de_struct, SignalDto.de_cst]
    exact (decodeReconcile_ok hde).trans (decodeSignal_dto signal)

/-! ## The core reads what the package encodes -/

def RequestKind.ReadFrom (v : JsValue) : RequestKind → Prop
  | .hello => v.own "payload".toList = none
  | .submitWorkflowSignal (.submitSignal signal expected) => ∃ payload, v.own "payload".toList = some payload ∧
      (∃ ev, payload.own "expected".toList = some ev ∧ expected.ts.ReadFrom ev) ∧
      ∃ sv, payload.own "signal".toList = some sv ∧ signal.parts.ts.ReadFrom sv
  | .reconcileWorkflowSignal signal => ∃ payload, v.own "payload".toList = some payload ∧
      ∃ sv, payload.own "signal".toList = some sv ∧ signal.parts.ts.ReadFrom sv

structure Request.ReadFrom (r : Request) (v : JsValue) : Prop where
  requestId : v.own "requestId".toList = some (.string (codes r.requestId))
  kind : v.own "kind".toList = some (.string (codes r.kind.name))
  payload : r.kind.ReadFrom v

theorem assertClosedObject_ok {fail : Units → TsError} {v : JsValue} {allowed : List Text} {path : Text}
    {ps : Properties JsValue} (h : assertClosedObject fail v allowed path = .ok ps) :
    plainObject? v = some ps ∧ checkKeys fail allowed path ps = .ok () := by
  unfold assertClosedObject at h
  cases hv : plainObject? v with
  | none =>
    rw [hv] at h
    cases h
  | some qs =>
    simp only [hv] at h
    cases hk : checkKeys fail allowed path qs with
    | error e =>
      rw [hk] at h
      cases h
    | ok u =>
      rw [hk] at h
      obtain rfl : qs = ps := Except.ok.inj h
      exact ⟨rfl, hk⟩

/-- A closed object has no key that is not allowed. -/
theorem own_of_closed {fail : Units → TsError} {allowed : List Text} {path : Text} {ps : Properties JsValue}
    (h : checkKeys fail allowed path ps = .ok ()) {key : Text} (hk : codes key ∉ allowed.map codes) : ownValue ps key = none := by
  have hnone : ownProperty ps (.string (codes key)) = none := by
    induction ps with
    | nil => rfl
    | cons p ps ih =>
      obtain ⟨k, property⟩ := p
      cases k with
      | symbol id => cases h
      | string name =>
        unfold checkKeys at h
        by_cases hname : name ∈ allowed.map codes
        · rw [if_neg (not_not.mpr hname)] at h
          have hne : name ≠ codes key := fun he => hk (he ▸ hname)
          cases property with
          | accessor => cases h
          | data value enumerable =>
            rw [ownProperty, List.find?_cons]
            simp only [PropertyKey.string.injEq, hne, decide_false]
            exact ih h
        · rw [if_pos hname] at h
          cases h
  rw [ownValue, hnone, Option.bind_none]

theorem requestId?_ok {v : JsValue} {u : Units} (h : requestId? v = some u) :
    v = .string u ∧ ∃ id : Text, u = codes id ∧ validRequestId id = true := by
  unfold requestId? at h
  split at h
  · rename_i s
    split at h
    · rename_i hs
      obtain rfl := Option.some.inj h
      obtain ⟨x, hx⟩ := identifierPattern_iff.mp hs
      exact ⟨rfl, x.value, hx, validRequestId_iff.mpr x.ok⟩
    · cases h
  · cases h

/-- The payload of a source the package accepts is that of a request of the core. -/
theorem payloadGraph_ok [SerdeJson] {v : JsValue} {ps : Properties JsValue} (hv : plainObject? v = some ps) {kind : Units} {payload : Cst}
    (h : payloadGraph v ps kind = .ok payload) (id : Text) :
    ∃ k : RequestKind, kind = codes k.name ∧ Request.Carries ⟨id, k⟩ payload ∧ k.ReadFrom v := by
  unfold payloadGraph at h
  split at h
  · rename_i hkind
    simp only [bind_eq_ok, pure, Except.pure] at h
    obtain ⟨qs, hq, h⟩ := h
    obtain rfl := Except.ok.inj h
    obtain ⟨hplain, hclosed⟩ := assertClosedObject_ok hq
    refine ⟨.hello, hkind, Request.carries ⟨id, .hello⟩, ?_⟩
    exact (own_of_plain hplain _).trans (own_of_closed hclosed (by decide))
  · split at h
    · rename_i hkind
      simp only [bind_eq_ok, pure, Except.pure, ownDataValue_eq_ok] at h
      obtain ⟨source, hs, built, hb, h⟩ := h
      obtain rfl := Except.ok.inj h
      obtain ⟨signal, expected, rfl, hexpected, hsignal⟩ := buildSubmit_ok hb
      exact ⟨.submitWorkflowSignal (.submitSignal signal expected), hkind, carries_submit id signal expected, source,
        (own_of_plain hv _).trans hs, hexpected, hsignal⟩
    · split at h
      · rename_i hkind
        simp only [bind_eq_ok, pure, Except.pure, ownDataValue_eq_ok] at h
        obtain ⟨source, hs, built, hb, h⟩ := h
        obtain rfl := Except.ok.inj h
        obtain ⟨signal, rfl, hsignal⟩ := buildReconcile_ok hb
        exact ⟨.reconcileWorkflowSignal signal, hkind, carries_reconcile id signal, source,
          (own_of_plain hv _).trans hs, hsignal⟩
      · cases h

/-- The version the package writes is that of the kind. -/
theorem wireVersion_eq (k : RequestKind) :
    (if codes k.name = codes kindHello then bootstrapEnvelopeVersion else protocolVersion) = k.version := by
  have h : codes kindWorkflowSignalSubmit ≠ codes kindHello ∧ codes kindWorkflowSignalReconcile ≠ codes kindHello := by decide
  cases k with
  | hello => rfl
  | submitWorkflowSignal c => rw [RequestKind.name, if_neg h.1]; rfl
  | reconcileWorkflowSignal s => rw [RequestKind.name, if_neg h.2]; rfl

theorem stringifyWireGraph_ok {root : Cst} {frame : Text} (h : stringifyWireGraph root = .ok frame) : frame = root.text := by
  unfold stringifyWireGraph at h
  simp only at h
  split at h
  · cases h
  · exact (Except.ok.inj h).symm

theorem jsonMembers_closed (m : Text × Cst) (ms : List (Text × Cst)) : ∃ t, (jsonMembers m ms).text = t ++ ['\x7d'] := by
  induction ms generalizing m with
  | nil => exact ⟨strText (jsonBody m.1) ++ ':' :: m.2.text, by simp [jsonMembers, Members.text, Ws.nil]⟩
  | cons m' ms ih =>
    obtain ⟨t, ht⟩ := ih m'
    refine ⟨strText (jsonBody m.1) ++ ':' :: (m.2.text ++ ',' :: t), ?_⟩
    rw [jsonMembers, Members.text, ht]
    simp [Ws.nil]

/-- Whatever is written as an object is a frame. -/
theorem stringifyWireGraph_object {m : Text × Cst} {ms : List (Text × Cst)} {n : Nat} (h : (jsonObject (m :: ms)).Written n) :
    stringifyWireGraph (jsonObject (m :: ms)) = .ok (jsonObject (m :: ms)).text := by
  have hhead : (jsonObject (m :: ms)).text.head? = some '\x7b' := rfl
  have hlast : (jsonObject (m :: ms)).text.getLast? = some '\x7d' := by
    obtain ⟨t, ht⟩ := jsonMembers_closed m ms
    rw [jsonObject, Cst.text, ht, ← List.cons_append, List.getLast?_append]
    rfl
  unfold stringifyWireGraph
  simp only [hhead, hlast, ne_eq, not_true_eq_false, false_or, h.printable.no_newline, h.printable.no_return, if_false]

/-- The graph of a request is the frame the core would write, with its payload in the order of the source. -/
theorem requestGraph_eq {id : Text} (hvalid : validRequestId id = true) (k : RequestKind) (payload : Cst) :
    jsonStruct requestFields [some (jsString (codes protocolName)),
      some (jsonNat (if codes k.name = codes kindHello then bootstrapEnvelopeVersion else protocolVersion).toNat),
      some (jsString (codes id)), some (jsString (codes k.name)), some payload] = (⟨id, k⟩ : Request).cstWith payload := by
  have hname : jsString (codes k.name) = jsonString k.name := jsString_codes (by cases k <;> rfl)
  have hidentifier : jsString (codes id) = jsonString id := jsString_identifier ⟨id, validRequestId_iff.mp hvalid⟩
  rw [wireVersion_eq, hname, hidentifier, jsString_codes (by decide)]
  rfl

/-- What the package encodes is read by the core as the request of the source. -/
theorem tsEncodeRequest_decodes [SerdeJson] {v : JsValue} {frame : Text} (h : tsEncodeRequest v = .ok frame) :
    ∃ r : Request, decodeRequest (utf8 frame) = .ok r ∧ r.ReadFrom v := by
  unfold tsEncodeRequest at h
  simp only [bind_eq_ok, ownDataValue_eq_ok] at h
  obtain ⟨ps, hps, idv, hidv, kv, hkv, h⟩ := h
  obtain ⟨hplain, -⟩ := assertClosedObject_ok hps
  cases hid : requestId? idv with
  | none =>
    rw [hid] at h
    cases h
  | some u =>
    simp only [hid] at h
    obtain ⟨rfl, id, rfl, hvalid⟩ := requestId?_ok hid
    cases kv with
    | string kind =>
      simp only [bind_eq_ok] at h
      obtain ⟨payload, hpayload, text, htext, h⟩ := h
      obtain ⟨k, rfl, hcarries, hread⟩ := payloadGraph_ok hplain hpayload id
      have hframe : frame = ((⟨id, k⟩ : Request).cstWith payload).text := by
        rw [tsFinishRequestFrame] at h
        split at h
        · cases h
        · rw [← Except.ok.inj h, stringifyWireGraph_ok htext, requestGraph_eq hvalid]
      refine ⟨⟨id, k⟩, ?_, ⟨(own_of_plain hplain _).trans hidv, (own_of_plain hplain _).trans hkv, hread⟩⟩
      rw [hframe]
      exact decodeRequest_cst hcarries hvalid
    | _ => cases h

/-- A source whose payload was built is encoded. -/
theorem tsEncodeRequest_ok [SerdeJson] {v : JsValue} {ps : Properties JsValue} {id : Text} {k : RequestKind} {payload : Cst}
    (hclosed : assertClosedObject envelopeFail v ["requestId".toList, "kind".toList, "payload".toList] "request".toList = .ok ps)
    (hid : ownValue ps "requestId".toList = some (.string (codes id))) (hvalid : validRequestId id = true)
    (hkind : ownValue ps "kind".toList = some (.string (codes k.name))) (hp : payloadGraph v ps (codes k.name) = .ok payload)
    (hc : Request.Carries ⟨id, k⟩ payload) : tsEncodeRequest v = .ok ((⟨id, k⟩ : Request).cstWith payload).text := by
  have hread : requestId? (.string (codes id)) = some (codes id) := by
    rw [requestId?, identifierPattern_iff.mpr ⟨⟨id, validRequestId_iff.mp hvalid⟩, rfl⟩]
    rfl
  have hstring : stringifyWireGraph ((⟨id, k⟩ : Request).cstWith payload) =
      .ok ((⟨id, k⟩ : Request).cstWith payload).text := by
    have hw := hc.frame_written
    rw [Request.cst_eq] at hw ⊢
    exact stringifyWireGraph_object hw
  have hsize : ¬maxRequestBytes < (utf8 ((⟨id, k⟩ : Request).cstWith payload).text).length :=
    Nat.not_lt.mpr (hc.frame_short hvalid).utf8_length
  unfold tsEncodeRequest
  simp only [hclosed, ownDataValue_eq_ok.mpr hid, ownDataValue_eq_ok.mpr hkind, hread, hp, bind, Except.bind,
    requestGraph_eq hvalid, hstring, tsFinishRequestFrame, if_neg hsize]

end Aizign
