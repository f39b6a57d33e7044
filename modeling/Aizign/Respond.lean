import Aizign.EnvelopeRoundTrip

/-!
# Answers to rejected requests

`respond` of the command line. A request that does not decode is answered with
the code, the axis and the correlation its decoder recovered; when an echo of
them would not fit a frame, the kind is left out and the message is a fixed one.
-/

namespace Aizign

open ErrorCodes

/-! ## The response -/

def unsafeEcho : Text := "request rejected; recovered correlation was not safe to echo".toList

def DecodeFailure.echo (failure : DecodeFailure) : Response :=
  ⟨failure.responseVersion, failure.requestId, failure.kind, .error failure.error⟩

def rejected (failure : DecodeFailure) : Response :=
  match encodeResponse failure.echo with
  | .ok _ => failure.echo
  | .error _ => { failure.echo with kind := none, body := .error ⟨failure.error.code, unsafeEcho⟩ }

def timedOut : Response :=
  ⟨.currentBootstrap, none, none, .error ⟨handlerTimeout, "request timed out before dispatch".toList⟩⟩

/-- `respond`, with the dispatch gate's answer and the execution of a decoded request as parameters. -/
def respond [SerdeJson] (claimDispatch : Bool) (execute : RequestKind → ResponseBody) (frame : Bytes) : Except Text Response :=
  match decodeRequest frame with
  | .error (.panic message) => .error message
  | .error (.failure failure) => .ok (rejected failure)
  | .ok request =>
    let version := match request.kind with
      | .hello => ResponseVersion.currentBootstrap
      | _ => .operation
    if !claimDispatch then .ok timedOut
    else .ok ⟨version, some request.requestId, some request.kind.name, execute request.kind⟩

/-! ## What a decoder can fail with -/

/-- The codes of a failure after the version axis is known. -/
def operationCodes : List ShortErrorCode := [invalidEnvelope, unknownKind, invalidPayload, invalidExpectation, invalidSignal]

/-- A failure that can be addressed: its request id is well formed, its axis is one of this version, and a code that is
always on the bootstrap axis is there. -/
structure DecodeFailure.Addressed (f : DecodeFailure) : Prop where
  requestId : ∀ id, f.requestId = some id → validRequestId id = true
  axis : f.responseVersion = .currentBootstrap ∨ f.responseVersion = .operation
  code : f.responseVersion = .currentBootstrap ∨ f.error.code ∈ operationCodes

theorem Recovered.requestId_valid (scan : Scan) (axis : ResponseVersion) (id : Text)
    (h : (scan.recovered axis).requestId = some id) : validRequestId id = true := by
  simp only [Scan.recovered] at h
  split at h
  · exact (Option.filter_eq_some_iff.mp h).2
  · cases h

theorem bind_eq_error {ε α β : Type} {x : Except ε α} {f : α → Except ε β} {e : ε} :
    (x >>= f) = .error e ↔ x = .error e ∨ ∃ a, x = .ok a ∧ f a = .error e := by
  cases x <;> simp [bind, Except.bind]

theorem mapError_eq_error {ε δ α : Type} {x : Except ε α} {f : ε → δ} {e : δ} :
    x.mapError f = .error e ↔ ∃ e', x = .error e' ∧ f e' = e := by
  cases x <;> simp [Except.mapError]

theorem probe_failure {frame : Bytes} {f : DecodeFailure} (h : probe frame = .error f) :
    (∀ id, f.requestId = some id → validRequestId id = true) ∧ f.responseVersion = .currentBootstrap := by
  have hun : ∀ e : ProtocolError, unaddressed .currentBootstrap e = f →
      (∀ id, f.requestId = some id → validRequestId id = true) ∧ f.responseVersion = .currentBootstrap := by
    rintro e rfl
    exact ⟨nofun, rfl⟩
  have hrec : ∀ (scan : Scan) (e : ProtocolError), (scan.recovered .currentBootstrap).fail e = f →
      (∀ id, f.requestId = some id → validRequestId id = true) ∧ f.responseVersion = .currentBootstrap := by
    rintro scan e rfl
    exact ⟨fun id hid => Recovered.requestId_valid scan .currentBootstrap id hid, rfl⟩
  unfold probe at h
  obtain h | ⟨text, -, h⟩ := bind_eq_error.mp h
  · obtain ⟨e, -, he⟩ := mapError_eq_error.mp h
    exact hun e he
  · obtain h | ⟨scan, -, h⟩ := bind_eq_error.mp h
    · obtain ⟨e, -, he⟩ := mapError_eq_error.mp h
      exact hun e he
    · obtain h | ⟨version, -, h⟩ := bind_eq_error.mp h
      · obtain ⟨e, -, he⟩ := mapError_eq_error.mp h
        exact hrec scan e he
      · split at h
        · cases h
        · split at h
          · split at h <;> cases h
          · exact hrec scan _ (Except.error.inj h)

theorem probe_recovered {frame : Bytes} {r : Recovered} (h : probe frame = .ok r) :
    (∀ id, r.requestId = some id → validRequestId id = true) ∧
      (r.responseVersion = .currentBootstrap ∨ r.responseVersion = .operation) := by
  simp only [probe, bind_eq_ok, mapError_eq_ok] at h
  obtain ⟨text, -, scan, -, version, -, h⟩ := h
  split at h
  · obtain rfl := Except.ok.inj h
    exact ⟨Recovered.requestId_valid scan _, .inl rfl⟩
  · rename_i kind hk
    split at h
    · split at h
      · obtain rfl := Except.ok.inj h
        exact ⟨Recovered.requestId_valid scan _, .inl rfl⟩
      · rename_i hne
        obtain rfl := Except.ok.inj h
        refine ⟨Recovered.requestId_valid scan _, .inr ?_⟩
        rw [acceptedVersion, if_neg hne]
        rfl
    · cases h

theorem boundedPayload_code {α : Type} {outOfRange : Bool} {decode : Cst → Except ProtocolError α} {payload : Cst}
    (h : ∀ e, decode payload = .error e → e.code ∈ operationCodes) {e : ProtocolError}
    (he : boundedPayload outOfRange decode payload = .error e) : e.code ∈ operationCodes := by
  rw [boundedPayload] at he
  split at he
  · cases he
    decide
  · exact h e he

theorem decodeSubmit_code [SerdeJson] {payload : Cst} {e : ProtocolError} (h : decodeSubmit payload = .error e) :
    e.code ∈ operationCodes := by
  unfold decodeSubmit at h
  obtain h | ⟨dto, -, h⟩ := bind_eq_error.mp h
  · obtain ⟨x, -, rfl⟩ := mapError_eq_error.mp h
    simp [operationCodes, payloadError]
  · obtain h | ⟨expected, -, h⟩ := bind_eq_error.mp h
    · rw [coded_assignment _ e h]
      decide
    · obtain h | ⟨signal, -, h⟩ := bind_eq_error.mp h
      · rw [coded_decodeSignal _ e h]
        decide
      · cases h

theorem decodeReconcile_code [SerdeJson] {payload : Cst} {e : ProtocolError} (h : decodeReconcile payload = .error e) :
    e.code ∈ operationCodes := by
  unfold decodeReconcile at h
  obtain h | ⟨dto, -, h⟩ := bind_eq_error.mp h
  · obtain ⟨x, -, rfl⟩ := mapError_eq_error.mp h
    simp [operationCodes, payloadError]
  · rw [coded_decodeSignal _ e h]
    decide

/-- What the match on the kind fails with, where it does not panic. -/
theorem requestKind_failure [SerdeJson] {r : Recovered} {s : RequestEnvelope} {f : DecodeFailure}
    (h : requestKind r s = .error (.failure f)) : ∃ e, f = r.fail e ∧ e.code ∈ operationCodes := by
  have hmap : ∀ {α β : Type} {x : Except ProtocolError α} {wrap : α → β}, (∀ e, x = .error e → e.code ∈ operationCodes) →
      (x.map wrap).mapError (fun e => Stop.failure (r.fail e)) = .error (.failure f) →
      ∃ e, f = r.fail e ∧ e.code ∈ operationCodes := by
    intro α β x wrap hx hmap
    obtain ⟨e, he, hf⟩ := mapError_eq_error.mp hmap
    cases x with
    | ok a => cases he
    | error e' =>
      cases he
      exact ⟨e, (Stop.failure.inj hf).symm, hx e rfl⟩
  unfold requestKind at h
  simp only at h
  split at h
  · split at h
    · cases h
    · cases h
      exact ⟨helloPayloadError, rfl, by decide⟩
  · exact hmap (fun e he => boundedPayload_code (fun _ => decodeSubmit_code) he) h
  · exact hmap (fun e he => boundedPayload_code (fun _ => decodeReconcile_code) he) h
  · cases h

theorem decodeRequest_failure [SerdeJson] {frame : Bytes} {f : DecodeFailure} (h : decodeRequest frame = .error (.failure f)) :
    probe frame = .error f ∨ ∃ r e, probe frame = .ok r ∧ f = r.fail e ∧ e.code ∈ operationCodes := by
  cases hr : probe frame with
  | error f' =>
    rw [decodeRequest, hr] at h
    cases h
    exact .inl rfl
  | ok r =>
    refine .inr ?_
    cases hs : RequestEnvelope.fromStr r.envelopeText with
    | error e =>
      rw [decodeRequest, hr] at h
      change (Except.mapError _ (RequestEnvelope.fromStr r.envelopeText) >>= _) = _ at h
      rw [hs] at h
      cases h
      exact ⟨r, _, rfl, rfl, by simp [operationCodes]⟩
    | ok s =>
      cases hid : validRequestId s.requestId with
      | false =>
        rw [decodeRequest, hr] at h
        change (Except.mapError _ (RequestEnvelope.fromStr r.envelopeText) >>= _) = _ at h
        rw [hs] at h
        simp only [Except.mapError, bind, Except.bind, hid, Bool.not_false, ite_true] at h
        cases h
        exact ⟨r, requestIdError, rfl, rfl, by decide⟩
      | true =>
        rw [decodeRequest_structural hr hs hid, afterStructural] at h
        split at h
        · cases h
          exact ⟨r, _, rfl, rfl, by simp [operationCodes, unregisteredKind]⟩
        · split at h
          · cases h
            exact ⟨r, _, rfl, rfl, by decide⟩
          · obtain h | ⟨e, -, h⟩ := bind_eq_error.mp h
            · obtain ⟨e, -, he⟩ := mapError_eq_error.mp h
              cases he
              exact ⟨r, _, rfl, rfl, by simp [operationCodes, payloadError]⟩
            · cases hk : requestKind r e with
              | ok k =>
                rw [hk] at h
                cases h
              | error stop =>
                rw [hk] at h
                cases h
                obtain ⟨e', he', hc⟩ := requestKind_failure hk
                exact ⟨r, e', rfl, he', hc⟩

theorem decodeRequest_addressed [SerdeJson] {frame : Bytes} {f : DecodeFailure} (h : decodeRequest frame = .error (.failure f)) :
    f.Addressed := by
  obtain hp | ⟨r, e, hp, rfl, hc⟩ := decodeRequest_failure h
  · obtain ⟨hid, haxis⟩ := probe_failure hp
    exact ⟨hid, .inl haxis, .inl haxis⟩
  · obtain ⟨hid, haxis⟩ := probe_recovered hp
    exact ⟨hid, haxis, .inr hc⟩

/-! ## Every failure is answered -/

/-- An error is consistent with every kind. -/
theorem checkConsistent_error {r : Response} {e : ProtocolError} (hb : r.body = .error e)
    (hv : r.version = .currentBootstrap ∨ r.version = .operation) : checkConsistent r = .ok () := by
  unfold checkConsistent
  rw [hb]
  rcases hv with hv | hv <;> rw [hv]
  · cases r.kind.bind registeredKind with
    | none => rfl
    | some k => cases k <;> rfl
  · cases r.kind.bind registeredKind with
    | none => rfl
    | some k => cases k <;> rfl

structure Response.Answers (r : Response) (f : DecodeFailure) : Prop where
  version : r.version = f.responseVersion
  requestId : r.requestId = f.requestId
  body : ∃ message, r.body = .error ⟨f.error.code, message⟩

section
variable {f : DecodeFailure} (h : f.Addressed) {r : Response} (hr : r.Answers f)
include h hr

theorem Response.Answers.encodes (hl : (utf8 r.cst.text).length ≤ maxFrameBytes) : encodeResponse r = .ok r.cst.text := by
  obtain ⟨message, hb⟩ := hr.body
  have hcontext : r.version.validContext = true := by
    rw [hr.version]
    rcases h.axis with ha | ha <;> (rw [ha]; rfl)
  have hkind : validateSuccessResponseKind r = .ok () := by
    rw [validateSuccessResponseKind, hb]
  refine encodeResponse_eq_ok.mpr ⟨?_, hcontext, hkind, checkConsistent_error hb ?_, hl, rfl⟩
  · rw [hr.requestId]
    exact h.requestId
  · rw [hr.version]
    exact h.axis

theorem Response.Answers.decodes [SerdeJson] (hl : (utf8 r.cst.text).length ≤ maxFrameBytes) :
    decodeResponseFor (utf8 r.cst.text) (some f.responseVersion) = .ok r := by
  obtain ⟨message, hb⟩ := hr.body
  have hdisjoint : ∀ c ∈ operationCodes, c ∉ [requestTooLarge, protocolVersionUnsupported, handlerTimeout] := by decide
  rw [← hr.version]
  apply decodeResponseFor_cst hl
  · rw [hr.requestId]
    exact h.requestId
  · exact .failed _ hb
  · intro e he hmem
    obtain rfl := ResponseBody.error.inj (he.symm.trans hb)
    rcases h.code with ha | hc
    · exact ⟨_, hr.version.trans ha⟩
    · exact absurd hmem (hdisjoint _ hc)

/-- Without the kind and with the fixed message an answer always fits. -/
theorem Response.Answers.fits (hk : r.kind = none) (hm : r.body = .error ⟨f.error.code, unsafeEcho⟩) :
    (utf8 r.cst.text).length ≤ maxFrameBytes := by
  have hid : (jsonNullable r.requestId).Short 1000 := by
    rw [hr.requestId]
    cases hi : f.requestId with
    | none => exact ⟨by decide, by decide⟩
    | some id => exact (short_identifier ⟨id, validRequestId_iff.mp (h.requestId id hi)⟩).mono (by decide)
  have hversion : (jsonNat r.version.wire.toNat).Short 1000 := by
    have hlen := length_jsonNat (k := 10) (by decide) (Nat.lt_trans r.version.wire.toNat_lt (by decide))
    exact ⟨jsonNat_ascii _, Nat.le_trans hlen (by decide)⟩
  have hcode : (jsonString f.error.code.value).Short 100 := by
    refine ⟨isAscii_plainString f.error.code.plain, ?_⟩
    rw [length_plainString f.error.code.plain]
    exact Nat.le_trans (Nat.add_le_add_right f.error.code.length_le 2) (by decide)
  have herror : (ErrorDto.cst ⟨f.error.code.value, unsafeEcho⟩).Short 1000 := by
    refine (short_struct (n := 100) (by decide) fun v hv => ?_).mono (by decide)
    simp only [List.mem_cons, Option.some.injEq, List.not_mem_nil, or_false] at hv
    rcases hv with rfl | rfl
    · exact hcode
    · exact ⟨by decide, by decide⟩
  have hshort : r.cst.Short maxFrameBytes := by
    refine (short_struct (n := 1000) (by decide) fun v hv => ?_).mono (by decide)
    rw [hk, hm] at hv
    simp only [ResponseBody.payload, ResponseBody.errorDto, ResponseBody.ok, Option.map_some, List.mem_cons,
      Option.some.injEq, reduceCtorEq, List.not_mem_nil, or_false, false_or] at hv
    rcases hv with rfl | rfl | rfl | rfl | rfl | rfl
    · exact ⟨by decide, by decide⟩
    · exact hversion
    · exact hid
    · exact ⟨by decide, by decide⟩
    · exact ⟨by decide, by decide⟩
    · exact herror
  exact hshort.utf8_length

end

/-- The response to a rejected request: the echo where that fits a frame, else the answer without the kind. -/
theorem rejected_spec {f : DecodeFailure} (h : f.Addressed) : (rejected f).Answers f ∧
    (utf8 (rejected f).cst.text).length ≤ maxFrameBytes ∧
    ((rejected f).kind = f.kind ∨ ((rejected f).kind = none ∧ maxFrameBytes < (utf8 f.echo.cst.text).length)) := by
  have hecho : f.echo.Answers f := ⟨rfl, rfl, f.error.message, rfl⟩
  unfold rejected
  split
  · rename_i s hs
    obtain ⟨-, -, -, -, hl, -⟩ := encodeResponse_eq_ok.mp hs
    exact ⟨hecho, hl, .inl rfl⟩
  · rename_i e he
    have hanswers : Response.Answers { f.echo with kind := none, body := .error ⟨f.error.code, unsafeEcho⟩ } f :=
      ⟨rfl, rfl, unsafeEcho, rfl⟩
    refine ⟨hanswers, hanswers.fits h rfl rfl, .inr ⟨rfl, ?_⟩⟩
    -- an echo that fitted would have been encoded
    by_contra hfit
    rw [hecho.encodes h (Nat.not_lt.mp hfit)] at he
    cases he

/-- A rejected request always gets an answer that can be encoded and that is addressed as its decoder recovered it. -/
theorem rejection_answered [SerdeJson] (claimDispatch : Bool) (execute : RequestKind → ResponseBody) (frame : Bytes) (d : DecodeFailure)
    (h : decodeRequest frame = .error (.failure d)) :
    ∃ response s, respond claimDispatch execute frame = .ok response ∧ encodeResponse response = .ok s ∧
      (∃ message, response.body = .error ⟨d.error.code, message⟩) ∧ response.version = d.responseVersion ∧
      response.requestId = d.requestId ∧
      (response.kind = d.kind ∨ (response.kind = none ∧ 65536 < (utf8 d.echo.cst.text).length)) ∧
      decodeResponseFor (utf8 s) (some d.responseVersion) = .ok response := by
  have haddressed := decodeRequest_addressed h
  obtain ⟨hanswers, hl, hkind⟩ := rejected_spec haddressed
  refine ⟨rejected d, (rejected d).cst.text, ?_, hanswers.encodes haddressed hl, hanswers.body, hanswers.version,
    hanswers.requestId, hkind, hanswers.decodes haddressed hl⟩
  rw [respond, h]

def payloadless : Text := "\x7b\"protocol\":\"aizign\",\"version\":1,\"requestId\":\"r\",\"kind\":\"hello\"\x7d".toList

/-- The structural decoder's failure, with the text of `serde_json`. -/
def payloadMissing : DecodeFailure :=
  ⟨some ['r'], some kindHello, .currentBootstrap, ⟨invalidEnvelope, "missing field `payload` at line 1 column 64".toList⟩⟩

open Sample in
theorem rejection_answered_payloadless : decodeRequest (utf8 payloadless) = .error (.failure payloadMissing) ∧
    ∃ response s, respond true (fun _ => .error payloadMissing.error) (utf8 payloadless) = .ok response ∧
      encodeResponse response = .ok s ∧ response.requestId = some ['r'] ∧ response.kind = some kindHello ∧
      decodeResponseFor (utf8 s) (some .currentBootstrap) = .ok response := by
  have hd : decodeRequest (utf8 payloadless) = .error (.failure payloadMissing) := by decide +kernel
  obtain ⟨response, s, hr, hs, -, -, hid, hkind, hdec⟩ :=
    rejection_answered true (fun _ => .error payloadMissing.error) _ _ hd
  refine ⟨hd, response, s, hr, hs, hid, ?_, hdec⟩
  rcases hkind with hkind | ⟨-, hlong⟩
  · exact hkind
  · exact absurd hlong (by decide +kernel)
end Aizign
