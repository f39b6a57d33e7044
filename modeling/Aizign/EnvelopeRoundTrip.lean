import Aizign.EnvelopeEncode

/-!
# Round trips

What `encode_request` writes, `decode_request` reads back, and likewise for
responses on their version axis. Every value passes the scan, the two passes of
the decoder and the core's validators, and a request always fits its frame.
-/

namespace Aizign

open ErrorCodes

/-! ## The size of a request -/

theorem DigestDto.value_eq (d : DigestDto) : d.value = d.cst := by
  have hle : textLe "algorithm".toList "hex".toList = true := by decide
  have hsorted : sortMembers (presentMembers digestFields [some (jsonString d.algorithm.wire), some (jsonString d.hex)]) =
      presentMembers digestFields [some (jsonString d.algorithm.wire), some (jsonString d.hex)] := by
    refine List.mergeSort_of_pairwise ?_
    simp only [presentMembers, digestFields, List.pairwise_cons, List.mem_singleton, List.not_mem_nil, List.Pairwise.nil]
    refine ⟨fun m hm => ?_, fun m hm => absurd hm (by simp), trivial⟩
    rw [hm]
    exact hle
  rw [DigestDto.value, jsonMap, hsorted]
  rfl

/-- A value that fits a frame: in ASCII, and at most so long. -/
structure Cst.Short (v : Cst) (n : Nat) : Prop where
  ascii : isAscii v.text = true
  length : v.text.length ≤ n

theorem SignalParts.short (p : SignalParts) : p.dto.value.Short signalLengthMax := by
  have hvalue : p.dto.value = jsonMap signalFields [some (jsonString p.dto.eventId),
      some (jsonString p.dto.workflowId), some (jsonString p.dto.assignmentId), some (jsonString p.dto.attemptId),
      some (jsonString p.dto.role.wire), some (jsonString p.dto.artifactRevision), some p.dto.candidateDigest.cst,
      some (jsonString p.dto.kind.wire), p.dto.findingCount.map fun n => jsonNat n.toNat, p.dto.artifactRef.map jsonString,
      p.dto.shortErrorCode.map jsonString] := by
    rw [SignalDto.value, DigestDto.value_eq]
  refine ⟨?_, ?_⟩
  · rw [hvalue]
    exact jsonMap_ascii (by decide) fun _ => p.ascii_values
  · rw [hvalue, length_jsonMap]
    exact p.length_cst

theorem length_members {fs : List Field} {vs : List (Option Cst)} {n : Nat}
    (hf : ∀ f ∈ fs, (strText (jsonBody f.name)).length ≤ 20) (hv : ∀ v, some v ∈ vs → v.text.length ≤ n) :
    ((fs.zip vs).map fun p => (strText (jsonBody p.1.name)).length + (p.2.elim 0 fun v => v.text.length) + 2).sum ≤
      fs.length * (n + 22) := by
  induction fs generalizing vs with
  | nil => simp
  | cons f fs ih =>
    cases vs with
    | nil => simp
    | cons v vs =>
      have hrest := ih (fun g hg => hf g (List.mem_cons_of_mem _ hg)) fun w hw => hv w (List.mem_cons_of_mem _ hw)
      have hname := hf f (List.mem_cons_self ..)
      have hvalue : (v.elim 0 fun v => v.text.length) ≤ n := by
        cases v with
        | none => exact Nat.zero_le n
        | some v => exact hv v (List.mem_cons_self ..)
      rw [List.zip_cons_cons, List.map_cons, List.sum_cons, List.length_cons, Nat.succ_mul]
      simp only
      omega

def shortNames (fs : List Field) : Bool := fs.all fun f => isAscii f.name && decide ((strText (jsonBody f.name)).length ≤ 20)

theorem shortNames_iff {fs : List Field} : shortNames fs = true ↔
    ∀ f ∈ fs, isAscii f.name = true ∧ (strText (jsonBody f.name)).length ≤ 20 := by
  simp [shortNames, List.all_eq_true]

theorem short_struct {fs : List Field} {vs : List (Option Cst)} {n : Nat} (hf : shortNames fs = true)
    (hv : ∀ v, some v ∈ vs → v.Short n) : (jsonStruct fs vs).Short (2 + fs.length * (n + 22)) := by
  rw [shortNames_iff] at hf
  refine ⟨jsonStruct_ascii (fun f h => (hf f h).1) fun v h => (hv v h).ascii, ?_⟩
  exact Nat.le_trans (length_jsonStruct fs vs)
    (Nat.add_le_add_left (length_members (fun f h => (hf f h).2) fun v h => (hv v h).length) 2)

theorem short_map {fs : List Field} {vs : List (Option Cst)} {n : Nat} (hf : shortNames fs = true)
    (hv : ∀ v, some v ∈ vs → v.Short n) : (jsonMap fs vs).Short (2 + fs.length * (n + 22)) := by
  refine ⟨jsonMap_ascii (fun f h => (shortNames_iff.mp hf f h).1) fun v h => (hv v h).ascii, ?_⟩
  rw [length_jsonMap]
  exact (short_struct hf hv).length

theorem Cst.Short.mono {v : Cst} {m n : Nat} (h : v.Short m) (hmn : m ≤ n) : v.Short n :=
  ⟨h.ascii, Nat.le_trans h.length hmn⟩

theorem short_identifier (x : Identifier identifierMaxLen) : (jsonString x.value).Short 130 := by
  refine ⟨isAscii_plainString x.plain, ?_⟩
  rw [length_plainString x.plain]
  exact Nat.add_le_add_right x.length_le 2

theorem Digest.short (d : Digest) : (DigestDto.cst ⟨d.algorithm, d.hex⟩).Short 130 :=
  ⟨d.ascii, Nat.le_trans (length_digest d) (by decide)⟩

theorem ExpectedAssignment.short_values (a : ExpectedAssignment) {v : Cst}
    (hv : some v ∈ [some (jsonString a.workflowId.value), some (jsonString a.assignmentId.value),
      some (jsonString a.attemptId.value), some (jsonString a.role.wire), some (jsonString a.artifactRevision.value),
      some (DigestDto.cst ⟨a.candidateDigest.algorithm, a.candidateDigest.hex⟩)]) : v.Short 130 := by
  have hrole : (jsonString a.role.wire).Short 130 := by cases a.role <;> exact ⟨by decide, by decide⟩
  simp only [List.mem_cons, Option.some.injEq, List.not_mem_nil, or_false] at hv
  rcases hv with rfl | rfl | rfl | rfl | rfl | rfl
  · exact short_identifier a.workflowId
  · exact short_identifier a.assignmentId
  · exact short_identifier a.attemptId
  · exact hrole
  · exact short_identifier a.artifactRevision
  · exact a.candidateDigest.short

theorem ExpectedAssignment.short (a : ExpectedAssignment) : a.dto.value.Short 1000 := by
  rw [ExpectedDto.value, DigestDto.value_eq]
  exact (short_map (n := 130) (by decide) fun v hv => a.short_values hv).mono (by decide)

theorem RequestKind.short (k : RequestKind) : k.payload.Short 4000 := by
  have hmax : signalLengthMax = 1500 := rfl
  cases k with
  | hello => exact ⟨by decide, by decide⟩
  | submitWorkflowSignal command =>
    obtain ⟨signal, expected⟩ := command
    refine (short_map (n := 1500) (by decide) fun v hv => ?_).mono (by decide)
    simp only [List.mem_cons, Option.some.injEq, List.not_mem_nil, or_false] at hv
    rcases hv with rfl | rfl
    · exact expected.short.mono (by omega)
    · exact signal.parts.short
  | reconcileWorkflowSignal signal =>
    refine (short_map (n := 1500) (by decide) fun v hv => ?_).mono (by decide)
    simp only [List.mem_cons, Option.some.injEq, List.not_mem_nil, or_false] at hv
    subst hv
    exact signal.parts.short

/-- A request id is an identifier. -/
theorem validRequestId_iff {id : Text} : validRequestId id = true ↔ validateIdentifier id identifierMaxLen = .ok () := by
  have hbytes : ((utf8 id).zipIdx.all fun b => identifierByte b.2 b.1) = true ↔
      firstRefused identifierByte 0 (utf8 id) = none := by
    rw [firstRefused_eq_none, List.all_eq_true]
    constructor
    · intro h k hk
      rw [Nat.zero_add]
      exact h ((utf8 id)[k], k) (List.mk_mem_zipIdx_iff_getElem?.mpr (List.getElem?_eq_getElem hk))
    · rintro h ⟨b, k⟩ hb
      obtain ⟨hk, rfl⟩ := List.getElem?_eq_some_iff.mp (List.mk_mem_zipIdx_iff_getElem?.mp hb)
      simpa using h k hk
  rw [validateIdentifier, validateBytes_eq_ok, ← hbytes, validRequestId]
  simp only [Bool.and_eq_true, Bool.not_eq_true', List.isEmpty_eq_false_iff, decide_eq_true_eq, and_assoc]
  exact Iff.rfl

theorem Cst.Short.utf8_length {v : Cst} {n : Nat} (h : v.Short n) : (utf8 v.text).length ≤ n := by
  rw [length_utf8_ascii h.ascii]
  exact h.length

/-- A request with its payload written in any way. -/
def Request.cstWith (r : Request) (payload : Cst) : Cst := jsonStruct requestFields [some (jsonString protocolName),
  some (jsonNat r.kind.version.toNat), some (jsonString r.requestId), some (jsonString r.kind.name), some payload]

/-- The payload of a kind, as its mapper reads it. -/
def RequestKind.ReadsAs [SerdeJson] : RequestKind → Cst → Prop
  | .hello, payload => payload.members? = some []
  | .submitWorkflowSignal command, payload => decodeSubmit payload = .ok command
  | .reconcileWorkflowSignal signal, payload => decodeReconcile payload = .ok signal

structure Request.Carries [SerdeJson] (r : Request) (payload : Cst) : Prop where
  written : payload.Written 3
  short : payload.Short 4000
  object : payload.members?.isSome = true
  reads : r.kind.ReadsAs payload

theorem RequestKind.object (k : RequestKind) : k.payload.members?.isSome = true := by
  cases k with
  | hello => rfl
  | submitWorkflowSignal command =>
    obtain ⟨signal, expected⟩ := command
    rw [RequestKind.payload, encodeSubmit, jsonMap, members_jsonObject]
    rfl
  | reconcileWorkflowSignal signal =>
    rw [RequestKind.payload, encodeReconcile, jsonMap, members_jsonObject]
    rfl

theorem Request.carries [SerdeJson] (r : Request) : r.Carries r.kind.payload := by
  refine ⟨r.kind.written, r.kind.short, r.kind.object, ?_⟩
  obtain ⟨id, kind⟩ := r
  cases kind with
  | hello => rfl
  | submitWorkflowSignal command => exact decodeSubmit_encodeSubmit command
  | reconcileWorkflowSignal signal => exact decodeReconcile_encodeReconcile signal

section
variable [SerdeJson] {r : Request} {payload : Cst} (hp : r.Carries payload)
include hp

theorem Request.Carries.frame_written : (r.cstWith payload).Written 4 := by
  apply written_struct requestFields_nodup
  intro v hv
  simp only [List.mem_cons, Option.some.injEq, List.not_mem_nil, or_false] at hv
  rcases hv with rfl | rfl | rfl | rfl | rfl
  · exact (written_string _).mono (Nat.zero_le 3)
  · exact (written_nat _).mono (Nat.zero_le 3)
  · exact (written_string _).mono (Nat.zero_le 3)
  · exact (written_string _).mono (Nat.zero_le 3)
  · exact hp.written

theorem Request.Carries.frame_short (h : validRequestId r.requestId = true) : (r.cstWith payload).Short 65536 := by
  have hid : (jsonString r.requestId).Short 130 := short_identifier ⟨r.requestId, validRequestId_iff.mp h⟩
  have hversion : (jsonNat r.kind.version.toNat).Short 10 :=
    ⟨jsonNat_ascii _, length_jsonNat (by decide) (Nat.lt_trans r.kind.version.toNat_lt (by decide))⟩
  have hnames : ∀ name ∈ [kindHello, kindWorkflowSignalSubmit, kindWorkflowSignalReconcile],
      isAscii (jsonString name).text = true ∧ (jsonString name).text.length ≤ 4000 := by decide
  have hname := hnames r.kind.name (by cases r.kind <;> simp [RequestKind.name])
  refine (short_struct (n := 4000) (by decide) fun v hv => ?_).mono (by decide)
  simp only [List.mem_cons, Option.some.injEq, List.not_mem_nil, or_false] at hv
  rcases hv with rfl | rfl | rfl | rfl | rfl
  · exact ⟨by decide, by decide⟩
  · exact hversion.mono (by decide)
  · exact hid.mono (by decide)
  · exact ⟨hname.1, hname.2⟩
  · exact hp.short

end

theorem encodeRequest_ok [SerdeJson] {r : Request} (h : validRequestId r.requestId = true) : encodeRequest r = .ok r.cst.text := by
  have hlen : ¬maxRequestBytes < (utf8 r.cst.text).length := Nat.not_lt.mpr (r.carries.frame_short h).utf8_length
  rw [encodeRequest, h, finishRequestFrame, if_neg hlen]
  rfl

/-! ## Requests -/

theorem named_jsonObject (ms : List (Text × Cst)) : (jsonObject ms).doc.named = ms := by
  have hmem : (jsonObject ms).doc.members = ms.map fun m => (jsonBody m.1, m.2) := by
    rw [Doc.members, Cst.doc, members_jsonObject]
    rfl
  rw [Doc.named, hmem]
  clear hmem
  induction ms with
  | nil => rfl
  | cons m ms ih =>
    rw [List.map_cons, namedMembers, List.filterMap_cons, strValue_jsonBody]
    exact congrArg (m :: ·) ih

theorem Cst.Written.cleanObject {ms : List (Text × Cst)} {n : Nat} (h : (jsonObject ms).Written n) :
    (jsonObject ms).doc.CleanObject := ⟨h.clean, by rw [Cst.doc, members_jsonObject]; rfl⟩

section
variable {r : Request} {payload : Cst}

theorem Request.cst_eq (r : Request) (payload : Cst) : r.cstWith payload = jsonObject [(protocolKey, jsonString protocolName),
    (versionKey, jsonNat r.kind.version.toNat), (requestIdKey, jsonString r.requestId), (kindKey, jsonString r.kind.name),
    (payloadKey, payload)] := by
  simp only [Request.cstWith, jsonStruct, requestFields, presentMembers]

theorem Request.named (r : Request) (payload : Cst) : (r.cstWith payload).doc.named = [(protocolKey, jsonString protocolName),
    (versionKey, jsonNat r.kind.version.toNat), (requestIdKey, jsonString r.requestId), (kindKey, jsonString r.kind.name),
    (payloadKey, payload)] := by
  rw [r.cst_eq, named_jsonObject]

theorem RequestKind.version_eq (k : RequestKind) : k.version = acceptedVersion k.name := by
  have h : kindWorkflowSignalSubmit ≠ kindHello ∧ kindWorkflowSignalReconcile ≠ kindHello := by decide
  cases k with
  | hello => rfl
  | submitWorkflowSignal command =>
    rw [acceptedVersion, RequestKind.name, if_neg h.1]
    rfl
  | reconcileWorkflowSignal signal =>
    rw [acceptedVersion, RequestKind.name, if_neg h.2]
    rfl

variable [SerdeJson] (hp : r.Carries payload)
include hp

theorem Request.Carries.cleanObject : (r.cstWith payload).doc.CleanObject := by
  have h := hp.frame_written
  rw [r.cst_eq] at h ⊢
  exact h.cleanObject

theorem Request.Carries.lookup {name : Text} {c : Cst} (h : (name, c) ∈ (r.cstWith payload).doc.named) :
    lastMember (r.cstWith payload).doc.members name = some c := by
  rw [hp.cleanObject.lookup]
  refine lookupMember_of_mem (m := (name, c)) ?_ h
  rw [r.named]
  exact requestFields_nodup

theorem Request.Carries.hasVersion : (r.cstWith payload).doc.HasVersion r.kind.version :=
  ⟨_, hp.lookup (c := jsonNat r.kind.version.toNat) (by rw [r.named]; simp), rfl⟩

theorem Request.Carries.hasKind : (r.cstWith payload).doc.HasString kindKey r.kind.name :=
  ⟨_, hp.lookup (c := jsonString r.kind.name) (by rw [r.named]; simp), strValue_jsonBody _⟩

theorem Request.Carries.accepted (h : validRequestId r.requestId = true) : (r.cstWith payload).doc.Accepted where
  size := by
    rw [Cst.doc_text]
    exact (hp.frame_short h).utf8_length
  clean := hp.cleanObject
  protocol := ⟨_, hp.lookup (c := jsonString protocolName) (by rw [r.named]; simp), strValue_jsonBody _⟩
  version := by
    refine ⟨r.kind.version, hp.hasVersion, fun kind hk => ?_⟩
    rw [hk.unique hp.hasKind]
    exact r.kind.version_eq

theorem Request.Carries.closed (h : validRequestId r.requestId = true) : (r.cstWith payload).doc.ClosedEnvelope := by
  refine ⟨jsonBody protocolName, ⟨_, isNumber_decimal r.kind.version.toNat⟩, jsonBody r.requestId, jsonBody r.kind.name,
    payload, r.requestId, ?_, hp.object, strValue_jsonBody _, h⟩
  refine ⟨_, _, hp.cleanObject.members, memberNames_named fun m hm => (hp.cleanObject.member_clean m hm).1, ?_⟩
  exact List.Perm.of_eq (r.named payload)

/-- The request id the structural pass reads is the one that was written. -/
theorem Request.Carries.structural_id {s : RequestEnvelope}
    (hs : RequestEnvelope.de (r.cstWith payload).doc.hollowed.value = .ok s) : s.requestId = r.requestId := by
  obtain ⟨e, -, he⟩ | ⟨vs, p, v, i, k, m, -, hm, hh, -⟩ := hp.cleanObject.request_passes
  · rw [he] at hs
    cases hs
  · rw [hh] at hs
    obtain ⟨-, -, hi, -⟩ := requestOf_eq_ok.mp hs
    have hlook : lastMember (r.cstWith payload).doc.members requestIdKey = some (jsonString r.requestId) :=
      hp.lookup (by rw [r.named]; simp)
    rw [hp.cleanObject.lookup, hm.requestId, Option.some.injEq] at hlook
    rw [hlook, deString_jsonString] at hi
    exact (Except.ok.inj hi).symm

/-- A request is read back from any spelling of its payload that its mapper reads. -/
theorem decodeRequest_cst (h : validRequestId r.requestId = true) :
    decodeRequest (utf8 (r.cstWith payload).text) = .ok r := by
  have haccepted := hp.accepted h
  obtain ⟨s, hs, hid⟩ := (closed_iff hp.cleanObject hp.hasVersion).mpr (hp.closed h)
  obtain ⟨payload', ho⟩ := haccepted.opened_of hs hid
  have hkind : s.kind = r.kind.name := ho.kind.unique hp.hasKind
  obtain rfl : payload' = payload := ho.hasPayload.unique (hp.lookup (c := payload) (by rw [r.named]; simp))
  have hdepth : payload'.nesting < envelopeDepth := Nat.lt_of_le_of_lt hp.written.nesting (by decide)
  have hdoc : utf8 (r.cstWith payload').text = utf8 (r.cstWith payload').doc.text := by rw [Cst.doc_text]
  have hreq : s.requestId = r.requestId := hp.structural_id hs
  rw [hdoc]
  have hreads := hp.reads
  obtain ⟨id, kind⟩ := r
  cases kind with
  | hello =>
    rw [(decode_hello ho (by rw [hkind]; rfl) hdepth).1 hreads, hreq]
  | submitWorkflowSignal command =>
    have hreg : registeredKind kindWorkflowSignalSubmit = some .workflowSignalSubmit := by decide
    have hmaps := mapsBy_submit (s := s) (by rw [hkind]; exact hreg)
    rw [((decode_mapped ho hmaps hdepth).2 hp.written.fits).2 command hreads, hreq]
  | reconcileWorkflowSignal signal =>
    have hreg : registeredKind kindWorkflowSignalReconcile = some .workflowSignalReconcile := by decide
    have hmaps := mapsBy_reconcile (s := s) (by rw [hkind]; exact hreg)
    rw [((decode_mapped ho hmaps hdepth).2 hp.written.fits).2 signal hreads, hreq]

end

theorem encodeRequest_eq_ok [SerdeJson] {r : Request} {s : Text} :
    encodeRequest r = .ok s ↔ validRequestId r.requestId = true ∧ s = r.cst.text := by
  constructor
  · intro h
    cases hid : validRequestId r.requestId with
    | false =>
      rw [encodeRequest, hid] at h
      cases h
    | true =>
      rw [encodeRequest_ok hid] at h
      exact ⟨rfl, (Except.ok.inj h).symm⟩
  · rintro ⟨hid, rfl⟩
    exact encodeRequest_ok hid

/-- Every request with a well-formed id is written as one short JSON object on one line that reads back as the request;
no request is too large, and no two requests are written alike. -/
theorem request_round_trip [SerdeJson] :
    (∀ r : Request, validRequestId r.requestId = true → ∃ s, encodeRequest r = .ok s ∧ (utf8 s).length ≤ 65536 ∧
      (∃ d : Doc, s = d.text ∧ d.value.members?.isSome = true) ∧ '\r' ∉ s ∧ '\n' ∉ s ∧ decodeRequest (utf8 s) = .ok r) ∧
    (∀ (r : Request) (e : ProtocolError), encodeRequest r = .error e → e.code ≠ requestTooLarge) ∧
    (∀ (r r' : Request) (s : Text), encodeRequest r = .ok s → encodeRequest r' = .ok s → r = r') := by
  refine ⟨fun r hid => ?_, fun r e he => ?_, fun r r' s hs hs' => ?_⟩
  · refine ⟨r.cst.text, encodeRequest_ok hid, (r.carries.frame_short hid).utf8_length,
      ⟨r.cst.doc, ?_, r.carries.cleanObject.object⟩, ?_, ?_, decodeRequest_cst r.carries hid⟩
    · rw [Cst.doc_text]
    · exact r.carries.frame_written.printable.no_return
    · exact r.carries.frame_written.printable.no_newline
  · cases hid : validRequestId r.requestId with
    | false =>
      rw [encodeRequest, hid] at he
      cases he
      decide
    | true =>
      rw [encodeRequest_ok hid] at he
      cases he
  · obtain ⟨hid, rfl⟩ := encodeRequest_eq_ok.mp hs
    obtain ⟨hid', heq⟩ := encodeRequest_eq_ok.mp hs'
    have h : decodeRequest (utf8 r.cst.text) = .ok r := decodeRequest_cst r.carries hid
    have h' : decodeRequest (utf8 r'.cst.text) = .ok r' := decodeRequest_cst r'.carries hid'
    rw [heq, h'] at h
    exact (Except.ok.inj h).symm

/-! ## Responses -/

theorem written_nullable (t : Option Text) : (jsonNullable t).Written 0 := by
  cases t with
  | none => exact written_null
  | some t => exact written_string t

theorem encodeResultWith_written {δ : Type} (wire : δ → Text) (result : Result δ) :
    (encodeResultWith wire result).Written 1 := by
  apply written_map resultFields_nodup
  intro v hv
  simp only [List.mem_cons, Option.some.injEq, List.not_mem_nil, or_false] at hv
  rcases hv with rfl | rfl <;> exact written_string _

theorem HelloInfo.written (info : HelloInfo) : info.value.Written 2 := by
  have hcaps : (jsonArray (info.capabilities.map jsonString)).Written 1 := by
    apply written_array
    intro v hv
    obtain ⟨t, -, rfl⟩ := List.mem_map.mp hv
    exact written_string t
  have hpackage : info.package.value.Written 1 := by
    apply written_map packageFields_nodup
    intro v hv
    simp only [List.mem_cons, Option.some.injEq, List.not_mem_nil, or_false] at hv
    rcases hv with rfl | rfl <;> exact written_string _
  apply written_map helloFields_nodup
  intro v hv
  simp only [List.mem_cons, Option.some.injEq, List.not_mem_nil, or_false] at hv
  rcases hv with rfl | rfl | rfl | rfl
  · exact (written_nat _).mono (Nat.zero_le 1)
  · exact (written_nat _).mono (Nat.zero_le 1)
  · exact hcaps
  · exact hpackage

theorem ResponseBody.payload_written {b : ResponseBody} {payload : Cst} (h : b.payload = some payload) :
    payload.Written 2 := by
  cases b with
  | hello info =>
    cases h
    exact info.written
  | workflowSignal result =>
    cases h
    exact (encodeResultWith_written _ result).mono (by omega)
  | workflowSignalReconciliation result =>
    cases h
    exact (encodeResultWith_written _ result).mono (by omega)
  | error e => cases h

theorem ErrorDto.written (e : ErrorDto) : e.cst.Written 1 := by
  apply written_struct errorFields_nodup
  intro v hv
  simp only [List.mem_cons, Option.some.injEq, List.not_mem_nil, or_false] at hv
  rcases hv with rfl | rfl <;> exact written_string _

theorem Response.written (r : Response) : r.cst.Written 3 := by
  apply written_struct responseFields_nodup
  intro v hv
  simp only [List.mem_cons, Option.some.injEq, List.not_mem_nil, or_false, eq_comm (a := some v),
    Option.map_eq_some_iff] at hv
  rcases hv with rfl | rfl | rfl | rfl | rfl | hp | ⟨e, -, rfl⟩
  · exact (written_string _).mono (Nat.zero_le 2)
  · exact (written_nat _).mono (Nat.zero_le 2)
  · exact (written_nullable _).mono (Nat.zero_le 2)
  · exact (written_nullable _).mono (Nat.zero_le 2)
  · exact (written_bool _).mono (Nat.zero_le 2)
  · exact ResponseBody.payload_written hp
  · exact e.written.mono (by omega)

def Response.values (r : Response) : List (Option Cst) := [some (jsonString protocolName),
  some (jsonNat r.version.wire.toNat), some (jsonNullable r.requestId), some (jsonNullable r.kind), some (.bool r.body.ok),
  r.body.payload, r.body.errorDto.map ErrorDto.cst]

theorem Response.named (r : Response) : r.cst.doc.named = presentMembers responseFields r.values := by
  rw [Response.cst, jsonStruct, named_jsonObject]
  rfl

theorem Response.cleanObject (r : Response) : r.cst.doc.CleanObject := by
  have h := r.written
  rw [Response.cst, jsonStruct] at h ⊢
  exact h.cleanObject

theorem Response.deMap_named (r : Response) : deMap responseFields true r.cst.doc.named = .ok r.values := by
  have h : deStruct responseFields true (jsonStruct responseFields r.values) = .ok r.values :=
    deStruct_jsonStruct true responseFields_nodup rfl (by simp [responseFields, Response.values])
  rwa [jsonStruct, deStruct_jsonObject, ← r.named] at h

/-- What each field of the envelope finds. -/
theorem Response.lookups (r : Response) : (responseFields.map fun f => lookupMember r.cst.doc.named f.name) = r.values := by
  rw [r.named]
  exact lookup_presentMembers responseFields_nodup rfl

theorem Response.members (r : Response) : ResponseMembers r.cst.doc.named (jsonString protocolName)
    (jsonNat r.version.wire.toNat) (jsonNullable r.requestId) (jsonNullable r.kind) (.bool r.body.ok) := by
  have h := r.lookups
  simp only [responseFields, List.map_cons, List.map_nil, Response.values, List.cons.injEq] at h
  obtain ⟨h₁, h₂, h₃, h₄, h₅, -⟩ := h
  exact ⟨h₁, h₂, h₃, h₄, h₅⟩

theorem Response.lookup_payload (r : Response) : lookupMember r.cst.doc.named payloadKey = r.body.payload := by
  have h := r.lookups
  simp only [responseFields, List.map_cons, List.map_nil, Response.values, List.cons.injEq] at h
  exact h.2.2.2.2.2.1

theorem Response.lookup_error (r : Response) :
    lookupMember r.cst.doc.named errorKey = r.body.errorDto.map ErrorDto.cst := by
  have h := r.lookups
  simp only [responseFields, List.map_cons, List.map_nil, Response.values, List.cons.injEq] at h
  exact h.2.2.2.2.2.2.1

theorem ErrorDto.errorCode (e : ErrorDto) : e.cst.errorCode = some e.code := by
  have hclean : e.cst.doc.CleanObject := by
    have h := e.written
    rw [ErrorDto.cst, jsonStruct] at h ⊢
    exact h.cleanObject
  have hnamed : e.cst.doc.named = [(codeKey, jsonString e.code), ("message".toList, jsonString e.message)] := by
    rw [ErrorDto.cst, jsonStruct, named_jsonObject]
    rfl
  refine errorCode_eq_some.mpr ⟨_, jsonBody e.code, hclean.members, ?_, strValue_jsonBody _⟩
  rw [hclean.lookup, hnamed, lookupMember_cons, if_pos rfl]
  rfl

theorem Response.errorCode (r : Response) :
    (scanJsonTokens r.cst.doc.text).errorCode = r.body.errorDto.map ErrorDto.code := by
  rw [scanJsonTokens_doc]
  simp only
  rw [r.cleanObject.lookup, r.lookup_error]
  cases r.body.errorDto with
  | none => rfl
  | some e => rw [Option.map_some, Option.bind_some, e.errorCode, Option.map_some]

theorem probeString_nullable (t : Option Text) : probeString (some (jsonNullable t).probe) = t := by
  cases t with
  | none => rfl
  | some t => exact probe_deString (deString_jsonString t)

theorem Response.recoveredKind (r : Response) : r.cst.doc.recoveredKind = r.kind := by
  rw [r.cleanObject.recoveredKind, r.cleanObject.probed, r.members.kind]
  exact probeString_nullable r.kind

theorem registeredKind_eq_some {kind : Text} {k : RegisteredKind} (h : registeredKind kind = some k) :
    kind = match k with
      | .hello => kindHello
      | .workflowSignalSubmit => kindWorkflowSignalSubmit
      | .workflowSignalReconcile => kindWorkflowSignalReconcile := by
  unfold registeredKind at h
  split at h
  · cases h
    assumption
  · split at h
    · cases h
      assumption
    · split at h
      · cases h
        assumption
      · cases h

/-- The responses that are written: their version, kind and body agree. -/
inductive Response.Consistent (r : Response) : Prop
  | hello (info : HelloInfo) (hv : r.version = .bootstrap bootstrapEnvelopeVersion) (hk : r.kind = some kindHello)
      (hb : r.body = .hello info) (hi : info.validate = .ok ())
  | submitted (v : UInt32) (x : SignalResult) (hv : r.version = .acceptedOperation v)
      (hk : r.kind = some kindWorkflowSignalSubmit) (hb : r.body = .workflowSignal x)
  | reconciled (v : UInt32) (x : ReconciliationResult) (hv : r.version = .acceptedOperation v)
      (hk : r.kind = some kindWorkflowSignalReconcile) (hb : r.body = .workflowSignalReconciliation x)
  | failed (e : ProtocolError) (hb : r.body = .error e)

theorem consistent_of_check {r : Response} (h : checkConsistent r = .ok ()) : r.Consistent := by
  unfold checkConsistent at h
  split at h
  · rename_i v info hv hk hb
    obtain ⟨kind, hkind, hreg⟩ := Option.bind_eq_some_iff.mp hk
    split at h
    · rename_i hone
      exact .hello info (by rw [hv, hone]) (by rw [hkind, registeredKind_eq_some hreg]) hb (mapError_eq_ok.mp h)
    · cases h
  · rename_i v x hv hk hb
    obtain ⟨kind, hkind, hreg⟩ := Option.bind_eq_some_iff.mp hk
    exact .submitted v x hv (by rw [hkind, registeredKind_eq_some hreg]) hb
  · rename_i v x hv hk hb
    obtain ⟨kind, hkind, hreg⟩ := Option.bind_eq_some_iff.mp hk
    exact .reconciled v x hv (by rw [hkind, registeredKind_eq_some hreg]) hb
  · rename_i v e hv hb
    exact .failed e hb
  · rename_i v e hv hb
    exact .failed e hb
  · cases h

def Response.CarriesBootstrap (r : Response) : Prop :=
  ∀ e, r.body = .error e → e.code ∈ [requestTooLarge, protocolVersionUnsupported, handlerTimeout] →
    ∃ v, r.version = .bootstrap v

theorem ShortErrorCode.value_inj {a b : ShortErrorCode} (h : a.value = b.value) : a = b := by
  cases a
  cases b
  cases h
  rfl

theorem mem_of_bootstrapCode {code : ShortErrorCode} (h : isUnconditionallyBootstrapErrorCode code.value = true) :
    code ∈ [requestTooLarge, protocolVersionUnsupported, handlerTimeout] := by
  simp only [isUnconditionallyBootstrapErrorCode, Bool.or_eq_true, beq_iff_eq] at h
  rcases h with (h | h) | h
  · simp [ShortErrorCode.value_inj h]
  · simp [ShortErrorCode.value_inj h]
  · simp [ShortErrorCode.value_inj h]

/-- The axis is reconstructed. -/
theorem expectedResponseVersion_eq {r : Response} (h : r.Consistent) (hb : r.CarriesBootstrap) :
    expectedResponseVersion r.kind (some r.body.ok) (r.body.errorDto.map ErrorDto.code) (some r.version) = r.version := by
  have hne : kindWorkflowSignalSubmit ≠ kindHello ∧ kindWorkflowSignalReconcile ≠ kindHello := by decide
  cases h with
  | hello info hv hk hbody hi =>
    have hok : r.body.ok = true := by rw [hbody]; rfl
    unfold expectedResponseVersion
    simp only [hok, hv, hk, if_true, expectedBootstrapVersion]
  | submitted v x hv hk hbody =>
    have hok : r.body.ok = true := by rw [hbody]; rfl
    unfold expectedResponseVersion
    simp only [hok, hv, hk, if_true, hne.1, if_false, expectedOperationVersion]
  | reconciled v x hv hk hbody =>
    have hok : r.body.ok = true := by rw [hbody]; rfl
    unfold expectedResponseVersion
    simp only [hok, hv, hk, if_true, hne.2, if_false, expectedOperationVersion]
  | failed e hbody =>
    have hok : r.body.ok = false := by rw [hbody]; rfl
    have hcode : r.body.errorDto.map ErrorDto.code = some e.code.value := by rw [hbody]; rfl
    unfold expectedResponseVersion
    rw [hok, hcode, if_neg (by simp), Option.any_some]
    by_cases hboot : isUnconditionallyBootstrapErrorCode e.code.value = true
    · obtain ⟨v, hv⟩ := hb e hbody (mem_of_bootstrapCode hboot)
      rw [if_pos ⟨rfl, hboot⟩, hv, expectedBootstrapVersion]
    · rw [if_neg fun h => hboot h.2, inferredRequestStage]

/-- What `encode_response` writes, and when. -/
theorem encodeResponse_eq_ok {r : Response} {s : Text} : encodeResponse r = .ok s ↔
    (∀ id, r.requestId = some id → validRequestId id = true) ∧ r.version.validContext = true ∧
      validateSuccessResponseKind r = .ok () ∧ checkConsistent r = .ok () ∧ (utf8 r.cst.text).length ≤ maxFrameBytes ∧
      s = r.cst.text := by
  have hid : (r.requestId.any fun id => !validRequestId id) = false ↔ ∀ id, r.requestId = some id → validRequestId id = true := by
    cases r.requestId <;> simp
  rw [← hid]
  unfold encodeResponse
  cases hany : r.requestId.any fun id => !validRequestId id with
  | true => simp [bind, Except.bind, throw, throwThe, MonadExceptOf.throw]
  | false =>
    cases hctx : r.version.validContext with
    | false => simp [bind, Except.bind, throw, throwThe, MonadExceptOf.throw]
    | true =>
      cases hk : validateSuccessResponseKind r with
      | error e => simp [bind, Except.bind]
      | ok u =>
        cases hc : checkConsistent r with
        | error e => simp [bind, Except.bind]
        | ok u' =>
          by_cases hl : maxFrameBytes < (utf8 r.cst.text).length
          · simp [bind, Except.bind, hl, throw, throwThe, MonadExceptOf.throw]
          · have hle : (utf8 r.cst.text).length ≤ maxFrameBytes := Nat.le_of_not_lt hl
            simp [bind, Except.bind, pure, Except.pure, hl, hle, eq_comm]

section
variable {r : Response} (hl : (utf8 r.cst.text).length ≤ maxFrameBytes)
  (hexp : expectedResponseVersion r.kind (some r.body.ok) (r.body.errorDto.map ErrorDto.code) (some r.version) = r.version)
include hl hexp

theorem responseProbe_cst : responseProbe (utf8 r.cst.text) (some r.version) = .ok (r.cst.doc.recovered r.version) := by
  have hclean := r.cleanObject
  have hframe : frameText "response".toList invalidEnvelope (utf8 r.cst.text) = .ok r.cst.doc.text := by
    rw [frameText_eq_ok]
    exact ⟨hl, by rw [Cst.doc_text], head_ne_byteOrderMark _⟩
  have hscan : scanFrame r.cst.doc.text = .ok (scanJsonTokens r.cst.doc.text) :=
    scanFrame_eq_ok.mpr ⟨_, rfl, hclean.object, rfl⟩
  have hkind : ∀ axis, ((scanJsonTokens r.cst.doc.text).recovered axis).kind = r.kind :=
    fun axis => (r.cst.doc.recovered_kind axis).trans r.recoveredKind
  have hok : probeBoolean ((scanJsonTokens r.cst.doc.text).topLevelValues okKey) = some r.body.ok := by
    rw [topLevelValues_eq, hclean.probed, r.members.ok]
    rfl
  have hversion : (scanJsonTokens r.cst.doc.text).version = .ok r.version.wire := by
    rw [Scan.version_eq_ok, topLevelValues_eq, hclean.probed, hclean.probed, r.members.protocol, r.members.version]
    exact ⟨(failure_eq_none _).mpr hclean.clean, probe_deString (deString_jsonString _), probe_deU32 (deU32_jsonNat _)⟩
  unfold responseProbe
  refine bind_eq_ok.mpr ⟨_, mapError_eq_ok.mpr hframe, bind_eq_ok.mpr ⟨_, mapError_eq_ok.mpr hscan, ?_⟩⟩
  simp only [hkind, hok, r.errorCode, hexp]
  refine bind_eq_ok.mpr ⟨_, mapError_eq_ok.mpr hversion, ?_⟩
  rw [if_neg (not_not_intro rfl)]
  rfl

end

def Response.envelope (r : Response) (f : Cst → Cst) : ResponseEnvelope :=
  ⟨protocolName, r.version.wire, r.requestId, r.kind, r.body.ok, r.body.payload.map f, r.body.errorDto⟩

theorem deOption_nullable (t : Option Text) : deOption deString (jsonNullable t) = .ok t := by
  cases t with
  | none => rfl
  | some t =>
    rw [jsonNullable, deOption_of_ne (by rw [jsonString]; nofun), deString_jsonString]
    rfl

theorem optional_payload [SerdeJson] {m : Option Cst} {f : Cst → Cst} (hnull : ∀ c, m = some c → f c ≠ .null)
    (hvalue : ∀ c, m = some c → deValue envelopeDepth (f c) = .ok ()) :
    optional (deOption (deJsonValue envelopeDepth)) (m.map f) = .ok (m.map f) := by
  cases m with
  | none => rfl
  | some c =>
    rw [Option.map_some, optional, deOption_of_ne (hnull c rfl), deJsonValue, hvalue c rfl]
    rfl

theorem ResponseBody.payload_object {b : ResponseBody} {payload : Cst} (h : b.payload = some payload) :
    payload.members?.isSome = true := by
  cases b with
  | hello info =>
    cases h
    rw [HelloInfo.value, jsonMap, members_jsonObject]
    rfl
  | workflowSignal x =>
    cases h
    rw [encodeResult, encodeResultWith, jsonMap, members_jsonObject]
    rfl
  | workflowSignalReconciliation x =>
    cases h
    rw [encodeReconciliationResult, encodeResultWith, jsonMap, members_jsonObject]
    rfl
  | error e => cases h

theorem responseOf_envelope [SerdeJson] (r : Response) {f : Cst → Cst} (hnull : ∀ c, r.body.payload = some c → f c ≠ .null)
    (hvalue : ∀ c, r.body.payload = some c → deValue envelopeDepth (f c) = .ok ()) :
    responseOf (jsonString protocolName) (jsonNat r.version.wire.toNat) (jsonNullable r.requestId) (jsonNullable r.kind)
      (.bool r.body.ok) (r.body.payload.map f) (r.body.errorDto.map ErrorDto.cst) = .ok (r.envelope f) := by
  rw [responseOf_eq_ok]
  refine ⟨deString_jsonString _, deU32_jsonNat _, deOption_nullable _, deOption_nullable _, rfl, optional_payload hnull hvalue, ?_⟩
  rw [Response.envelope]
  cases r.body.errorDto with
  | none => rfl
  | some e =>
    have hne : e.cst ≠ .null := by
      intro h
      rw [ErrorDto.cst, jsonStruct] at h
      cases h
    rw [Option.map_some, optional, deOption_of_ne hne, ErrorDto.de_cst]
    rfl

theorem Response.structural [SerdeJson] (r : Response) : ResponseEnvelope.de r.cst.doc.hollowed.value = .ok (r.envelope Cst.hollowed) := by
  have h := (ResponseEnvelope.de_reshape (r.cleanObject.deStruct_hollowed responseFields true)).2 _ _ _ _ _ _ r.deMap_named
    r.members
  have hpayload : hollowValue payloadKey = Cst.hollowed := funext fun c => if_pos rfl
  have herror : hollowValue errorKey = id := funext fun c => hollowValue_of_ne (by decide) c
  rw [h, hollowValue_of_ne (by decide), hollowValue_of_ne (by decide), hollowValue_of_ne (by decide),
    hollowValue_of_ne (by decide), hollowValue_of_ne (by decide), r.lookup_payload, r.lookup_error, hpayload, herror,
    Option.map_id, id]
  refine responseOf_envelope r (fun c hc hn => ?_) fun c hc => ?_
  · rw [hollowed_eq_null] at hn
    have := ResponseBody.payload_object hc
    rw [hn] at this
    cases this
  · have ho := ResponseBody.payload_object hc
    cases c with
    | obj0 w => rfl
    | obj ms => rfl
    | _ => cases ho

theorem Response.typedPass [SerdeJson] (r : Response) : ResponseEnvelope.de r.cst.doc.typed.value = .ok (r.envelope id) := by
  have h := (ResponseEnvelope.de_reshape (r.cleanObject.deStruct_typed responseFields true)).2 _ _ _ _ _ _ r.deMap_named
    r.members
  have hpayload : r.body.payload.map (typedValue payloadKey) = r.body.payload.map id := by
    cases hp : r.body.payload with
    | none => rfl
    | some c => rw [Option.map_some, typedValue, if_pos rfl, c.typed_fits (ResponseBody.payload_written hp).fits]; rfl
  have herror : (r.body.errorDto.map ErrorDto.cst).map (typedValue errorKey) = r.body.errorDto.map ErrorDto.cst := by
    rw [show typedValue errorKey = id from funext fun c => typedValue_of_ne (by decide) c, Option.map_id, id]
  rw [h, typedValue_of_ne (by decide), typedValue_of_ne (by decide), typedValue_of_ne (by decide),
    typedValue_of_ne (by decide), typedValue_of_ne (by decide), r.lookup_payload, r.lookup_error, hpayload, herror]
  refine responseOf_envelope r (fun c hc hn => ?_) fun c hc => ?_
  · have := ResponseBody.payload_object hc
    rw [id] at hn
    rw [hn] at this
    cases this
  · have hw := ResponseBody.payload_written hc
    have hd := c.deValue_typed hw.clean envelopeDepth 1
    rw [c.typed_fits hw.fits, if_neg] at hd
    · exact hd
    · have henv : envelopeDepth = 127 := rfl
      have := hw.nesting
      omega

theorem ResponseEnvelope.fromStr_doc [SerdeJson] (d : Doc) : ResponseEnvelope.fromStr d.text = ResponseEnvelope.de d.value := by
  rw [ResponseEnvelope.fromStr, Aizign.fromStr_doc]
  rfl

theorem Response.texts (r : Response) (axis : ResponseVersion) :
    (r.cst.doc.recovered axis).envelopeText = r.cst.doc.hollowed.text ∧
      (r.cst.doc.recovered axis).typedText = r.cst.doc.typed.text :=
  ⟨envelopeText_doc _, typedText_doc _ r.cleanObject.clean⟩

/-- The payload is neither too deep nor out of range. -/
theorem Response.bounded {r : Response} (axis : ResponseVersion) (hok : r.body.ok = true) :
    (r.cst.doc.recovered axis).payloadExceedsTypedDepth = false ∧
      (r.cst.doc.recovered axis).payloadIntegerOutOfRange = false := by
  obtain ⟨payload, hp⟩ : ∃ payload, r.body.payload = some payload := by
    cases hb : r.body with
    | error e =>
      rw [hb] at hok
      cases hok
    | hello info => exact ⟨_, rfl⟩
    | workflowSignal x => exact ⟨_, rfl⟩
    | workflowSignalReconciliation x => exact ⟨_, rfl⟩
  have hw := ResponseBody.payload_written hp
  have hhas : r.cst.doc.HasPayload payload := by
    rw [Doc.HasPayload, r.cleanObject.lookup, r.lookup_payload, hp]
  obtain ⟨htyped, hdeep⟩ := r.cleanObject.scanned hhas
  constructor
  · rw [recovered_tooDeep, ← Bool.not_eq_true]
    intro h
    have hlimit : typedJsonDepthLimit = 128 := rfl
    have := hdeep h
    have := hw.nesting
    omega
  · rw [recovered_outOfRange, Bool.not_eq_false', List.isEmpty_iff]
    exact htyped.mpr hw.fits

theorem Response.Consistent.shape [SerdeJson] {r : Response} (h : r.Consistent) (f : Cst → Cst) :
    (∃ k payload, r.body.ok = true ∧ r.body.payload = some payload ∧ (r.envelope f).shape = .success k (f payload) ∧
      responseBody false (.success k payload) = .ok r.body) ∨
    ∃ e, r.body = .error e ∧ (r.envelope f).shape = .failure ⟨e.code.value, e.message⟩ := by
  have hreg : registeredKind kindHello = some .hello ∧ registeredKind kindWorkflowSignalSubmit = some .workflowSignalSubmit ∧
      registeredKind kindWorkflowSignalReconcile = some .workflowSignalReconcile := by decide
  cases h with
  | hello info hv hk hb hi =>
    refine .inl ⟨.hello, info.value, by rw [hb]; rfl, by rw [hb]; rfl, ?_, ?_⟩
    · simp only [ResponseEnvelope.shape, Response.envelope, hb, hk, ResponseBody.ok, ResponseBody.payload,
        ResponseBody.errorDto, Option.map_some, hreg.1, Option.elim_some]
    · rw [hb, responseBody, boundedPayload, decodeHello_value hi]
      rfl
  | submitted v x hv hk hb =>
    refine .inl ⟨.workflowSignalSubmit, encodeResult x, by rw [hb]; rfl, by rw [hb]; rfl, ?_, ?_⟩
    · simp only [ResponseEnvelope.shape, Response.envelope, hb, hk, ResponseBody.ok, ResponseBody.payload,
        ResponseBody.errorDto, Option.map_some, hreg.2.1, Option.elim_some]
    · rw [hb, responseBody, boundedPayload, decodeResult_encodeResult]
      rfl
  | reconciled v x hv hk hb =>
    refine .inl ⟨.workflowSignalReconcile, encodeReconciliationResult x, by rw [hb]; rfl, by rw [hb]; rfl, ?_, ?_⟩
    · simp only [ResponseEnvelope.shape, Response.envelope, hb, hk, ResponseBody.ok, ResponseBody.payload,
        ResponseBody.errorDto, Option.map_some, hreg.2.2, Option.elim_some]
    · rw [hb, responseBody, boundedPayload, decodeReconciliationResult_encode]
      rfl
  | failed e hb =>
    refine .inr ⟨e, hb, ?_⟩
    simp only [ResponseEnvelope.shape, Response.envelope, hb, ResponseBody.ok, ResponseBody.payload,
      ResponseBody.errorDto, Option.map_none]

/-- A response that passes every check of its decoder. -/
theorem decodeResponseFor_passes [SerdeJson] {frame : Bytes} {stage : Option ResponseVersion} {r : Recovered} {s e : ResponseEnvelope}
    {body : ResponseBody} (hr : responseProbe frame stage = .ok r) (hs : ResponseEnvelope.fromStr r.envelopeText = .ok s)
    (hp : s.protocol = protocolName) (hid : (s.requestId.any fun id => !validRequestId id) = false)
    (hc : s.shape.check = .ok ()) (hd : (s.ok && r.payloadExceedsTypedDepth) = false)
    (he : ResponseEnvelope.fromStr r.typedText = .ok e)
    (hb : responseBody r.payloadIntegerOutOfRange e.shape = .ok body) :
    decodeResponseFor frame stage = .ok ⟨r.responseVersion, e.requestId, e.kind, body⟩ := by
  unfold decodeResponseFor
  simp only [hr, hs, hp, hid, hc, hd, he, hb, bind, Except.bind, Except.mapError, ne_eq, not_true_eq_false, if_false,
    Bool.false_eq_true, pure, Except.pure]

theorem decodeResponseFor_cst [SerdeJson] {r : Response} (hl : (utf8 r.cst.text).length ≤ maxFrameBytes)
    (hid : ∀ id, r.requestId = some id → validRequestId id = true) (hc : r.Consistent) (hb : r.CarriesBootstrap) :
    decodeResponseFor (utf8 r.cst.text) (some r.version) = .ok r := by
  have hexp := expectedResponseVersion_eq hc hb
  have htexts := r.texts r.version
  have hany : (r.requestId.any fun id => !validRequestId id) = false := by
    cases h : r.requestId with
    | none => rfl
    | some id => rw [Option.any_some, hid id h]; rfl
  have hstructural : ResponseEnvelope.fromStr (r.cst.doc.recovered r.version).envelopeText = .ok (r.envelope Cst.hollowed) := by
    rw [htexts.1, ResponseEnvelope.fromStr_doc, r.structural]
  have htyped : ResponseEnvelope.fromStr (r.cst.doc.recovered r.version).typedText = .ok (r.envelope id) := by
    rw [htexts.2, ResponseEnvelope.fromStr_doc, r.typedPass]
  have hcheck : (r.envelope Cst.hollowed).shape.check = .ok () := by
    rcases hc.shape Cst.hollowed with ⟨k, payload, -, -, hs, -⟩ | ⟨e, -, hs⟩ <;> (rw [hs]; rfl)
  have hdeep : ((r.envelope Cst.hollowed).ok && (r.cst.doc.recovered r.version).payloadExceedsTypedDepth) = false := by
    cases hok : r.body.ok with
    | false => rw [Response.envelope, hok]; rfl
    | true => rw [(Response.bounded r.version hok).1, Bool.and_false]
  have hbody : responseBody (r.cst.doc.recovered r.version).payloadIntegerOutOfRange (r.envelope id).shape = .ok r.body := by
    rcases hc.shape id with ⟨k, payload, hok, -, hs, hdec⟩ | ⟨e, he, hs⟩
    · rw [hs, (Response.bounded r.version hok).2]
      exact hdec
    · have hcode : ShortErrorCode.new e.code.value = .ok e.code := ShortErrorCode.new_eq_ok.mpr rfl
      rw [hs, he, responseBody, errorBody]
      simp only [hcode]
  exact decodeResponseFor_passes (responseProbe_cst hl hexp) hstructural rfl hany hcheck hdeep htyped hbody

/-- What `encode_response` writes reads back as the response, its axis included, when the codes that are always on the
bootstrap axis are written there; it fits a frame and is one line. -/
theorem response_round_trip [SerdeJson] (r : Response) (s : Text) (h : encodeResponse r = .ok s)
    (hb : ∀ e, r.body = .error e → e.code ∈ [requestTooLarge, protocolVersionUnsupported, handlerTimeout] →
      ∃ v, r.version = .bootstrap v) :
    decodeResponseFor (utf8 s) (some r.version) = .ok r ∧ (utf8 s).length ≤ 65536 ∧ '\r' ∉ s ∧ '\n' ∉ s := by
  obtain ⟨hid, -, -, hcheck, hl, rfl⟩ := encodeResponse_eq_ok.mp h
  exact ⟨decodeResponseFor_cst hl hid (consistent_of_check hcheck) hb, hl, r.written.printable.no_return,
    r.written.printable.no_newline⟩

def timeoutResponse : Response := ⟨.currentBootstrap, none, none, .error ⟨handlerTimeout, "no \"answer\"".toList⟩⟩

open Sample in
theorem response_round_trip_timeout : encodeResponse timeoutResponse = .ok timeoutResponse.cst.text ∧
    decodeResponseFor (utf8 timeoutResponse.cst.text) (some .currentBootstrap) = .ok timeoutResponse := by
  have h : encodeResponse timeoutResponse = .ok timeoutResponse.cst.text :=
    encodeResponse_eq_ok.mpr ⟨nofun, rfl, rfl, rfl, by decide +kernel, rfl⟩
  exact ⟨h, (response_round_trip timeoutResponse _ h fun _ _ _ => ⟨_, rfl⟩).1⟩

end Aizign
