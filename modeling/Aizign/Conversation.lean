import Aizign.Host
import Aizign.ClientSound
import Aizign.ResponseTsSound
import Aizign.AdapterSound

/-!
# What a client may conclude

A client in the package sends one request to a child of the core and reads its
output; any number of others do the same, on one store. Whatever outcome the
client settles with is true of the store: what it takes for accepted is
committed, what it takes for rejected was not stored by that request, and a
reconciliation tells what was committed when the request was executed.
-/

namespace Aizign

open ErrorCodes

/-! ## Responses that are read -/

section
variable {r : Response}

theorem Response.scan_axis_success (h : r.Consistent) (hok : r.body.ok = true) (context : TsContext) :
    r.scan.axis context = r.version.ts.axis := by
  unfold JsonTokenScan.axis
  rw [r.scan_ok, r.scan_code, r.scan_kind]
  have hne : codes kindWorkflowSignalSubmit ≠ codes kindHello ∧ codes kindWorkflowSignalReconcile ≠ codes kindHello := by decide
  have hkinds : utf16 kindHello = codes kindHello ∧ utf16 kindWorkflowSignalSubmit = codes kindWorkflowSignalSubmit ∧
      utf16 kindWorkflowSignalReconcile = codes kindWorkflowSignalReconcile := by decide
  cases h with
  | hello info hv hk hbody hi => simp [hbody, hk, hv, hkinds.1, ResponseBody.ok, ResponseVersion.ts]
  | submitted v x hv hk hbody => simp [hbody, hk, hv, hkinds.2.1, hne.1, ResponseBody.ok, ResponseVersion.ts]
  | reconciled v x hv hk hbody => simp [hbody, hk, hv, hkinds.2.2, hne.2, ResponseBody.ok, ResponseVersion.ts]
  | failed e hbody =>
    rw [hbody] at hok
    cases hok

/-- An error is read on any axis. -/
theorem Response.Consistent.read_on (h : r.Consistent) (hid : ∀ id, r.requestId = some id → validRequestId id = true)
    {axis : TsAxis} (haxis : r.body.ok = true → axis = r.version.ts.axis) :
    readResponse axis r.cst.js = .ok (r.requestId.map utf16, r.kind.map utf16, r.body.ts) := by
  cases hok : r.body.ok with
  | true =>
    rw [haxis hok]
    exact h.read hid
  | false =>
    cases h with
    | failed e hb =>
      refine readResponse_ok hid (.inr ⟨⟨e.code.value, e.message⟩, ?_, ?_, ?_, ?_⟩)
      · rw [hb]; rfl
      · rw [hb]; rfl
      · rw [hb]; rfl
      · rw [hb, tsErrorBody_cst]; rfl
    | hello info hv hk hb hi => rw [hb] at hok; cases hok
    | submitted v x hv hk hb => rw [hb] at hok; cases hok
    | reconciled v x hv hk hb => rw [hb] at hok; cases hok

/-- Whatever context a frame of the core is read in, what is read is what was written. -/
theorem tsDecodeResponse_reads (hl : (utf8 r.cst.text).length ≤ maxFrameBytes)
    (hid : ∀ id, r.requestId = some id → validRequestId id = true) (hc : r.Consistent) {context : TsContext}
    {x : TsResponse} (h : tsDecodeResponse (utf8 r.cst.text) context = .ok x) :
    x.requestId = r.requestId.map utf16 ∧ x.kind = r.kind.map utf16 ∧ x.body = r.body.ts := by
  have hframe : tsFrameText (utf8 r.cst.text) = .ok (utf16 r.cst.doc.text) := by
    rw [Cst.doc_text]
    exact tsFrameText_utf8 hl r.no_byteOrderMark
  have hscan : tsScanFrame (utf16 r.cst.doc.text) = .ok r.scan := tsScanFrame_doc r.cleanObject
  have hvalue : jsonParseValue (utf16 r.cst.doc.text) = some r.cst.js := parse_doc r.cst.doc
  have hread : readResponse (context.version (r.scan.axis context)).axis r.cst.js =
      .ok (r.requestId.map utf16, r.kind.map utf16, r.body.ts) := by
    have haxis : ∀ a, (context.version a).axis = a := fun _ => rfl
    rw [haxis]
    exact hc.read_on hid fun hok => Response.scan_axis_success hc hok context
  unfold tsDecodeResponse at h
  simp only [hframe, hscan, Except.mapError, bind, Except.bind, r.scan_version, hvalue, hread, pure, Except.pure] at h
  generalize context.version (r.scan.axis context) = expected at h
  generalize correlationFromScan r.scan = recovered at h
  by_cases hv : r.version.wire.toNat ≠ expected.version
  · rw [if_pos hv] at h
    cases h
  · rw [if_neg hv] at h
    obtain rfl := Except.ok.inj h
    exact ⟨rfl, rfl, rfl⟩

end

/-! ## Requests that are sent -/

theorem ascii_notMem_utf8 {c : Char} (hc : c.toNat < 0x80) {t : Text} (h : c ∉ t) : c.toNat.toUInt8 ∉ utf8 t := by
  intro hm
  obtain ⟨d, hd, hb⟩ := List.mem_flatMap.mp hm
  have hbyte : c.toNat.toUInt8.toNat = c.toNat := by
    rw [Nat.toUInt8, UInt8.toNat_ofNat', Nat.mod_eq_of_lt (by omega)]
  by_cases hlow : d.toNat < 0x80
  · rw [utf8EncodeChar_ascii hlow, List.mem_singleton] at hb
    have hsame := congrArg UInt8.toNat hb
    rw [hbyte, Nat.toUInt8, UInt8.toNat_ofNat', Nat.mod_eq_of_lt (by omega)] at hsame
    have : c = d := Char.toNat_inj.mp hsame
    exact h (this ▸ hd)
  · have hhigh := utf8EncodeChar_high (Nat.le_of_not_lt hlow) hb
    omega

theorem lineFeed_utf8 {t : Text} (h : '\n' ∉ t) : lineFeed ∉ utf8 t := ascii_notMem_utf8 (c := '\n') (by decide) h

theorem isFrame_printable {t : Text} (hp : Printable t) (hne : t ≠ []) (hl : (utf8 t).length ≤ 65536) :
    IsFrame (utf8 t ++ [lineFeed]) (utf8 t) where
  stream := rfl
  nonempty he := hne (utf8_inj he)
  bound := hl
  lineFeed := lineFeed_utf8 hp.no_newline
  carriageReturn he := ascii_notMem_utf8 (c := '\r') (by decide) hp.no_return (List.mem_of_getLast? he)

theorem tsEncodeRequest_line [SerdeJson] {v : JsValue} {frame : Text} (h : tsEncodeRequest v = .ok frame) : '\n' ∉ frame := by
  unfold tsEncodeRequest at h
  simp only [bind_eq_ok, ownDataValue_eq_ok] at h
  obtain ⟨ps, hps, idv, -, kv, -, h⟩ := h
  obtain ⟨hplain, -⟩ := assertClosedObject_ok hps
  cases hid : requestId? idv with
  | none =>
    rw [hid] at h
    cases h
  | some u =>
    simp only [hid] at h
    obtain ⟨-, id, rfl, hvalid⟩ := requestId?_ok hid
    cases kv with
    | string kind =>
      simp only [bind_eq_ok] at h
      obtain ⟨payload, hpayload, text, htext, h⟩ := h
      obtain ⟨k, rfl, hcarries, -⟩ := payloadGraph_ok hplain hpayload id
      have hframe : frame = ((⟨id, k⟩ : Request).cstWith payload).text := by
        rw [tsFinishRequestFrame] at h
        split at h
        · cases h
        · rw [← Except.ok.inj h, stringifyWireGraph_ok htext, requestGraph_eq hvalid]
      rw [hframe]
      exact hcarries.frame_written.printable.no_newline
    | _ => cases h

/-- A child that reads a frame from a pipe that carries a line, or the beginning of it, has read the line. -/
theorem readStdin_line {frame : Text} (hline : '\n' ∉ frame) {reads : List Bytes} (hr : ∀ r ∈ reads, r ≠ [])
    (hp : reads.flatten <+: utf8 frame ++ [lineFeed]) {b : Bytes} (h : readStdin reads = .frame b) : b = utf8 frame := by
  rw [readStdin_eq hr, verdict_frame] at h
  obtain ⟨rest, hrest⟩ := hp
  have hbody := congrArg bodyOf hrest
  rw [h.stream, List.append_assoc, bodyOf_append h.lineFeed, bodyOf_append (lineFeed_utf8 hline)] at hbody
  simpa [bodyOf_lineFeed] using hbody

/-! ## Conversations -/

/-- The client of the child `h` sent the request `v` and saw the events of `launch`: the child has read what was sent or
the beginning of it, and an end with code 0 is seen when the child has exited so and all of its output was seen. -/
structure Conversation (h : Hosted) (v : JsValue) (launch : Launch) : Prop where
  sent : ∃ frame, tsEncodeRequest v = .ok frame ∧ ∀ stdin, h.stdin = .ok stdin → ∃ reads : List Bytes,
    (∀ r ∈ reads, r ≠ []) ∧ reads.flatten <+: utf8 frame ++ [lineFeed] ∧ stdin = readStdin reads
  seen : ∀ before after, launch = .spawned (before ++ .close (some 0) none :: after) →
    h.child.main = .exited exitOk ∧ h.child.stdout = (outputOf before).flatten

section
variable {h : Hosted} {v : JsValue} {launch : Launch} {axis : TsAxis} {x : TsResponse}

/-- What a client receives, the child has answered. -/
theorem Conversation.received [SerdeJson] (hc : Conversation h v launch) (hs : h.Sound) (hx : Received axis launch x) :
    ∃ response, Origin Prog.Logs (executeRequest true h.clock) h.elapsed h.stdin [] h.child.gate h.child.worker
        h.child.state response ∧
      x.requestId = response.requestId.map utf16 ∧ x.kind = response.kind.map utf16 ∧ x.body = response.body.ts := by
  obtain ⟨before, after, body, hlaunch, -, hframe, hdecode⟩ := hx
  obtain ⟨hmain, hstdout⟩ := hc.seen before after hlaunch
  have hp := hs.printed
  rw [hmain, hstdout, hframe.stream] at hp
  generalize hout : body ++ [lineFeed] = out at hp
  cases hp with
  | silent hne _ => exact absurd rfl hne
  | stopped hencode hline horigin _ hrest =>
    rw [hrest rfl, List.append_nil, ← hout] at hline
    obtain ⟨hid, -, -, hcheck, hl, rfl⟩ := encodeResponse_eq_ok.mp hencode
    obtain rfl := List.append_cancel_right hline
    exact ⟨_, horigin, tsDecodeResponse_reads hl hid (consistent_of_check hcheck) hdecode⟩

/-- If the child has read a frame, it is the request that was sent. -/
theorem Conversation.request [SerdeJson] (hc : Conversation h v launch) : ∃ request : Request, request.ReadFrom v ∧
    ∀ frame, h.stdin = .ok (.frame frame) → decodeRequest frame = .ok request := by
  obtain ⟨text, hencode, hsent⟩ := hc.sent
  obtain ⟨request, hdecode, hread⟩ := tsEncodeRequest_decodes hencode
  refine ⟨request, hread, fun frame hin => ?_⟩
  obtain ⟨reads, hne, hp, hr⟩ := hsent _ hin
  rw [readStdin_line (tsEncodeRequest_line hencode) hne hp hr.symm]
  exact hdecode

/-- A response with an address tells the answer that the history has of the child. -/
theorem Conversation.answered [SerdeJson] (hc : Conversation h v launch) (hs : h.Sound) {σ : System} {pid : Nat}
    (hst : h.Standing σ pid) {request : Request} {query : Query}
    (hsame : ∀ frame, h.stdin = .ok (.frame frame) → decodeRequest frame = .ok request)
    (hq : request.kind.query = some query) (hx : Received axis launch x) (hid : x.requestId ≠ none) :
    ∃ a body, (pid, query, a) ∈ σ.history ∧ Said query a body ∧ x.body = body.ts := by
  obtain ⟨response, horigin, hxid, -, hxbody⟩ := hc.received hs hx
  cases horigin with
  | invalid _ _ => exact absurd hxid hid
  | tooLarge _ _ => exact absurd hxid hid
  | late _ _ => exact absurd hxid hid
  | timeoutBefore _ _ => exact absurd hxid hid
  | timeoutAfter _ _ _ _ => exact absurd hxid hid
  | rejected hin hd _ =>
    rw [hsame _ hin] at hd
    cases hd
  | executed hin hd hg hsteps hw =>
    cases (hsame _ hin).symm.trans hd
    cases hst with
    | idle _ _ ht =>
      obtain ⟨a, ha, hsaid⟩ := ht _ _ _ _ hg hin hd hq hsteps
      exact ⟨a, _, ha, hsaid, hxbody⟩
    | greeting hx _ _ => exact absurd hx (hw _ _)
    | running hx _ _ _ _ => exact absurd hx (hw _ _)
    | dead hx _ _ => exact absurd hx (hw _ _)

end

/-! ## Conclusions -/

def ReconciliationDisposition.Holds (es : List JournalEntry) (signal : WorkflowSignal) :
    ReconciliationDisposition → Prop
  | .accepted => .signalAccepted signal ∈ eventsOf es
  | .conflict => InConflict es signal
  | .absent => Fresh es signal

section
variable (first : List JournalEntry) (σ : System) (es : List JournalEntry) (pid : Nat)

/-- What the outcome of a submission says: of the answer of the process `pid`, and of the entries before and after. -/
def SubmitHolds (command : Command) : SubmitOutcome → Prop
  | .settled .accepted _ => ∃ before entry after, Stored before command entry after ∧
      σ.Placed first es pid (.submit command) (.submitted (.ok (.accepted entry))) before after
  | .settled .duplicate _ => ∃ before, .signalAccepted command.signal ∈ eventsOf before ∧
      σ.Placed first es pid (.submit command) (.submitted (.ok (.duplicate command.signal.eventId))) before before
  | .rejected code _ => ∃ before e, code = codes (handleError e).code.value ∧
      σ.Placed first es pid (.submit command) (.submitted (.error e)) before before
  | .unknown _ => True

def ReconcileHolds (signal : WorkflowSignal) : ReconcileOutcome → Prop
  | .settled disposition _ => ∃ before r, disposition.Holds before signal ∧
      σ.Placed first es pid (.reconcile signal) (.reconciled (.ok r)) before before
  | .unknown _ => True

end

section
variable {first es : List JournalEntry} {σ : System} {pid : Nat} {command : Command} {signal : WorkflowSignal}
  {a : Answer} {body : ResponseBody}

/-- A code that rejects is not the one of an unknown outcome: nothing was stored. -/
theorem SubmitTruthful.rejects {before after : List JournalEntry} {e : HandleError}
    (h : SubmitTruthful before command after (.error e)) (hr : Rejects (codes (handleError e).code.value)) :
    after = before := by
  cases e with
  | rejected e => exact h.2
  | replay e => exact h.2
  | clock e => exact h.2.2
  | journal e =>
    cases e with
    | outcomeUnknown d =>
      have hunknown : codes "JOURNAL_OUTCOME_UNKNOWN".toList ∈ unknownOutcomeCodes.map codes := by decide
      exact absurd hunknown hr.2
    | _ => exact h.2 rfl

theorem ReconcileTruthful.holds {before : List JournalEntry} {r : SignalReconciliation}
    (h : ReconcileTruthful before signal (.ok r)) : (reconciliationDisposition r).Holds before signal := by
  cases r with
  | accepted => exact h
  | conflict => exact h
  | absent => exact h

theorem submit_holds [SerdeJson] (hl : σ.Linearized first es) (hm : (pid, .submit command, a) ∈ σ.history)
    (hsaid : Said (.submit command) a body) {requestId eventId : Units} {x : TsResponse} (hx : x.body = body.ts) :
    SubmitHolds first σ es pid command (submitOutcome requestId eventId (.response x)) := by
  obtain ⟨before, after, hplaced⟩ := hl.placed hm
  have htrue := hplaced.truthful
  generalize ho : submitOutcome requestId eventId (.response x) = outcome
  cases hsaid with
  | submit r =>
    cases outcome with
    | unknown o => trivial
    | settled d e =>
      obtain ⟨-, hr⟩ := submitOutcome_settled.mp ho
      obtain rfl := Exchange.response.inj hr
      cases r with
      | error e => cases hx
      | ok outcome =>
        cases outcome with
        | accepted entry =>
          cases hx
          exact ⟨before, entry, after, htrue, hplaced⟩
        | duplicate id =>
          cases hx
          obtain ⟨-, rfl, hmem, rfl⟩ := htrue
          exact ⟨_, hmem, hplaced⟩
    | rejected code message =>
      obtain ⟨y, hy, hrej⟩ := submitOutcome_rejected.mp ho
      obtain rfl := Exchange.response.inj hy
      have hbody := hrej.body
      rw [hx] at hbody
      cases r with
      | ok outcome =>
        cases outcome with
        | accepted entry => cases hbody
        | duplicate id => cases hbody
      | error e =>
        have hcode : code = codes (handleError e).code.value := by
          rw [codes_eq_utf16 (isAscii_of_plain (handleError e).code.plain)]
          exact (TsResponseBody.error.inj hbody).1.symm
        have hrejects := hrej.rejects
        rw [hcode] at hrejects
        obtain rfl : after = before := SubmitTruthful.rejects htrue hrejects
        exact ⟨_, e, hcode, hplaced⟩

theorem reconcile_holds [SerdeJson] (hl : σ.Linearized first es) (hm : (pid, .reconcile signal, a) ∈ σ.history)
    (hsaid : Said (.reconcile signal) a body) {requestId eventId : Units} {x : TsResponse} (hx : x.body = body.ts) :
    ReconcileHolds first σ es pid signal (reconcileOutcome requestId eventId (.response x)) := by
  obtain ⟨before, after, hplaced⟩ := hl.placed hm
  generalize ho : reconcileOutcome requestId eventId (.response x) = outcome
  cases hsaid with
  | reconcile r =>
    cases outcome with
    | unknown o => trivial
    | settled d e =>
      obtain ⟨-, hr⟩ := reconcileOutcome_settled.mp ho
      obtain rfl := Exchange.response.inj hr
      cases r with
      | error e => cases hx
      | ok r =>
        cases hx
        obtain ⟨htrue, rfl⟩ := hplaced.truthful
        exact ⟨_, r, ReconcileTruthful.holds htrue, hplaced⟩

theorem submitOutcome_unaddressed {requestId eventId : Units} {x : TsResponse} (h : x.requestId = none) :
    ∃ o, submitOutcome requestId eventId (.response x) = .unknown o := by
  simp only [submitOutcome, checkCorrelation, h]
  exact ⟨_, rfl⟩

theorem reconcileOutcome_unaddressed {requestId eventId : Units} {x : TsResponse} (h : x.requestId = none) :
    ∃ o, reconcileOutcome requestId eventId (.response x) = .unknown o := by
  simp only [reconcileOutcome, checkCorrelation, h]
  exact ⟨_, rfl⟩

end

/-- Any number of children on one store, interleaved in any order, failing in any way and dying at any point; one of
them has a client. What the children do is a run of processes, in whose history each child that executed a request has
its answer once, and nobody else has one; the answers are those of one request after the other, true when they were
given. Whatever the client settles with is the answer of its own child to the request that it sent: accepted means
stored by it, duplicate means that the signal was there before, rejected means that nothing was stored, and a
reconciliation tells the entries at its place in the history. All of these entries are committed. -/
theorem client_conclusions_hold [SerdeJson] {l : Nat} {allow : OpError → Prop} {fs : Fs} (hs : Served l fs)
    (hcompat : fs.Compatible) {ρ : Host} (hr : Host.Reaches allow (Host.idle fs) ρ) {pid : Nat} {h : Hosted}
    (hh : ρ.children pid = some h) {v : JsValue} {launch : Launch} (hc : Conversation h v launch) {timeoutMs : Nat}
    {x : Exchange} (hx : exchange timeoutMs .acceptedOperation launch = some x) :
    ∃ (request : Request) (σ : System) (es : List JournalEntry), request.ReadFrom v ∧
      System.Reaches allow (System.idle fs) σ ∧ ρ.Matches σ ∧ σ.Linearized fs.committed es ∧ es <+: ρ.fs.committed ∧
      (∀ command, request.kind = .submitWorkflowSignal command → SubmitHolds fs.committed σ es pid command
        (submitOutcome (codes request.requestId) (codes command.signal.eventId.value) x)) ∧
      ∀ signal, request.kind = .reconcileWorkflowSignal signal → ReconcileHolds fs.committed σ es pid signal
        (reconcileOutcome (codes request.requestId) (codes signal.eventId.value) x) := by
  obtain ⟨request, hread, hsame⟩ := hc.request
  obtain ⟨σ, hreach, hm⟩ := (Host.Matches.idle fs).reaches hr
  obtain ⟨es, writer, -, hsound⟩ := (System.Sound.idle hs hcompat).reaches hreach
  have hlin := hsound.linearized
  refine ⟨request, σ, es, hread, hreach, hm, hlin, hm.fs ▸ hlin.kept, fun command hk => ?_, fun signal hk => ?_⟩
  · cases x with
    | unknown o => trivial
    | response y =>
      by_cases hid : y.requestId = none
      · obtain ⟨o, ho⟩ := submitOutcome_unaddressed hid
        rw [ho]
        trivial
      · have hq : request.kind.query = some (.submit command) := by rw [hk]; rfl
        obtain ⟨a, body, ha, hsaid, hbody⟩ := hc.answered (hm.sound pid h hh) (hm.standing pid h hh) hsame hq
          (exchange_response_iff.mp hx) hid
        exact submit_holds hlin ha hsaid hbody
  · cases x with
    | unknown o => trivial
    | response y =>
      by_cases hid : y.requestId = none
      · obtain ⟨o, ho⟩ := reconcileOutcome_unaddressed hid
        rw [ho]
        trivial
      · have hq : request.kind.query = some (.reconcile signal) := by rw [hk]; rfl
        obtain ⟨a, body, ha, hsaid, hbody⟩ := hc.answered (hm.sound pid h hh) (hm.standing pid h hh) hsame hq
          (exchange_response_iff.mp hx) hid
        exact reconcile_holds hlin ha hsaid hbody

/-! ## A submission from end to end -/

def samplePayload : JsValue := jsObject [("expected".toList, jsObject sampleExpected.ts.members),
  ("signal".toList, jsObject (("eventId".toList, .string (codes sampleSubmission.eventId.value)) ::
    ("kind".toList, .string (codes sampleSubmission.parts.kind.wire)) :: sampleExpected.ts.members))]

def sampleRequest : Request := ⟨"r-1".toList, .submitWorkflowSignal sampleCommand⟩

def sampleSource : JsValue := submitRequest (codes sampleRequest.requestId) samplePayload

def sampleResult : SignalResult := ⟨.accepted, sampleSubmission.eventId⟩

def sampleResponse : Response := answered sampleRequest (.workflowSignal sampleResult)

theorem sampleResult_value : encodeResult sampleResult =
    jsonStruct resultFields [some (jsonString "accepted".toList), some (jsonString ['e'])] := by
  have hsorted : sortMembers (presentMembers resultFields [some (jsonString "accepted".toList), some (jsonString ['e'])]) =
      presentMembers resultFields [some (jsonString "accepted".toList), some (jsonString ['e'])] :=
    List.mergeSort_of_pairwise (by decide)
  show jsonMap resultFields [some (jsonString "accepted".toList), some (jsonString ['e'])] = _
  rw [jsonMap, hsorted]
  rfl

theorem sampleResponse_length : (utf8 sampleResponse.cst.text).length ≤ maxFrameBytes := by
  have hvalue : sampleResponse.cst = jsonStruct responseFields [some (jsonString protocolName),
      some (jsonNat 1), some (jsonString sampleRequest.requestId), some (jsonString kindWorkflowSignalSubmit),
      some (.bool true), some (encodeResult sampleResult), none] := rfl
  rw [hvalue, sampleResult_value]
  decide +kernel

theorem sampleResponse_encodes : encodeResponse sampleResponse = .ok sampleResponse.cst.text := by
  refine encodeResponse_eq_ok.mpr ⟨fun id h => ?_, rfl, rfl, rfl, sampleResponse_length, rfl⟩
  obtain rfl := Option.some.inj h
  rfl

theorem sampleResponse_decodes :
    tsDecodeResponse (utf8 sampleResponse.cst.text) (ExchangeState.clientContext .acceptedOperation) =
      .ok (submitAnswer (codes sampleRequest.requestId) (codes sampleSubmission.eventId.value) .accepted) := by
  obtain ⟨hid, -, -, hcheck, hl, -⟩ := encodeResponse_eq_ok.mp sampleResponse_encodes
  exact tsDecodeResponse_cst hl hid (consistent_of_check hcheck) (fun e he => by cases he) rfl rfl

theorem sampleRequest_exec [SerdeJson] : ∃ u, (executeRequest true (.ok sampleTime) sampleRequest.kind).exec (Op.run 7) newStore =
    (.workflowSignal sampleResult, u) ∧ u.committed = [sampleEntry] := by
  obtain ⟨u, hu, -, hm⟩ := exec_submitRequest (.ok sampleTime) sampleCommand (newStore_mirrors.exec_openWriter rfl)
    (newStore_mirrors.withLocks [⟨7, 0, true⟩])
  have hanswer : (handleWorkflowSignal sampleCommand).exec (MemoryJournal.world (.ok sampleTime)).run .new =
      (.ok (.accepted sampleEntry), ⟨[sampleEntry], [], []⟩) := rfl
  rw [hanswer] at hu hm
  exact ⟨u, hu, hm.published.committed⟩

theorem sampleRequest_frame [SerdeJson] : ∃ frame, tsEncodeRequest sampleSource = .ok frame ∧
    decodeRequest (utf8 frame) = .ok sampleRequest ∧ IsFrame (utf8 frame ++ [lineFeed]) (utf8 frame) := by
  have hvalid : validRequestId sampleRequest.requestId = true := rfl
  have hcarries : sampleRequest.Carries (TsSubmit.graph ⟨sampleExpected.ts, sampleSubmission.parts.ts⟩) :=
    carries_submit _ _ _
  have hbuilt : buildWorkflowSignalSubmit samplePayload = .ok ⟨sampleExpected.ts, sampleSubmission.parts.ts⟩ := rfl
  have hframe := isFrame_printable hcarries.frame_written.printable
    (List.ne_nil_of_length_pos (Cst.length_pos _)) (hcarries.frame_short hvalid).utf8_length
  exact ⟨_, encodeSubmit_ok hvalid hbuilt hcarries, decodeRequest_cst hcarries hvalid, hframe⟩

/-! ### One child -/

def sampleTimeout : Response := Child.timeoutResponse 15000 .afterDispatch

theorem sampleTimeout_encodes : encodeResponse sampleTimeout = .ok sampleTimeout.cst.text :=
  encodeResponse_eq_ok.mpr ⟨(fun _ h => by cases h), rfl, rfl, rfl, by decide +kernel, rfl⟩

open Sample in
/-- Two runs of a child that wins the gate and stores the signal: it answers, or its watchdog reports the timeout. -/
theorem child_interleavings_sound_sample : ∃ (frame : Text) (c c' : Child Op.Res Fs),
    let step := Op.Act 7 fun _ => True
    let execute := executeRequest true (.ok sampleTime)
    let stdin := .ok (.frame (utf8 frame))
    decodeRequest (utf8 frame) = .ok sampleRequest ∧
    Child.Reaches step execute 15000 stdin (.start newStore) c ∧ c.main = .exited exitOk ∧ c.worker = .sent ∧
      c.state.committed = [sampleEntry] ∧
      Child.Reaches step execute 15000 stdin (.start newStore) c' ∧ c'.main = .exited exitOk ∧
      c'.worker = .executing sampleRequest (.ret (.workflowSignal sampleResult)) ∧ c'.state.committed = [sampleEntry] ∧
      (∃ response line, encodeResponse response = .ok line ∧ c.stdout = utf8 line ++ [lineFeed] ∧
        Origin step execute 15000 stdin newStore c.gate c.worker c.state response) ∧
      ∃ response line, encodeResponse response = .ok line ∧ c'.stdout = utf8 line ++ [lineFeed] ∧
        Origin step execute 15000 stdin newStore c'.gate c'.worker c'.state response := by
  obtain ⟨frame, -, hdecode, -⟩ := sampleRequest_frame
  obtain ⟨u, hexec, hcommitted⟩ := sampleRequest_exec
  have hact : ∀ o s, Op.Act 7 (fun _ => True) o s (Op.run 7 o s).1 (Op.run 7 o s).2 := fun _ _ => ⟨.full, .normal, rfl⟩
  have hrun : Child.Reaches _ (executeRequest true (.ok sampleTime)) 15000 _ _ _ :=
    Child.reaches_executed hact hdecode hexec
  have hanswer := hrun.trans (Child.reaches_written sampleResponse_encodes)
  have htimeout := hrun.trans (Child.reaches_timeout sampleTimeout_encodes)
  have hframe : ∀ {c : Child Op.Res Fs}, c.main = .exited exitOk → (c.stdout = [] ∧ c.main ≠ .exited exitOk ∨
      ∃ response line, encodeResponse response = .ok line ∧ c.stdout <+: utf8 line ++ [lineFeed] ∧
        (c.main = .exited exitOk → c.stdout = utf8 line ++ [lineFeed]) ∧
        Origin (Op.Act 7 fun _ => True) (executeRequest true (.ok sampleTime)) 15000 (.ok (.frame (utf8 frame))) newStore
          c.gate c.worker c.state response) →
      ∃ response line, encodeResponse response = .ok line ∧ c.stdout = utf8 line ++ [lineFeed] ∧
        Origin (Op.Act 7 fun _ => True) (executeRequest true (.ok sampleTime)) 15000 (.ok (.frame (utf8 frame))) newStore
          c.gate c.worker c.state response := by
    rintro c hm (⟨-, h⟩ | ⟨response, line, he, -, hs, ho⟩)
    · exact absurd hm h
    · exact ⟨response, line, he, hs hm, ho⟩
  exact ⟨frame, _, _, hdecode, hanswer, rfl, rfl, hcommitted, htimeout, rfl, rfl, hcommitted,
    hframe rfl (child_interleavings_sound hanswer).1, hframe rfl (child_interleavings_sound htimeout).1⟩

/-! ### Its client -/

def sampleHosted (frame : Text) (log : List Reply) : Hosted := ⟨.ok (.frame (utf8 frame)), .ok sampleTime, 15000,
  ⟨.dispatching, .sent, none, .exited exitOk, utf8 sampleResponse.cst.text ++ [lineFeed], log⟩⟩

def sampleEvents : List ChildEvent :=
  [.data (utf8 sampleResponse.cst.text), .exit, .stdinError (codes "EPIPE".toList), .data [lineFeed]]

def sampleLaunch : Launch := .spawned (sampleEvents ++ [.close (some 0) none])

theorem sampleLaunch_before {before after : List ChildEvent}
    (h : sampleLaunch = .spawned (before ++ .close (some 0) none :: after)) : before = sampleEvents := by
  have he := Launch.spawned.inj h
  rcases before with _ | ⟨a, _ | ⟨b, _ | ⟨c, _ | ⟨d, _ | ⟨e, rest⟩⟩⟩⟩⟩
  all_goals simp [sampleEvents] at he
  obtain ⟨rfl, rfl, rfl, rfl, -⟩ := he
  rfl

open Sample in
/-- A client submits, one child answers in two chunks, and the client may conclude that the signal is committed. -/
theorem client_conclusions_hold_sample : ∃ (ρ : Host) (h : Hosted) (launch : Launch) (x : Exchange),
    Host.Reaches (fun _ => True) (Host.idle newStore) ρ ∧ ρ.children 7 = some h ∧ Conversation h sampleSource launch ∧
    exchange 1000 .acceptedOperation launch = some x ∧
    submitOutcome (codes sampleRequest.requestId) (codes sampleSubmission.eventId.value) x =
      .settled .accepted (codes sampleSubmission.eventId.value) ∧
    ρ.fs.committed = [sampleEntry] ∧ ∃ (request : Request) (σ : System) (es : List JournalEntry),
      request.ReadFrom sampleSource ∧ System.Reaches (fun _ => True) (System.idle newStore) σ ∧ ρ.Matches σ ∧
      σ.Linearized newStore.committed es := by
  obtain ⟨frame, hencode, hdecode, hframe⟩ := sampleRequest_frame
  obtain ⟨u, hexec, hcommitted⟩ := sampleRequest_exec
  obtain ⟨log, hrun⟩ : ∃ log, Host.Reaches (fun _ => True) (Host.idle newStore) ⟨u.release 7,
      (Host.idle newStore).set 7 (sampleHosted frame log)⟩ :=
    Host.reaches_answer 15000 hdecode (by decide) rfl hexec sampleResponse_encodes
  have hresponse : IsFrame (utf8 sampleResponse.cst.text ++ [lineFeed]) (utf8 sampleResponse.cst.text) :=
    isFrame_printable sampleResponse.written.printable (List.ne_nil_of_length_pos (Cst.length_pos _))
      sampleResponse_length
  have hchild : Host.children ⟨u.release 7, (Host.idle newStore).set 7 (sampleHosted frame log)⟩ 7 =
      some (sampleHosted frame log) := rfl
  have hc : Conversation (sampleHosted frame log) sampleSource sampleLaunch := by
    refine ⟨⟨frame, hencode, fun stdin hin => ⟨[utf8 frame ++ [lineFeed]], ?_, ?_, ?_⟩⟩, fun before after he => ⟨rfl, ?_⟩⟩
    · simp
    · simp
    · obtain rfl := Except.ok.inj hin
      rw [readStdin_eq (by simp), List.flatten_singleton, verdict_frame.mpr hframe]
    · rw [sampleLaunch_before he]
      rfl
  have hx : exchange 1000 .acceptedOperation sampleLaunch =
      some (.response (submitAnswer (codes sampleRequest.requestId) (codes sampleSubmission.eventId.value) .accepted)) := by
    refine exchange_response_iff.mpr ⟨sampleEvents, [], _, rfl, ?_, hresponse, sampleResponse_decodes⟩
    intro e he hs
    simp only [sampleEvents, List.mem_cons, List.not_mem_nil, or_false] at he
    rcases he with rfl | rfl | rfl | rfl
    all_goals exact hs
  obtain ⟨request, σ, es, hread, hreach, hm, hlin, -⟩ := client_conclusions_hold newStore_mirrors.served (.of_nil rfl)
    hrun hchild hc hx
  exact ⟨_, _, _, _, hrun, hchild, hc, hx, submitOutcome_settled.mpr ⟨rfl, rfl⟩, hcommitted, request, σ, es,
    hread, hreach, hm, hlin⟩

end Aizign
