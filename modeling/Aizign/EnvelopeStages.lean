import Aizign.EnvelopeSound

/-!
# The stages of request decoding

What can be wrong with a request frame, one defect for each stage of decoding
and each stated on the frame alone (`Stage.Defect`). `decode_request` reports the
first stage that has one, whatever the later stages would have found.
-/

namespace Aizign

open ErrorCodes

/-! ## The stages -/

inductive Stage
  | size
  | grammar
  | lexical
  | protocol
  | version
  | axis
  | envelope
  | registry
  | payload
  | expectation
  | signal
  deriving DecidableEq

def Stage.order : Stage → Nat
  | .size => 0
  | .grammar => 1
  | .lexical => 2
  | .protocol => 3
  | .version => 4
  | .axis => 5
  | .envelope => 6
  | .registry => 7
  | .payload => 8
  | .expectation => 9
  | .signal => 10

/-! ## Properties of a JSON text -/

def Doc.HasString (d : Doc) (name t : Text) : Prop :=
  ∃ b, lastMember d.members name = some (.str b) ∧ strValue b = some t

/-- The version token is the canonical spelling of an unsigned 32-bit integer. -/
def Doc.HasVersion (d : Doc) (v : UInt32) : Prop :=
  ∃ n, lastMember d.members versionKey = some (.num n) ∧ n.tok = decimal v.toNat

def Doc.HasKind (d : Doc) (kind : RegisteredKind) : Prop :=
  ∃ name, d.HasString kindKey name ∧ registeredKind name = some kind

def Doc.HasPayload (d : Doc) (payload : Cst) : Prop := lastMember d.members payloadKey = some payload

/-- Exactly the five members of a request, each of its type, and a well-formed request id. -/
def Doc.ClosedEnvelope (d : Doc) : Prop :=
  ∃ p v r k m id, d.value.HasMembers [(protocolKey, .str p), (versionKey, .num v), (requestIdKey, .str r),
      (kindKey, .str k), (payloadKey, m)] ∧
    m.members?.isSome = true ∧ strValue r = some id ∧ validRequestId id = true

def Cst.Structured [SerdeJson] (payload : Cst) : RegisteredKind → Prop
  | .hello => payload.members? = some []
  | .workflowSignalSubmit => ∃ dto, SubmitPayload.de payload = .ok dto
  | .workflowSignalReconcile => ∃ dto, ReconcilePayload.de payload = .ok dto

structure Cst.FitsPayload [SerdeJson] (payload : Cst) (kind : RegisteredKind) : Prop where
  depth : payload.nesting < envelopeDepth
  range : ∀ n, payload.Within (.num n) → ∃ v : UInt32, n.tok = decimal v.toNat
  structured : payload.Structured kind

inductive Cst.NamesSignal [SerdeJson] (payload : Cst) : RegisteredKind → SignalDto → Prop
  | submit {dto} (h : SubmitPayload.de payload = .ok dto) : NamesSignal payload .workflowSignalSubmit dto.signal
  | reconcile {dto} (h : ReconcilePayload.de payload = .ok dto) : NamesSignal payload .workflowSignalReconcile dto

def Doc.Defect [SerdeJson] (d : Doc) : Stage → Prop
  | .size | .grammar => False
  | .lexical => ∃ f, d.Offends f
  | .protocol => ¬d.HasString protocolKey protocolName
  | .version => ∀ v, ¬d.HasVersion v
  | .axis => ∃ kind v, d.HasString kindKey kind ∧ d.HasVersion v ∧ v ≠ acceptedVersion kind
  | .envelope => ¬d.ClosedEnvelope
  | .registry => ∃ kind, d.HasString kindKey kind ∧ registeredKind kind = none
  | .payload => ∃ kind payload, d.HasKind kind ∧ d.HasPayload payload ∧ ¬payload.FitsPayload kind
  | .expectation => ∃ payload dto, d.HasKind .workflowSignalSubmit ∧ d.HasPayload payload ∧
      SubmitPayload.de payload = .ok dto ∧ ∀ a, dto.expected.assignment ≠ .ok a
  | .signal => ∃ kind payload dto, d.HasKind kind ∧ d.HasPayload payload ∧ payload.NamesSignal kind dto ∧
      ∀ s, decodeSignal dto ≠ .ok s

def Stage.Defect [SerdeJson] (frame : Bytes) : Stage → Prop
  | .size => maxFrameBytes < frame.length
  | .grammar => ∀ d : Doc, frame = utf8 d.text → d.value.members?.isSome = false
  | stage => ∃ d : Doc, frame = utf8 d.text ∧ d.Defect stage

def Stage.First [SerdeJson] (frame : Bytes) (stage : Stage) : Prop :=
  stage.Defect frame ∧ ∀ earlier : Stage, earlier.order < stage.order → ¬earlier.Defect frame

/-! ## What a stage reports -/

/-- Whether the root names are well-formed, so that values can be recovered under them. -/
def Doc.correlated (d : Doc) : Bool := d.members.all fun m => (strValue m.1).isSome

def Doc.recoveredId (d : Doc) : Option Text :=
  if d.correlated then (probeString (d.probed requestIdKey)).filter validRequestId else none

def Doc.recoveredKind (d : Doc) : Option Text := if d.correlated then probeString (d.probed kindKey) else none

def Doc.acceptedAxis (d : Doc) : ResponseVersion :=
  if d.recoveredKind.any (· != kindHello) then .operation else .currentBootstrap

def Doc.answerAxis (d : Doc) (stage : Stage) : ResponseVersion :=
  if stage.order ≤ Stage.axis.order then .currentBootstrap else d.acceptedAxis

def Doc.Coded (d : Doc) (code : ShortErrorCode) : Stage → Prop
  | .size | .grammar => False
  | .lexical => ∃ f, d.Offends f ∧ (∀ g, d.Offends g → f.index ≤ g.index) ∧
      code = if f.kind = .noncanonicalNumber ∧ f.inPayload then invalidPayload else invalidEnvelope
  | .protocol | .version | .envelope => code = invalidEnvelope
  | .axis => code = protocolVersionUnsupported
  | .registry => code = unknownKind
  | .payload => code = invalidPayload
  | .expectation => code = invalidExpectation
  | .signal => code = invalidSignal

def Stage.Reports (frame : Bytes) (f : DecodeFailure) : Stage → Prop
  | .size => f.requestId = none ∧ f.kind = none ∧ f.responseVersion = .currentBootstrap ∧ f.error.code = requestTooLarge
  | .grammar =>
    f.requestId = none ∧ f.kind = none ∧ f.responseVersion = .currentBootstrap ∧ f.error.code = invalidEnvelope
  | stage => ∃ d : Doc, frame = utf8 d.text ∧ f.requestId = d.recoveredId ∧ f.kind = d.recoveredKind ∧
      f.responseVersion = d.answerAxis stage ∧ d.Coded f.error.code stage

/-! ## One text, one tree -/

theorem doc_inj {d d' : Doc} (h : utf8 d.text = utf8 d'.text) : d = d' := by
  have := parse_text d
  rw [utf8_inj h, parse_text] at this
  exact (Option.some.inj this).symm

theorem on_doc {d : Doc} {p : Doc → Prop} : (∃ d' : Doc, utf8 d.text = utf8 d'.text ∧ p d') ↔ p d := by
  constructor
  · rintro ⟨d', he, hp⟩
    rw [doc_inj he]
    exact hp
  · exact fun hp => ⟨d, rfl, hp⟩

theorem defect_doc [SerdeJson] {d : Doc} {stage : Stage} (h : Stage.grammar.order < stage.order) :
    stage.Defect (utf8 d.text) ↔ d.Defect stage := by
  cases stage with
  | size => cases h
  | grammar => exact absurd h (Nat.lt_irrefl _)
  | _ => exact on_doc

/-- A byte-order mark does not start a JSON text. -/
theorem head_ne_byteOrderMark (d : Doc) : d.text.head? ≠ some byteOrderMark := by
  obtain ⟨c, r, hc, h₁, h₂, -⟩ := d.value.head_printable
  have hbom : byteOrderMark.toNat = 0xfeff := rfl
  rw [Doc.text]
  cases hl : d.lead.chars with
  | nil =>
    rw [List.nil_append, hc]
    intro he
    have : c = byteOrderMark := Option.some.inj he
    rw [this] at h₂
    omega
  | cons w ws =>
    intro he
    have hw : w = byteOrderMark := Option.some.inj he
    have hall := d.lead.ok
    rw [hl, hw] at hall
    revert hall
    simp [isWs, byteOrderMark]

/-! ## The probe of a readable frame -/

theorem failure_eq_some (d : Doc) {f : Failure} :
    (scanJsonTokens d.text).failure = some f ↔ d.Offends f ∧ ∀ g, d.Offends g → f.index ≤ g.index := by
  rw [scanJsonTokens_doc]
  exact d.head?_failures

theorem safe_iff (d : Doc) : (scanJsonTokens d.text).correlationSafety = .safe ↔ d.correlated = true := by
  have hs : (scanJsonTokens d.text).correlationSafety = .suppressed ↔ d.correlated = false := by
    rw [scanJsonTokens_doc, foldl_safetyStep, Doc.correlated, List.all_eq_false]
    simp
  rw [← Bool.not_eq_false, ← hs]
  cases (scanJsonTokens d.text).correlationSafety <;> simp

def Doc.recovered (d : Doc) (axis : ResponseVersion) : Recovered := (scanJsonTokens d.text).recovered axis

theorem Doc.recovered_requestId (d : Doc) (axis : ResponseVersion) : (d.recovered axis).requestId = d.recoveredId := by
  simp only [Doc.recovered, Scan.recovered, Doc.recoveredId, safe_iff, topLevelValues_eq]

theorem Doc.recovered_kind (d : Doc) (axis : ResponseVersion) : (d.recovered axis).kind = d.recoveredKind := by
  simp only [Doc.recovered, Scan.recovered, Doc.recoveredKind, safe_iff, topLevelValues_eq]

/-- The last step of the probe: the version of the axis that the kind selects. -/
def axisGate (r : Recovered) (version : UInt32) : Except DecodeFailure Recovered :=
  match r.kind with
  | none => .ok r
  | some kind =>
    if version = acceptedVersion kind then
      if kind = kindHello then .ok r
      else .ok { r with responseVersion := .acceptedOperation (acceptedVersion kind) }
    else .error (r.fail (unsupportedVersion version (acceptedVersion kind)))

theorem probe_doc {d : Doc} (hl : (utf8 d.text).length ≤ maxFrameBytes) (ho : d.value.members?.isSome = true) :
    probe (utf8 d.text) = (scanJsonTokens d.text).version.mapError (d.recovered .currentBootstrap).fail >>=
      axisGate (d.recovered .currentBootstrap) := by
  rw [probe, frameText_eq_ok.mpr ⟨hl, rfl, head_ne_byteOrderMark d⟩]
  change (Except.mapError _ (scanFrame d.text) >>= _) = _
  rw [scanFrame_eq_ok.mpr ⟨d, rfl, ho, rfl⟩]
  rfl

def FailsWith [SerdeJson] (frame : Bytes) (r : Recovered) (code : ShortErrorCode) : Prop :=
  ∃ message, decodeRequest frame = .error (.failure (r.fail ⟨code, message⟩))

theorem decodeRequest_of_probe [SerdeJson] {frame : Bytes} {f : DecodeFailure} (h : probe frame = .error f) :
    decodeRequest frame = .error (.failure f) := by
  rw [decodeRequest, h]
  rfl

/-- A failure of the lexical gate, the protocol name or the version token. -/
theorem fails_version [SerdeJson] {d : Doc} (hl : (utf8 d.text).length ≤ maxFrameBytes) (ho : d.value.members?.isSome = true)
    {e : ProtocolError} (hv : (scanJsonTokens d.text).version = .error e) :
    FailsWith (utf8 d.text) (d.recovered .currentBootstrap) e.code := by
  refine ⟨e.message, decodeRequest_of_probe ?_⟩
  rw [probe_doc hl ho, hv]
  rfl

theorem fails_lexical [SerdeJson] {d : Doc} (hl : (utf8 d.text).length ≤ maxFrameBytes) (ho : d.value.members?.isSome = true)
    (h : d.Defect .lexical) :
    ∃ code, d.Coded code .lexical ∧ FailsWith (utf8 d.text) (d.recovered .currentBootstrap) code := by
  cases hf : (scanJsonTokens d.text).failure with
  | none =>
    obtain ⟨f, hof⟩ := h
    exact absurd hof (d.clean_iff.mp ((failure_eq_none d).mp hf) f)
  | some f =>
    obtain ⟨hof, hleast⟩ := (failure_eq_some d).mp hf
    refine ⟨f.protocolError.code, ⟨f, hof, hleast, rfl⟩, fails_version hl ho ?_⟩
    rw [Scan.version, hf]

theorem hasString_iff (d : Doc) (name t : Text) : d.HasString name t ↔ probeString (d.probed name) = some t := by
  rw [Doc.HasString, Doc.probed]
  cases lastMember d.members name with
  | none => simp [probeString]
  | some c =>
    cases c with
    | str b =>
      simp only [Option.some.injEq, Cst.str.injEq, exists_eq_left', Option.map_some, Cst.probe]
      cases strValue b <;> simp [probeString]
    | _ => simp [probeString, Cst.probe]

theorem parseVersionToken_decimal (v : UInt32) : parseVersionToken (some (decimal v.toNat)) = some v := by
  have hlt := v.toNat_lt
  have hle : v.toNat ≤ u32Max := by rw [u32Max]; omega
  have hnat : natToken (decimal v.toNat) = some v.toNat := natToken_decimal v.toNat
  have hminus : (decimal v.toNat).head? ≠ some '-' := by
    intro hm
    obtain ⟨r, hr⟩ := List.head?_eq_some_iff.mp hm
    rw [hr] at hnat
    simp [natToken] at hnat
  simp [parseVersionToken, hminus, parseU32, hnat, hle]

theorem hasVersion_iff {d : Doc} (h : d.CleanObject) (v : UInt32) :
    d.HasVersion v ↔ parseVersionToken (probeNumber (d.probed versionKey)) = some v := by
  rw [Doc.HasVersion, Doc.probed]
  cases hm : lastMember d.members versionKey with
  | none => simp [probeNumber, parseVersionToken]
  | some c =>
    have hc : c.Clean := h.lookup_clean ((h.lookup versionKey).symm.trans hm)
    cases c with
    | num n =>
      simp only [Option.some.injEq, Cst.num.injEq, exists_eq_left', Option.map_some, Cst.probe, probeNumber]
      constructor
      · intro ht
        rw [ht, parseVersionToken_decimal]
      · intro hp
        rw [parseVersionToken] at hp
        simp only [Option.ite_none_left_eq_some, Option.map_eq_some_iff] at hp
        obtain ⟨-, k, hk, rfl⟩ := hp
        obtain ⟨htok, hle⟩ := tok_of_parseU32 (hc.numbers n .self) hk
        rw [htok, UInt32.toNat_ofNat', Nat.mod_eq_of_lt (by rw [u32Max] at hle; omega)]
    | str b =>
      simp only [Option.some.injEq, reduceCtorEq, false_and, exists_false, Option.map_some, Cst.probe, false_iff]
      cases strValue b <;> simp [probeNumber, parseVersionToken]
    | _ => simp [probeNumber, parseVersionToken, Cst.probe]

/-! ## What the scan says about the payload -/

/-- Every number inside fits an unsigned 32-bit value. -/
def Cst.Fits (v : Cst) : Prop := ∀ n, v.Within (.num n) → (parseU32 n.tok).isSome = true

theorem fits_arr {es : Items} : (Cst.arr es).Fits ↔ ∀ v ∈ es.toList, v.Fits := by
  constructor
  · exact fun h v hv n hw => h n (.item hv hw)
  · intro h n hw
    obtain he | ⟨v, hv, hw⟩ := within_arr.mp hw
    · cases he
    · exact h v hv n hw

theorem fits_obj {ms : Members} : (Cst.obj ms).Fits ↔ ∀ m ∈ ms.toList, m.2.Fits := by
  constructor
  · exact fun h m hm n hw => h n (.member hm hw)
  · intro h n hw
    obtain he | ⟨m, hm, hw⟩ := within_obj.mp hw
    · cases he
    · exact h m hm n hw

/-- A value without numbers. -/
theorem fits_of_leaf {v : Cst} (h : ∀ n, ¬v.Within (.num n)) : v.Fits := fun n hw => absurd hw (h n)

/-- The replacements and the depth that the scan records for a value below the root. -/
structure Cst.Scanned (inPayload : Bool) (v : Cst) (depth : Nat) (f : Found) : Prop where
  typed : f.typed = [] ↔ (inPayload = true → v.Fits)
  deep : f.tooDeep = true → inPayload = true ∧ typedJsonDepthLimit < depth + v.nesting

theorem nameFound_typed (p : Bool) (d : Nat) (seen : List Text) (i : Nat) (k : List StrChar) :
    (nameFound p d seen i k).typed = [] ∧ (nameFound p d seen i k).tooDeep = false := by
  rw [nameFound]
  split
  · exact ⟨rfl, rfl⟩
  · split <;> exact ⟨rfl, rfl⟩

/-- Two parts scanned one after the other. -/
theorem scanned_append {f g : Found} {a b c : Prop} (hc : c ↔ a ∧ b) {p : Bool} {depth m n : Nat}
    (hf : f.typed = [] ↔ (p = true → a)) (hg : g.typed = [] ↔ (p = true → b))
    (hf' : f.tooDeep = true → p = true ∧ typedJsonDepthLimit < depth + m)
    (hg' : g.tooDeep = true → p = true ∧ typedJsonDepthLimit < depth + n) :
    ((f ++ g).typed = [] ↔ (p = true → c)) ∧
      ((f ++ g).tooDeep = true → p = true ∧ typedJsonDepthLimit < depth + max m n) := by
  constructor
  · rw [Found.append_typed, List.append_eq_nil_iff, hf, hg, hc, ← imp_and]
  · rw [Found.append_tooDeep, Bool.or_eq_true]
    rintro (h | h)
    · exact ⟨(hf' h).1, by have := (hf' h).2; omega⟩
    · exact ⟨(hg' h).1, by have := (hg' h).2; omega⟩

theorem openFound_tooDeep {p : Bool} {d : Nat} (h : (openFound p d).tooDeep = true) :
    p = true ∧ typedJsonDepthLimit < d + 1 := by
  simp only [openFound, Bool.and_eq_true, decide_eq_true_eq] at h
  exact ⟨h.1, by omega⟩

mutual

theorem Cst.scanned (v : Cst) (h : v.Clean) (p : Bool) {d : Nat} (hd : 1 ≤ d) (i : Nat) :
    v.Scanned p d (v.found p d i) := by
  have leaf : ∀ {v : Cst} {f : Found}, (∀ w, v.Within w → w = v) → (∀ n, v ≠ .num n) → f.typed = [] →
      (f.tooDeep = true → p = true ∧ typedJsonDepthLimit < d + v.nesting) → v.Scanned p d f := by
    intro v f hw hn ht hdeep
    refine ⟨⟨fun _ _ => fits_of_leaf fun n hnum => hn n (hw _ hnum).symm, fun _ => ht⟩, hdeep⟩
  cases v with
  | null => exact leaf (fun w hw => by cases hw; rfl) (fun n => Cst.noConfusion) rfl Bool.noConfusion
  | bool b => exact leaf (fun w hw => by cases hw; rfl) (fun n => Cst.noConfusion) rfl Bool.noConfusion
  | str b =>
    have hb : strFound p i b = .none := by rw [strFound, if_pos (Option.isSome_iff_ne_none.mpr (h.strings b .self))]
    rw [Cst.found, hb]
    exact leaf (fun w hw => by cases hw; rfl) (fun n => Cst.noConfusion) rfl Bool.noConfusion
  | arr0 w => exact leaf (fun w hw => by cases hw; rfl) (fun n => Cst.noConfusion) rfl openFound_tooDeep
  | obj0 w => exact leaf (fun w hw => by cases hw; rfl) (fun n => Cst.noConfusion) rfl openFound_tooDeep
  | num n =>
    have hfits : (Cst.num n).Fits ↔ (parseU32 n.tok).isSome = true :=
      ⟨fun hf => hf n .self, fun hf m hw => by cases hw; exact hf⟩
    have hcan := isCanonicalInteger_iff.mpr (h.numbers n .self)
    rw [Cst.found, numFound, hcan]
    simp only [Bool.not_true, Bool.false_eq_true, ite_false]
    by_cases hp : p = true ∧ (parseU32 n.tok).isNone = true
    · rw [if_pos hp]
      refine ⟨⟨(fun he => by cases he), fun hf => ?_⟩, Bool.noConfusion⟩
      have := hfits.mp (hf hp.1)
      rw [← Option.not_isNone, hp.2] at this
      cases this
    · rw [if_neg hp]
      refine ⟨⟨fun _ hp' => hfits.mpr ?_, fun _ => rfl⟩, Bool.noConfusion⟩
      rw [← Option.not_isNone, Bool.not_eq_true']
      exact Bool.eq_false_iff.mpr fun hn => hp ⟨hp', hn⟩
  | arr es =>
    have hes := es.scanned (clean_arr.mp h) p (d := d + 1) (by omega) (i + 1)
    refine ⟨?_, fun hdeep => ?_⟩
    · rw [Cst.found, Found.append_typed, openFound_typed, List.nil_append, hes.1, fits_arr]
    · rw [Cst.found, Found.append_tooDeep, Bool.or_eq_true] at hdeep
      rw [Cst.nesting]
      rcases hdeep with ho | hi
      · exact ⟨(openFound_tooDeep ho).1, by have := (openFound_tooDeep ho).2; omega⟩
      · exact ⟨(hes.2 hi).1, by have := (hes.2 hi).2; omega⟩
  | obj ms =>
    have hms := ms.scanned (fun m hm => ((clean_obj.mp h).2 m hm).2) p (d := d + 1) (by omega) [] (i + 1)
    refine ⟨?_, fun hdeep => ?_⟩
    · rw [Cst.found, Found.append_typed, openFound_typed, List.nil_append, hms.1, fits_obj]
    · rw [Cst.found, Found.append_tooDeep, Bool.or_eq_true] at hdeep
      rw [Cst.nesting]
      rcases hdeep with ho | hi
      · exact ⟨(openFound_tooDeep ho).1, by have := (openFound_tooDeep ho).2; omega⟩
      · exact ⟨(hms.2 hi).1, by have := (hms.2 hi).2; omega⟩

theorem Items.scanned (es : Items) (h : ∀ v ∈ es.toList, v.Clean) (p : Bool) {d : Nat} (hd : 2 ≤ d) (i : Nat) :
    ((es.found p d i).typed = [] ↔ (p = true → ∀ v ∈ es.toList, v.Fits)) ∧
      ((es.found p d i).tooDeep = true → p = true ∧ typedJsonDepthLimit < d + es.nesting) := by
  cases es with
  | last w₁ v w₂ =>
    have hv := v.scanned (h v (List.mem_cons_self ..)) p (d := d) (by omega) (i + utf8Encoding.size w₁.chars)
    rw [Items.found, Items.nesting, Items.toList, List.forall_mem_singleton]
    exact ⟨hv.typed, hv.deep⟩
  | more w₁ v w₂ rest =>
    have hv := v.scanned (h v (List.mem_cons_self ..)) p (d := d) (by omega) (i + utf8Encoding.size w₁.chars)
    have hr := rest.scanned (fun x hx => h x (List.mem_cons_of_mem _ hx)) p hd
      (i + utf8Encoding.size w₁.chars + utf8Encoding.size v.text + utf8Encoding.size w₂.chars + 1)
    rw [Items.found, Items.nesting, Items.toList]
    exact scanned_append List.forall_mem_cons hv.typed hr.1 hv.deep hr.2

theorem Members.scanned (ms : Members) (h : ∀ m ∈ ms.toList, m.2.Clean) (p : Bool) {d : Nat} (hd : 2 ≤ d)
    (seen : List Text) (i : Nat) :
    ((ms.found p d seen i).typed = [] ↔ (p = true → ∀ m ∈ ms.toList, m.2.Fits)) ∧
      ((ms.found p d seen i).tooDeep = true → p = true ∧ typedJsonDepthLimit < d + ms.nesting) := by
  have hp : ∀ k : List StrChar, memberInPayload p d (strValue k) = p := by
    intro k
    have : (d == 1) = false := by simp; omega
    simp [memberInPayload, this]
  -- a name adds neither a replacement nor depth
  have hname : ∀ (j : Nat) (k : List StrChar) (f : Found), (nameFound p d seen j k ++ f).typed = f.typed ∧
      (nameFound p d seen j k ++ f).tooDeep = f.tooDeep := by
    intro j k f
    obtain ⟨ht, hdeep⟩ := nameFound_typed p d seen j k
    rw [Found.append_typed, Found.append_tooDeep, ht, hdeep]
    exact ⟨rfl, rfl⟩
  cases ms with
  | last w₁ k w₂ w₃ v w₄ =>
    have hv := v.scanned (h (k, v) (List.mem_cons_self ..)) p (d := d) (by omega) (valueOffset i w₁ k w₂ w₃)
    rw [Members.found, hp, Members.nesting, Members.toList, List.forall_mem_singleton, (hname _ _ _).1, (hname _ _ _).2]
    exact ⟨hv.typed, hv.deep⟩
  | more w₁ k w₂ w₃ v w₄ rest =>
    have hv := v.scanned (h (k, v) (List.mem_cons_self ..)) p (d := d) (by omega) (valueOffset i w₁ k w₂ w₃)
    have hr := rest.scanned (fun x hx => h x (List.mem_cons_of_mem _ hx)) p hd (seeName seen k)
      (valueOffset i w₁ k w₂ w₃ + utf8Encoding.size v.text + utf8Encoding.size w₄.chars + 1)
    have hnv := hname (i + utf8Encoding.size w₁.chars) k (v.found p d (valueOffset i w₁ k w₂ w₃))
    rw [Members.found, hp, Members.nesting, Members.toList]
    refine scanned_append List.forall_mem_cons ?_ hr.1 ?_ hr.2
    · rw [hnv.1]
      exact hv.typed
    · rw [hnv.2]
      exact hv.deep

end

/-- At the root only the payload counts. -/
theorem Members.scanned_root (ms : Members) (h : ∀ m ∈ ms.toList, m.2.Clean) (seen : List Text) (i : Nat) :
    ((ms.found false 1 seen i).typed = [] ↔ ∀ m ∈ ms.toList, strValue m.1 = some payloadKey → m.2.Fits) ∧
      ((ms.found false 1 seen i).tooDeep = true →
        ∃ m ∈ ms.toList, strValue m.1 = some payloadKey ∧ typedJsonDepthLimit < 1 + m.2.nesting) := by
  have hp : ∀ k : List StrChar, memberInPayload false 1 (strValue k) = true ↔ strValue k = some payloadKey := by
    intro k
    simp [memberInPayload]
  have hname := fun j k => nameFound_typed false 1 seen j k
  cases ms with
  | last w₁ k w₂ w₃ v w₄ =>
    have hv := v.scanned (h (k, v) (List.mem_cons_self ..)) (memberInPayload false 1 (strValue k)) (Nat.le_refl 1)
      (valueOffset i w₁ k w₂ w₃)
    rw [Members.found, Members.toList, List.forall_mem_singleton, Found.append_typed, Found.append_tooDeep, (hname _ _).1,
      (hname _ _).2, List.nil_append, Bool.false_or, hv.typed, hp]
    refine ⟨Iff.rfl, fun hdeep => ⟨(k, v), List.mem_cons_self .., ?_⟩⟩
    exact ⟨(hp k).mp (hv.deep hdeep).1, (hv.deep hdeep).2⟩
  | more w₁ k w₂ w₃ v w₄ rest =>
    have hv := v.scanned (h (k, v) (List.mem_cons_self ..)) (memberInPayload false 1 (strValue k)) (Nat.le_refl 1)
      (valueOffset i w₁ k w₂ w₃)
    have hr := rest.scanned_root (fun x hx => h x (List.mem_cons_of_mem _ hx)) (seeName seen k)
      (valueOffset i w₁ k w₂ w₃ + utf8Encoding.size v.text + utf8Encoding.size w₄.chars + 1)
    rw [Members.found, Members.toList, List.forall_mem_cons, Found.append_typed, Found.append_typed, Found.append_tooDeep,
      Found.append_tooDeep, (hname _ _).1, (hname _ _).2, List.nil_append, Bool.false_or, List.append_eq_nil_iff, hv.typed,
      hp, hr.1, Bool.or_eq_true]
    refine ⟨Iff.rfl, ?_⟩
    rintro (hdeep | hdeep)
    · exact ⟨(k, v), List.mem_cons_self .., (hp k).mp (hv.deep hdeep).1, (hv.deep hdeep).2⟩
    · obtain ⟨m, hm, hrest⟩ := hr.2 hdeep
      exact ⟨m, List.mem_cons_of_mem _ hm, hrest⟩

/-- In a clean object a member is found under its name. -/
theorem Doc.CleanObject.lastMember_iff {d : Doc} (h : d.CleanObject) {name : Text} {c : Cst} :
    lastMember d.members name = some c ↔ ∃ m ∈ d.members, strValue m.1 = some name ∧ m.2 = c := by
  have hnodup : (d.named.map Prod.fst).Nodup := by
    rw [Doc.named, fst_namedMembers]
    exact h.nodup
  rw [h.lookup]
  constructor
  · intro hc
    obtain ⟨m, hm, hv⟩ := List.mem_filterMap.mp (mem_of_lookupMember hc)
    obtain ⟨n, hn, he⟩ := Option.map_eq_some_iff.mp hv
    cases he
    exact ⟨m, hm, hn, rfl⟩
  · rintro ⟨m, hm, hn, rfl⟩
    exact lookupMember_of_mem (m := (name, m.2)) hnodup
      (List.mem_filterMap.mpr ⟨m, hm, Option.map_eq_some_iff.mpr ⟨name, hn, rfl⟩⟩)

theorem Doc.CleanObject.scanned {d : Doc} (h : d.CleanObject) {m : Cst} (hm : d.HasPayload m) :
    (d.found.typed = [] ↔ m.Fits) ∧ (d.found.tooDeep = true → typedJsonDepthLimit < 1 + m.nesting) := by
  have hmem := h.members
  have hfound : (d.found.typed = [] ↔ ∀ x ∈ d.members, strValue x.1 = some payloadKey → x.2.Fits) ∧
      (d.found.tooDeep = true → ∃ x ∈ d.members, strValue x.1 = some payloadKey ∧
        typedJsonDepthLimit < 1 + x.2.nesting) := by
    have hclean := h.member_clean
    obtain ⟨lead, v, trail⟩ := d
    cases v with
    | obj ms =>
      rw [Cst.members?, Option.some.injEq] at hmem
      rw [← hmem] at hclean ⊢
      exact ms.scanned_root (fun x hx => (hclean x hx).2) [] _
    | obj0 w =>
      rw [Cst.members?, Option.some.injEq] at hmem
      rw [← hmem]
      exact ⟨⟨fun _ x hx => absurd hx List.not_mem_nil, fun _ => rfl⟩, Bool.noConfusion⟩
    | _ => cases hmem
  -- the payload is the only member of its name
  have honly : ∀ x ∈ d.members, strValue x.1 = some payloadKey → x.2 = m := by
    intro x hx hn
    have := h.lastMember_iff.mpr ⟨x, hx, hn, rfl⟩
    rw [show lastMember d.members payloadKey = some m from hm] at this
    exact (Option.some.inj this).symm
  obtain ⟨x, hx, hn, rfl⟩ := h.lastMember_iff.mp hm
  refine ⟨hfound.1.trans ⟨fun hall => hall x hx hn, fun hf y hy hny => ?_⟩, fun hdeep => ?_⟩
  · rw [honly y hy hny]
    exact hf
  · obtain ⟨y, hy, hny, hlt⟩ := hfound.2 hdeep
    rw [honly y hy hny] at hlt
    exact hlt

mutual

/-- A payload whose numbers fit is not changed. -/
theorem Cst.typed_fits (v : Cst) (h : v.Fits) (p : Bool) (d : Nat) : v.typed p d = v := by
  cases v with
  | num n =>
    have hn := h n .self
    rw [← Option.not_isNone, Bool.not_eq_true'] at hn
    simp [Cst.typed, Num.typed, hn]
  | arr es => rw [Cst.typed, es.typed_fits (fits_arr.mp h)]
  | obj ms => rw [Cst.typed, ms.typed_fits (fits_obj.mp h)]
  | _ => rfl

theorem Items.typed_fits (es : Items) (h : ∀ v ∈ es.toList, v.Fits) (p : Bool) (d : Nat) : es.typed p d = es := by
  cases es with
  | last w₁ v w₂ => rw [Items.typed, v.typed_fits (h v (List.mem_cons_self ..))]
  | more w₁ v w₂ rest =>
    rw [Items.typed, v.typed_fits (h v (List.mem_cons_self ..)),
      rest.typed_fits fun x hx => h x (List.mem_cons_of_mem _ hx)]

theorem Members.typed_fits (ms : Members) (h : ∀ m ∈ ms.toList, m.2.Fits) (p : Bool) (d : Nat) : ms.typed p d = ms := by
  cases ms with
  | last w₁ k w₂ w₃ v w₄ => rw [Members.typed, v.typed_fits (h (k, v) (List.mem_cons_self ..))]
  | more w₁ k w₂ w₃ v w₄ rest =>
    rw [Members.typed, v.typed_fits (h (k, v) (List.mem_cons_self ..)),
      rest.typed_fits fun x hx => h x (List.mem_cons_of_mem _ hx)]

end

theorem fits_iff {v : Cst} (h : v.Clean) :
    v.Fits ↔ ∀ n, v.Within (.num n) → ∃ k : UInt32, n.tok = decimal k.toNat := by
  refine forall_congr' fun n => forall_congr' fun hw => ⟨fun hs => ?_, ?_⟩
  · obtain ⟨k, hk⟩ := Option.isSome_iff_exists.mp hs
    obtain ⟨htok, hle⟩ := tok_of_parseU32 (h.numbers n hw) hk
    refine ⟨UInt32.ofNat k, ?_⟩
    rw [htok, UInt32.toNat_ofNat', Nat.mod_eq_of_lt (by rw [u32Max] at hle; omega)]
  · rintro ⟨k, hk⟩
    have hle : k.toNat ≤ u32Max := by have := k.toNat_lt; rw [u32Max]; omega
    rw [hk, parseU32, natToken_decimal]
    simp [hle]

/-! ## The stages of the probe -/

section Probe

variable {d : Doc} (hl : (utf8 d.text).length ≤ maxFrameBytes) (hc : d.CleanObject)
include hl hc

theorem fails_protocol [SerdeJson] (h : d.Defect .protocol) :
    FailsWith (utf8 d.text) (d.recovered .currentBootstrap) invalidEnvelope := by
  have hp : probeString (d.probed protocolKey) ≠ some protocolName := fun he => h ((hasString_iff ..).mpr he)
  refine fails_version hl hc.object (e := wrongProtocol) ?_
  rw [Scan.version, (failure_eq_none d).mpr hc.clean, topLevelValues_eq]
  exact if_pos hp

theorem fails_versionToken [SerdeJson] (hp : d.HasString protocolKey protocolName) (h : d.Defect .version) :
    FailsWith (utf8 d.text) (d.recovered .currentBootstrap) invalidEnvelope := by
  have hv : parseVersionToken (probeNumber (d.probed versionKey)) = none := by
    rw [Option.eq_none_iff_forall_ne_some]
    exact fun v hv => h v ((hasVersion_iff hc v).mpr hv)
  refine fails_version hl hc.object (e := wrongVersion) ?_
  rw [Scan.version, (failure_eq_none d).mpr hc.clean, topLevelValues_eq]
  simp only [(hasString_iff ..).mp hp, hv, ne_eq, not_true_eq_false, ite_false]

omit hl in
theorem Doc.CleanObject.recoveredKind : d.recoveredKind = probeString (d.probed kindKey) := by
  rw [Doc.recoveredKind, if_pos ((safe_iff d).mp hc.safe)]

omit hl in
theorem version_ok (hp : d.HasString protocolKey protocolName) {v : UInt32} (hv : d.HasVersion v) :
    (scanJsonTokens d.text).version = .ok v := by
  rw [Scan.version_eq_ok, topLevelValues_eq]
  exact ⟨(failure_eq_none d).mpr hc.clean, (hasString_iff ..).mp hp, (hasVersion_iff hc v).mp hv⟩

theorem fails_axis [SerdeJson] (hp : d.HasString protocolKey protocolName) (h : d.Defect .axis) :
    FailsWith (utf8 d.text) (d.recovered .currentBootstrap) protocolVersionUnsupported := by
  obtain ⟨kind, v, hk, hv, hne⟩ := h
  have hkind : (d.recovered .currentBootstrap).kind = some kind := by
    rw [d.recovered_kind, hc.recoveredKind, (hasString_iff ..).mp hk]
  refine ⟨(unsupportedVersion v (acceptedVersion kind)).message, decodeRequest_of_probe ?_⟩
  rw [probe_doc hl hc.object, version_ok hc hp hv]
  change axisGate (d.recovered .currentBootstrap) v = _
  rw [axisGate, hkind]
  exact if_neg hne

/-- A frame whose version is accepted. -/
theorem probe_passes (hp : d.HasString protocolKey protocolName) {v : UInt32} (hv : d.HasVersion v)
    (hk : ∀ kind, d.HasString kindKey kind → v = acceptedVersion kind) :
    probe (utf8 d.text) = .ok (d.recovered d.acceptedAxis) := by
  rw [probe_doc hl hc.object, version_ok hc hp hv]
  change axisGate (d.recovered .currentBootstrap) v = _
  have hr := d.recovered_kind .currentBootstrap
  unfold axisGate
  split
  · rename_i hkind
    rw [Doc.acceptedAxis, ← hr, hkind]
    rfl
  · rename_i kind hkind
    rw [hr, hc.recoveredKind] at hkind
    rw [if_pos (hk kind ((hasString_iff ..).mpr hkind)), Doc.acceptedAxis, hc.recoveredKind, hkind, Option.any_some]
    by_cases hh : kind = kindHello
    · simp [hh]
    · rw [if_neg hh, if_pos (bne_iff_ne.mpr hh), acceptedVersion, if_neg hh]
      rfl

end Probe

/-! ## The envelope -/

/-- A clean frame within the size bound, of a version that is accepted. -/
structure Doc.Accepted (d : Doc) : Prop where
  size : (utf8 d.text).length ≤ maxFrameBytes
  clean : d.CleanObject
  protocol : d.HasString protocolKey protocolName
  version : ∃ v, d.HasVersion v ∧ ∀ kind, d.HasString kindKey kind → v = acceptedVersion kind

theorem Doc.Accepted.probe {d : Doc} (h : d.Accepted) : probe (utf8 d.text) = .ok (d.recovered d.acceptedAxis) := by
  obtain ⟨v, hv, hk⟩ := h.version
  exact probe_passes h.size h.clean h.protocol hv hk

theorem Doc.Accepted.probed {d : Doc} (h : d.Accepted) :
    ∃ version, Probed (utf8 d.text) (d.recovered d.acceptedAxis) d version := by
  obtain ⟨d', version, hd, -⟩ := probed_of_probe h.probe
  rw [← doc_inj hd.frame] at hd
  exact ⟨version, hd⟩

theorem requestFields_nodup : (fieldNames requestFields).Nodup := by decide

/-- The members of a clean object are a request's exactly when its struct reads them. -/
theorem Doc.CleanObject.hasMembers_iff {d : Doc} (h : d.CleanObject) (p v r k m : Cst) :
    d.value.HasMembers [(protocolKey, p), (versionKey, v), (requestIdKey, r), (kindKey, k), (payloadKey, m)] ↔
      deMap requestFields true d.named = .ok [some p, some v, some r, some k, some m] := by
  have hnames : memberNames d.members = .ok d.named := memberNames_named fun x hx => (h.member_clean x hx).1
  have hclosed : deMap requestFields true d.named = .ok ([p, v, r, k, m].map some) ↔
      d.named.Perm ((fieldNames requestFields).zip [p, v, r, k, m]) :=
    deMap_closed_iff requestFields_nodup rfl
  refine Iff.trans ?_ hclosed.symm
  rw [Cst.HasMembers]
  constructor
  · rintro ⟨ms, ns, hms, hns, hperm⟩
    rw [h.members, Option.some.injEq] at hms
    rw [← hms, hnames] at hns
    cases hns
    exact hperm
  · exact fun hperm => ⟨d.members, d.named, h.members, hnames, hperm⟩

theorem num_of_deU32 {c : Cst} {v : UInt32} (h : deU32 c = .ok v) : ∃ n, c = .num n := by
  cases c with
  | num n => exact ⟨n, rfl⟩
  | _ => cases h

theorem deU32_of_token {n : Num} {v : UInt32} (h : n.tok = decimal v.toNat) : deU32 (.num n) = .ok v := by
  have : Cst.num n = jsonNat v.toNat := by
    obtain ⟨tok, ok⟩ := n
    simp only at h
    subst h
    rfl
  rw [this]
  exact deU32_jsonNat v

/-- The structural pass and the request id decide the closed envelope. -/
theorem closed_iff [SerdeJson] {d : Doc} (h : d.CleanObject) {v : UInt32} (hv : d.HasVersion v) :
    (∃ s, RequestEnvelope.de d.hollowed.value = .ok s ∧ validRequestId s.requestId = true) ↔ d.ClosedEnvelope := by
  constructor
  · rintro ⟨s, hs, hid⟩
    obtain ⟨e, -, he⟩ | ⟨vs, p, ver, i, k, m, hvs, hm, hh, -⟩ := h.request_passes
    · rw [he] at hs
      cases hs
    · rw [hh] at hs
      obtain ⟨hp, hver, hi, hk, hmap⟩ := requestOf_eq_ok.mp hs
      obtain ⟨bp, rfl, -⟩ := body_of_deString hp
      obtain ⟨n, rfl⟩ := num_of_deU32 hver
      obtain ⟨bi, rfl, hbi⟩ := body_of_deString hi
      obtain ⟨bk, rfl, -⟩ := body_of_deString hk
      refine ⟨bp, n, bi, bk, m, s.requestId, (h.hasMembers_iff ..).mpr ?_, ?_, hbi, hid⟩
      · rw [hvs, (deMap_eq_ok.mp hvs).2.2.2]
        simp only [requestFields, List.map_cons, List.map_nil, hm.protocol, hm.version, hm.requestId, hm.kind, hm.payload]
      · rw [deJsonMap] at hmap
        split at hmap
        · rename_i ho
          rw [← m.members?_hollowed]
          exact ho
        · cases hmap
  · rintro ⟨bp, n, bi, bk, m, id, hmem, ho, hbi, hid⟩
    have hvs := (h.hasMembers_iff ..).mp hmem
    obtain ⟨e, he, -⟩ | ⟨vs, p, ver, i, k, m', hvs', hm, hh, -⟩ := h.request_passes
    · rw [hvs] at he
      cases he
    · have hlook := (deMap_eq_ok.mp hvs).2.2.2
      simp only [requestFields, List.map_cons, List.map_nil, hm.protocol, hm.version, hm.requestId, hm.kind, hm.payload,
        List.cons.injEq, Option.some.injEq, and_true] at hlook
      obtain ⟨rfl, rfl, rfl, rfl, rfl⟩ := hlook
      obtain ⟨tp, htp⟩ := Option.ne_none_iff_exists'.mp ((h.lookup_clean hm.protocol).strings bp .self)
      obtain ⟨tk, htk⟩ := Option.ne_none_iff_exists'.mp ((h.lookup_clean hm.kind).strings bk .self)
      have hver : deU32 (.num n) = .ok v := by
        obtain ⟨n', hn', htok⟩ := hv
        rw [h.lookup, hm.version] at hn'
        cases hn'
        exact deU32_of_token htok
      have hobj : m.hollowed.members?.isSome = true := m.members?_hollowed.trans ho
      have hmap : deJsonMap envelopeDepth m.hollowed = .ok ⟨m.hollowed, hobj⟩ := by
        rw [deJsonMap, dif_pos hobj]
        cases m with
        | obj0 w => rfl
        | obj ms => rfl
        | _ => cases ho
      rw [hh]
      refine ⟨⟨tp, v, id, tk, ⟨m.hollowed, hobj⟩⟩, requestOf_eq_ok.mpr ⟨?_, hver, ?_, ?_, hmap⟩, hid⟩
      · rw [deString, htp]; rfl
      · rw [deString, hbi]; rfl
      · rw [deString, htk]; rfl

theorem fails_envelope [SerdeJson] {d : Doc} (h : d.Accepted) (hd : d.Defect .envelope) :
    FailsWith (utf8 d.text) (d.recovered d.acceptedAxis) invalidEnvelope := by
  obtain ⟨v, hv, -⟩ := h.version
  obtain ⟨version, hprobed⟩ := h.probed
  have hnot : ¬∃ s, RequestEnvelope.de d.hollowed.value = .ok s ∧ validRequestId s.requestId = true :=
    fun hs => hd ((closed_iff h.clean hv).mp hs)
  have hstr : RequestEnvelope.fromStr (d.recovered d.acceptedAxis).envelopeText = RequestEnvelope.de d.hollowed.value := by
    rw [RequestEnvelope.fromStr, hprobed.envelopeText, fromStr_doc]
    rfl
  rw [FailsWith, decodeRequest, h.probe]
  change ∃ message, (Except.mapError _ (RequestEnvelope.fromStr (d.recovered d.acceptedAxis).envelopeText) >>= _) = _
  rw [hstr]
  cases hs : RequestEnvelope.de d.hollowed.value with
  | error e => exact ⟨_, rfl⟩
  | ok s =>
    have hid : validRequestId s.requestId = false := Bool.eq_false_iff.mpr fun hid => hnot ⟨s, hs, hid⟩
    refine ⟨requestIdError.message, ?_⟩
    simp only [Except.mapError, bind, Except.bind, hid, Bool.not_false, ite_true]
    rfl

/-- The rest of the decoder, once the structural pass and the request id are accepted. -/
def afterStructural [SerdeJson] (r : Recovered) (s : RequestEnvelope) : Except Stop Request :=
  if registeredKind s.kind = none then .error (.failure (r.fail (unregisteredKind s.kind)))
  else if r.payloadExceedsTypedDepth then .error (.failure (r.fail tooDeepError))
  else do
    let e ← (RequestEnvelope.fromStr r.typedText).mapError fun e =>
      .failure (r.fail (payloadError requestType (utf8 r.typedText) e))
    (requestKind r e).map fun kind => ⟨e.requestId, kind⟩

theorem decodeRequest_structural [SerdeJson] {frame : Bytes} {r : Recovered} {s : RequestEnvelope} (hr : probe frame = .ok r)
    (hs : RequestEnvelope.fromStr r.envelopeText = .ok s) (hid : validRequestId s.requestId = true) :
    decodeRequest frame = afterStructural r s := by
  rw [decodeRequest, hr]
  change (Except.mapError _ (RequestEnvelope.fromStr r.envelopeText) >>= _) = _
  rw [hs, afterStructural]
  simp only [Except.mapError, bind, Except.bind, hid, Bool.not_true, Bool.false_eq_true, version_of_structural hr hs,
    ne_eq, not_true_eq_false, ite_false, pure, Except.pure]
  by_cases hk : registeredKind s.kind = none
  · rw [if_pos hk, if_pos hk]
    rfl
  · rw [if_neg hk, if_neg hk]
    by_cases hdeep : r.payloadExceedsTypedDepth = true
    · rw [if_pos hdeep, if_pos hdeep]
      rfl
    · rw [if_neg hdeep, if_neg hdeep]
      cases RequestEnvelope.fromStr r.typedText with
      | error e => rfl
      | ok e => cases requestKind r e <;> rfl

/-- A frame whose envelope is closed: its kind, its payload, and what is left to decode. -/
structure Doc.Opened [SerdeJson] (d : Doc) (s : RequestEnvelope) (payload : Cst) : Prop where
  accepted : d.Accepted
  kind : d.HasString kindKey s.kind
  hasPayload : d.HasPayload payload
  clean : payload.Clean
  object : payload.members?.isSome = true
  decode : decodeRequest (utf8 d.text) = afterStructural (d.recovered d.acceptedAxis) s
  typed : RequestEnvelope.fromStr (d.recovered d.acceptedAxis).typedText =
    (deJsonMap envelopeDepth (payload.typed true 1)).map fun m => ⟨s.protocol, s.version, s.requestId, s.kind, m⟩

theorem Doc.Accepted.opened_of [SerdeJson] {d : Doc} (h : d.Accepted) {s : RequestEnvelope}
    (hs : RequestEnvelope.de d.hollowed.value = .ok s) (hid : validRequestId s.requestId = true) :
    ∃ payload, d.Opened s payload := by
  obtain ⟨version, hprobed⟩ := h.probed
  have hstr : RequestEnvelope.fromStr (d.recovered d.acceptedAxis).envelopeText = .ok s := by
    rw [RequestEnvelope.fromStr, hprobed.envelopeText, fromStr_doc]
    exact hs
  obtain ⟨p, ver, i, k, m, hm, -, hk, ho, ht⟩ := typed_request hprobed hstr
  refine ⟨m, h, ?_, ?_, h.clean.lookup_clean hm.payload, ho, decodeRequest_structural h.probe hstr hid, ht⟩
  · rw [hasString_iff, h.clean.probed, hm.kind]
    exact probe_deString hk
  · rw [Doc.HasPayload, h.clean.lookup]
    exact hm.payload

theorem Doc.Accepted.opened [SerdeJson] {d : Doc} (h : d.Accepted) (hd : d.ClosedEnvelope) : ∃ s payload, d.Opened s payload := by
  obtain ⟨v, hv, -⟩ := h.version
  obtain ⟨s, hs, hid⟩ := (closed_iff h.clean hv).mpr hd
  obtain ⟨payload, ho⟩ := h.opened_of hs hid
  exact ⟨s, payload, ho⟩

/-! ## The codes of the payload mappers -/

def Coded {α : Type} (code : ShortErrorCode) (x : Except ProtocolError α) : Prop := ∀ e, x = .error e → e.code = code

theorem coded_ok {α : Type} {code : ShortErrorCode} {a : α} : Coded code (.ok a) := fun _ h => by cases h

theorem Coded.bind {α β : Type} {code : ShortErrorCode} {x : Except ProtocolError α} {f : α → Except ProtocolError β}
    (hx : Coded code x) (hf : ∀ a, Coded code (f a)) : Coded code (x >>= f) := by
  intro e he
  cases x with
  | error e' =>
    cases he
    exact hx e rfl
  | ok a => exact hf a e he

theorem Coded.map {α β : Type} {code : ShortErrorCode} {x : Except ProtocolError α} {f : α → β} (hx : Coded code x) :
    Coded code (x.map f) := by
  intro e he
  cases x with
  | error e' =>
    cases he
    exact hx e rfl
  | ok a => cases he

theorem coded_field {α : Type} (code : ShortErrorCode) (name : Text) (r : Except IdentityError α) :
    Coded code (field code name r) := by
  intro e he
  cases r with
  | ok a => cases he
  | error x => cases he; rfl

theorem coded_fieldOption {α : Type} (code : ShortErrorCode) (name : Text) (new : Text → Except IdentityError α)
    (o : Option Text) : Coded code (fieldOption code name new o) := by
  cases o with
  | none => exact coded_ok
  | some v => exact (coded_field code name (new v)).map

theorem coded_assignment (dto : ExpectedDto) : Coded invalidExpectation dto.assignment := by
  apply Coded.bind (coded_field _ _ _); intro _
  apply Coded.bind (coded_field _ _ _); intro _
  apply Coded.bind (coded_field _ _ _); intro _
  apply Coded.bind (coded_field _ _ _); intro _
  apply Coded.bind (coded_field _ _ _); intro _
  exact coded_ok

theorem coded_validate (parts : SignalParts) :
    Coded invalidSignal ((WorkflowSignal.validate parts).mapError WorkflowError.protocolError) := by
  intro e he
  unfold WorkflowSignal.validate at he
  split at he
  · cases he
  · cases he
    rfl

theorem coded_decodeSignal (dto : SignalDto) : Coded invalidSignal (decodeSignal dto) := by
  apply Coded.bind (coded_field _ _ _); intro _
  apply Coded.bind (coded_field _ _ _); intro _
  apply Coded.bind (coded_field _ _ _); intro _
  apply Coded.bind (coded_field _ _ _); intro _
  apply Coded.bind (coded_field _ _ _); intro _
  apply Coded.bind (coded_field _ _ _); intro _
  apply Coded.bind (coded_fieldOption _ _ _ _); intro _
  apply Coded.bind (coded_fieldOption _ _ _ _); intro _
  exact coded_validate _

/-! ## The payload -/

theorem Doc.HasString.unique {d : Doc} {name s t : Text} (hs : d.HasString name s) (ht : d.HasString name t) : s = t := by
  rw [hasString_iff] at hs ht
  exact Option.some.inj (hs.symm.trans ht)

theorem Doc.HasPayload.unique {d : Doc} {m n : Cst} (hm : d.HasPayload m) (hn : d.HasPayload n) : m = n :=
  Option.some.inj (Eq.trans (Eq.symm hm) hn)

theorem recovered_tooDeep (d : Doc) (axis : ResponseVersion) :
    (d.recovered axis).payloadExceedsTypedDepth = d.found.tooDeep := by
  rw [Doc.recovered, scanJsonTokens_doc]
  rfl

theorem recovered_outOfRange (d : Doc) (axis : ResponseVersion) :
    (d.recovered axis).payloadIntegerOutOfRange = !d.found.typed.isEmpty := by
  rw [Doc.recovered, scanJsonTokens_doc]
  rfl

theorem isEmpty_typed {payload : Cst} {m : JsonMap} (hm : m.value = payload.typed true 1)
    (ho : payload.members?.isSome = true) : m.isEmpty = true ↔ payload.members? = some [] := by
  rw [JsonMap.isEmpty, hm]
  cases payload with
  | obj0 w => simp [Cst.typed, Cst.members?]
  | obj ms => cases ms <;> simp [Cst.typed, Members.typed, Cst.members?, Members.toList]
  | _ => cases ho

theorem fits_of_empty {payload : Cst} (hm : payload.members? = some []) : payload.Fits := by
  cases payload with
  | obj0 w => exact fits_of_leaf fun n hw => by cases hw
  | obj ms => cases ms <;> cases hm
  | _ => cases hm

section Payload

variable [SerdeJson] {d : Doc} {s : RequestEnvelope} {payload : Cst} (h : d.Opened s payload)
include h

theorem fails_registry (hd : d.Defect .registry) :
    FailsWith (utf8 d.text) (d.recovered d.acceptedAxis) unknownKind := by
  obtain ⟨kind, hk, hnone⟩ := hd
  refine ⟨(unregisteredKind s.kind).message, ?_⟩
  rw [h.decode, afterStructural, if_pos (h.kind.unique hk ▸ hnone)]
  rfl

theorem Doc.Opened.kind_of {kind : RegisteredKind} (hk : d.HasKind kind) : registeredKind s.kind = some kind := by
  obtain ⟨name, hn, hr⟩ := hk
  rw [h.kind.unique hn]
  exact hr

theorem fails_deep {kind : RegisteredKind} (hk : registeredKind s.kind = some kind)
    (hdeep : envelopeDepth ≤ payload.nesting) :
    FailsWith (utf8 d.text) (d.recovered d.acceptedAxis) invalidPayload := by
  rw [FailsWith, h.decode, afterStructural, if_neg (by rw [hk]; exact Option.some_ne_none kind)]
  by_cases ht : (d.recovered d.acceptedAxis).payloadExceedsTypedDepth = true
  · rw [if_pos ht]
    exact ⟨tooDeepError.message, rfl⟩
  · rw [if_neg ht, h.typed, deJsonMap_typed h.clean h.object, if_pos hdeep]
    exact ⟨_, rfl⟩

def typedEnvelope (s : RequestEnvelope) (payload : JsonMap) : RequestEnvelope :=
  ⟨s.protocol, s.version, s.requestId, s.kind, payload⟩

theorem decode_shallow {kind : RegisteredKind} (hk : registeredKind s.kind = some kind)
    (hdepth : payload.nesting < envelopeDepth) : ∃ m : JsonMap, m.value = payload.typed true 1 ∧
      decodeRequest (utf8 d.text) = (requestKind (d.recovered d.acceptedAxis) (typedEnvelope s m)).map fun k =>
        ⟨s.requestId, k⟩ := by
  have hlimit : typedJsonDepthLimit = 128 := rfl
  have henv : envelopeDepth = 127 := rfl
  have hshallow : (d.recovered d.acceptedAxis).payloadExceedsTypedDepth ≠ true := by
    rw [recovered_tooDeep]
    intro hdeep
    have := (h.accepted.clean.scanned h.hasPayload).2 hdeep
    omega
  refine ⟨⟨payload.typed true 1, (payload.members?_typed true 1).trans h.object⟩, rfl, ?_⟩
  rw [h.decode, afterStructural, if_neg (by rw [hk]; exact Option.some_ne_none kind), if_neg hshallow, h.typed,
    deJsonMap_typed h.clean h.object, if_neg (by omega)]
  rfl

theorem Doc.Opened.outOfRange_iff :
    (d.recovered d.acceptedAxis).payloadIntegerOutOfRange = false ↔ payload.Fits := by
  rw [recovered_outOfRange, Bool.not_eq_false', List.isEmpty_iff]
  exact (h.accepted.clean.scanned h.hasPayload).1

/-- The payload after the range check: the one of the frame. -/
theorem bounded_payload {α : Type} (decode : Cst → Except ProtocolError α) :
    (¬payload.Fits → boundedPayload (d.recovered d.acceptedAxis).payloadIntegerOutOfRange decode (payload.typed true 1) =
      .error integerRangeError) ∧
    (payload.Fits → boundedPayload (d.recovered d.acceptedAxis).payloadIntegerOutOfRange decode (payload.typed true 1) =
      decode payload) := by
  refine ⟨fun hf => ?_, fun hf => ?_⟩
  · have hb : (d.recovered d.acceptedAxis).payloadIntegerOutOfRange = true :=
      Bool.not_eq_false _ ▸ fun he => hf (h.outOfRange_iff.mp he)
    rw [boundedPayload, hb]
    rfl
  · rw [boundedPayload, h.outOfRange_iff.mpr hf, payload.typed_fits hf]
    rfl

theorem decode_hello (hk : registeredKind s.kind = some .hello) (hdepth : payload.nesting < envelopeDepth) :
    (payload.members? = some [] → decodeRequest (utf8 d.text) = .ok ⟨s.requestId, .hello⟩) ∧
    (payload.members? ≠ some [] → FailsWith (utf8 d.text) (d.recovered d.acceptedAxis) invalidPayload) := by
  obtain ⟨m, hm, hdec⟩ := decode_shallow h hk hdepth
  have hkind : registeredKind (typedEnvelope s m).kind = some .hello := hk
  rw [FailsWith, hdec, requestKind, hkind]
  refine ⟨fun he => ?_, fun hne => ⟨helloPayloadError.message, ?_⟩⟩
  · have hempty : (typedEnvelope s m).payload.isEmpty = true := (isEmpty_typed hm h.object).mpr he
    simp only [hempty]
    rfl
  · have hempty : ¬(typedEnvelope s m).payload.isEmpty = true := fun he => hne ((isEmpty_typed hm h.object).mp he)
    simp only [hempty]
    rfl

/-- The kinds whose payload is mapped to a domain value. -/
structure MapsBy {α : Type} (s : RequestEnvelope) (decode : Cst → Except ProtocolError α) (wrap : α → RequestKind) :
    Prop where
  registered : registeredKind s.kind ≠ none
  maps : ∀ r m, requestKind r (typedEnvelope s m) =
    ((boundedPayload r.payloadIntegerOutOfRange decode m.value).map wrap).mapError fun e => .failure (r.fail e)

theorem decode_mapped {α : Type} {decode : Cst → Except ProtocolError α} {wrap : α → RequestKind}
    (hmaps : MapsBy s decode wrap) (hdepth : payload.nesting < envelopeDepth) :
    (¬payload.Fits → FailsWith (utf8 d.text) (d.recovered d.acceptedAxis) invalidPayload) ∧
    (payload.Fits → (∀ e, decode payload = .error e → FailsWith (utf8 d.text) (d.recovered d.acceptedAxis) e.code) ∧
      ∀ a, decode payload = .ok a → decodeRequest (utf8 d.text) = .ok ⟨s.requestId, wrap a⟩) := by
  obtain ⟨kind, hk⟩ := Option.ne_none_iff_exists'.mp hmaps.registered
  obtain ⟨m, hm, hdec⟩ := decode_shallow h hk hdepth
  rw [hmaps.maps, hm] at hdec
  refine ⟨fun hf => ⟨integerRangeError.message, ?_⟩, fun hf => ⟨fun e he => ⟨e.message, ?_⟩, fun a ha => ?_⟩⟩
  · rw [hdec, (bounded_payload h decode).1 hf]
    rfl
  · rw [hdec, (bounded_payload h decode).2 hf, he]
    rfl
  · rw [hdec, (bounded_payload h decode).2 hf, ha]
    rfl

end Payload

theorem mapsBy_submit [SerdeJson] {s : RequestEnvelope} (h : registeredKind s.kind = some .workflowSignalSubmit) :
    MapsBy s decodeSubmit .submitWorkflowSignal := by
  refine ⟨by rw [h]; exact Option.some_ne_none _, fun r m => ?_⟩
  have hkind : registeredKind (typedEnvelope s m).kind = some .workflowSignalSubmit := h
  rw [requestKind, hkind]
  rfl

theorem mapsBy_reconcile [SerdeJson] {s : RequestEnvelope} (h : registeredKind s.kind = some .workflowSignalReconcile) :
    MapsBy s decodeReconcile .reconcileWorkflowSignal := by
  refine ⟨by rw [h]; exact Option.some_ne_none _, fun r m => ?_⟩
  have hkind : registeredKind (typedEnvelope s m).kind = some .workflowSignalReconcile := h
  rw [requestKind, hkind]
  rfl

/-! ## Submitted and reconciled signals -/

theorem decodeSubmit_error [SerdeJson] {payload : Cst} {e : DeError} (h : SubmitPayload.de payload = .error e) :
    decodeSubmit payload = .error (payloadError "SubmitPayload".toList (utf8 payload.text) e) := by
  rw [decodeSubmit, h]
  rfl

theorem decodeReconcile_error [SerdeJson] {payload : Cst} {e : DeError} (h : ReconcilePayload.de payload = .error e) :
    decodeReconcile payload = .error (payloadError "ReconcilePayload".toList (utf8 payload.text) e) := by
  rw [decodeReconcile, h]
  rfl

theorem decodeSubmit_ok [SerdeJson] {payload : Cst} {dto : SubmitPayload} (h : SubmitPayload.de payload = .ok dto) :
    decodeSubmit payload = do
      let expected ← dto.expected.assignment
      let signal ← decodeSignal dto.signal
      return .submitSignal signal expected := by
  rw [decodeSubmit, h]
  rfl

theorem decodeReconcile_ok [SerdeJson] {payload : Cst} {dto : SignalDto} (h : ReconcilePayload.de payload = .ok dto) :
    decodeReconcile payload = decodeSignal dto := by
  rw [decodeReconcile, h]
  rfl

theorem not_ok {ε α : Type} {x : Except ε α} (h : ¬∃ a, x = .ok a) : ∃ e, x = .error e := by
  cases x with
  | error e => exact ⟨e, rfl⟩
  | ok a => exact absurd ⟨a, rfl⟩ h

section Values

variable [SerdeJson] {d : Doc} {s : RequestEnvelope} {payload : Cst} (h : d.Opened s payload)
include h

theorem fails_payload {kind : RegisteredKind} (hk : registeredKind s.kind = some kind) (hd : ¬payload.FitsPayload kind) :
    FailsWith (utf8 d.text) (d.recovered d.acceptedAxis) invalidPayload := by
  by_cases hdepth : payload.nesting < envelopeDepth
  · cases kind with
    | hello =>
      refine (decode_hello h hk hdepth).2 fun hm => hd ⟨hdepth, ?_, hm⟩
      exact (fits_iff h.clean).mp (fits_of_empty hm)
    | workflowSignalSubmit =>
      by_cases hf : payload.Fits
      · obtain ⟨e, he⟩ := not_ok fun hok => hd ⟨hdepth, (fits_iff h.clean).mp hf, hok⟩
        exact ((decode_mapped h (mapsBy_submit hk) hdepth).2 hf).1 _ (decodeSubmit_error he)
      · exact (decode_mapped h (mapsBy_submit hk) hdepth).1 hf
    | workflowSignalReconcile =>
      by_cases hf : payload.Fits
      · obtain ⟨e, he⟩ := not_ok fun hok => hd ⟨hdepth, (fits_iff h.clean).mp hf, hok⟩
        exact ((decode_mapped h (mapsBy_reconcile hk) hdepth).2 hf).1 _ (decodeReconcile_error he)
      · exact (decode_mapped h (mapsBy_reconcile hk) hdepth).1 hf
  · exact fails_deep h hk (Nat.le_of_not_lt hdepth)

theorem fails_expectation (hk : registeredKind s.kind = some .workflowSignalSubmit)
    (hfits : payload.FitsPayload .workflowSignalSubmit) {dto : SubmitPayload} (hdto : SubmitPayload.de payload = .ok dto)
    (hd : ∀ a, dto.expected.assignment ≠ .ok a) :
    FailsWith (utf8 d.text) (d.recovered d.acceptedAxis) invalidExpectation := by
  obtain ⟨e, he⟩ := not_ok fun ⟨a, ha⟩ => hd a ha
  rw [← coded_assignment _ e he]
  refine ((decode_mapped h (mapsBy_submit hk) hfits.depth).2 ((fits_iff h.clean).mpr hfits.range)).1 e ?_
  rw [decodeSubmit_ok hdto, he]
  rfl

theorem fails_signal {kind : RegisteredKind} (hk : registeredKind s.kind = some kind) (hfits : payload.FitsPayload kind)
    {dto : SignalDto} (hdto : payload.NamesSignal kind dto)
    (hexp : ∀ p, SubmitPayload.de payload = .ok p → kind = .workflowSignalSubmit → ∃ a, p.expected.assignment = .ok a)
    (hd : ∀ x, decodeSignal dto ≠ .ok x) : FailsWith (utf8 d.text) (d.recovered d.acceptedAxis) invalidSignal := by
  have hrange := (fits_iff h.clean).mpr hfits.range
  obtain ⟨e, he⟩ := not_ok fun ⟨a, ha⟩ => hd a ha
  rw [← coded_decodeSignal dto e he]
  cases hdto with
  | submit hp =>
    refine ((decode_mapped h (mapsBy_submit hk) hfits.depth).2 hrange).1 e ?_
    obtain ⟨a, ha⟩ := hexp _ hp rfl
    rw [decodeSubmit_ok hp, ha, he]
    rfl
  | reconcile hp =>
    refine ((decode_mapped h (mapsBy_reconcile hk) hfits.depth).2 hrange).1 e ?_
    rw [decodeReconcile_ok hp, he]

/-- A frame without a defect is decoded. -/
theorem decodes {kind : RegisteredKind} (hk : registeredKind s.kind = some kind) (hfits : payload.FitsPayload kind)
    (hexp : ∀ p, SubmitPayload.de payload = .ok p → kind = .workflowSignalSubmit → ∃ a, p.expected.assignment = .ok a)
    (hsig : ∀ dto, payload.NamesSignal kind dto → ∃ x, decodeSignal dto = .ok x) :
    ∃ request, decodeRequest (utf8 d.text) = .ok request := by
  have hrange := (fits_iff h.clean).mpr hfits.range
  cases kind with
  | hello => exact ⟨_, (decode_hello h hk hfits.depth).1 hfits.structured⟩
  | workflowSignalSubmit =>
    obtain ⟨dto, hdto⟩ := hfits.structured
    obtain ⟨a, ha⟩ := hexp dto hdto rfl
    obtain ⟨x, hx⟩ := hsig _ (.submit hdto)
    refine ⟨_, ((decode_mapped h (mapsBy_submit hk) hfits.depth).2 hrange).2 (.submitSignal x a) ?_⟩
    rw [decodeSubmit_ok hdto, ha, hx]
    rfl
  | workflowSignalReconcile =>
    obtain ⟨dto, hdto⟩ := hfits.structured
    obtain ⟨x, hx⟩ := hsig _ (.reconcile hdto)
    refine ⟨_, ((decode_mapped h (mapsBy_reconcile hk) hfits.depth).2 hrange).2 x ?_⟩
    rw [decodeReconcile_ok hdto, hx]

end Values

/-! ## Frames without early defects -/

theorem readable [SerdeJson] {frame : Bytes} (hs : ¬Stage.size.Defect frame) (hg : ¬Stage.grammar.Defect frame) :
    ∃ d : Doc, frame = utf8 d.text ∧ (utf8 d.text).length ≤ maxFrameBytes ∧ d.value.members?.isSome = true := by
  simp only [Stage.Defect, Classical.not_forall, Bool.not_eq_false] at hg
  obtain ⟨d, rfl, ho⟩ := hg
  exact ⟨d, rfl, Nat.le_of_not_lt hs, ho⟩

theorem cleanObject [SerdeJson] {d : Doc} (ho : d.value.members?.isSome = true) (h : ¬d.Defect .lexical) : d.CleanObject :=
  ⟨d.clean_iff.mpr fun f hf => h ⟨f, hf⟩, ho⟩

theorem accepted [SerdeJson] {d : Doc} (hl : (utf8 d.text).length ≤ maxFrameBytes) (hc : d.CleanObject) (hp : ¬d.Defect .protocol)
    (hv : ¬d.Defect .version) (ha : ¬d.Defect .axis) : d.Accepted := by
  simp only [Doc.Defect, Classical.not_forall, Classical.not_not] at hp hv
  obtain ⟨v, hv⟩ := hv
  refine ⟨hl, hc, hp, v, hv, fun kind hk => ?_⟩
  by_contra hne
  exact ha ⟨kind, v, hk, hv, hne⟩

theorem Doc.Opened.registered [SerdeJson] {d : Doc} {s : RequestEnvelope} {payload : Cst} (h : d.Opened s payload)
    (hr : ¬d.Defect .registry) : ∃ kind, registeredKind s.kind = some kind ∧ d.HasKind kind := by
  cases hk : registeredKind s.kind with
  | none => exact absurd ⟨s.kind, h.kind, hk⟩ hr
  | some kind => exact ⟨kind, rfl, s.kind, h.kind, hk⟩

theorem Doc.Opened.expected [SerdeJson] {d : Doc} {s : RequestEnvelope} {payload : Cst} (h : d.Opened s payload)
    {kind : RegisteredKind} (hk : d.HasKind kind) (he : ¬d.Defect .expectation) (p : SubmitPayload)
    (hp : SubmitPayload.de payload = .ok p) (hkind : kind = .workflowSignalSubmit) :
    ∃ a, p.expected.assignment = .ok a := by
  subst hkind
  by_contra hne
  exact he ⟨payload, p, hk, h.hasPayload, hp, fun a ha => hne ⟨a, ha⟩⟩

theorem Recovered.fail_doc (d : Doc) (axis : ResponseVersion) (e : ProtocolError) :
    (d.recovered axis).fail e = ⟨d.recoveredId, d.recoveredKind, axis, e⟩ := by
  rw [Recovered.fail, d.recovered_requestId, d.recovered_kind]
  rfl

/-! ## The first defect is reported -/

theorem reports_doc [SerdeJson] {d : Doc} {stage : Stage} (hs : Stage.grammar.order < stage.order) {axis : ResponseVersion}
    {code : ShortErrorCode} (h : FailsWith (utf8 d.text) (d.recovered axis) code) (ha : axis = d.answerAxis stage)
    (hc : d.Coded code stage) :
    ∃ f, decodeRequest (utf8 d.text) = .error (.failure f) ∧ stage.Reports (utf8 d.text) f := by
  obtain ⟨message, h⟩ := h
  refine ⟨_, h, ?_⟩
  rw [Recovered.fail_doc, ha]
  cases stage with
  | size => cases hs
  | grammar => exact absurd hs (Nat.lt_irrefl _)
  | _ => exact ⟨d, rfl, rfl, rfl, rfl, hc⟩

theorem reports_size [SerdeJson] {frame : Bytes} (h : Stage.size.Defect frame) :
    ∃ f, decodeRequest frame = .error (.failure f) ∧ Stage.size.Reports frame f := by
  obtain ⟨message, ht⟩ : ∃ message, frameText "request".toList requestTooLarge frame = .error ⟨requestTooLarge, message⟩ :=
    ⟨_, if_pos h⟩
  refine ⟨unaddressed .currentBootstrap ⟨requestTooLarge, message⟩, decodeRequest_of_probe ?_, rfl, rfl, rfl, rfl⟩
  rw [probe, ht]
  rfl

theorem frameText_error {what : Text} {code : ShortErrorCode} {frame : Bytes} {e : ProtocolError}
    (hs : frame.length ≤ maxFrameBytes) (h : frameText what code frame = .error e) : e.code = invalidEnvelope := by
  rw [frameText, if_neg (Nat.not_lt.mpr hs)] at h
  split at h
  · cases h
    rfl
  · split at h
    · cases h
      rfl
    · cases h

theorem scanFrame_error {text : Text} {e : ProtocolError} (h : scanFrame text = .error e) : e.code = invalidEnvelope := by
  rw [scanFrame] at h
  split at h
  · cases h
    rfl
  · split at h
    · cases h
    · cases h
      rfl

theorem reports_grammar [SerdeJson] {frame : Bytes} (hs : ¬Stage.size.Defect frame) (h : Stage.grammar.Defect frame) :
    ∃ f, decodeRequest frame = .error (.failure f) ∧ Stage.grammar.Reports frame f := by
  have hl : frame.length ≤ maxFrameBytes := Nat.le_of_not_lt hs
  cases ht : frameText "request".toList requestTooLarge frame with
  | error e =>
    refine ⟨unaddressed .currentBootstrap e, decodeRequest_of_probe ?_, rfl, rfl, rfl, frameText_error hl ht⟩
    rw [probe, ht]
    rfl
  | ok text =>
    obtain ⟨-, rfl, -⟩ := frameText_eq_ok.mp ht
    cases hscan : scanFrame text with
    | error e =>
      refine ⟨unaddressed .currentBootstrap e, decodeRequest_of_probe ?_, rfl, rfl, rfl, scanFrame_error hscan⟩
      rw [probe, ht]
      change (Except.mapError _ (scanFrame text) >>= _) = _
      rw [hscan]
      rfl
    | ok scan =>
      obtain ⟨d, rfl, ho, -⟩ := scanFrame_eq_ok.mp hscan
      rw [h d rfl] at ho
      cases ho

/-- The stages after the grammar, on the tree of the frame. -/
theorem reports_later [SerdeJson] {d : Doc} (hl : (utf8 d.text).length ≤ maxFrameBytes) (ho : d.value.members?.isSome = true)
    {stage : Stage} (hs : Stage.grammar.order < stage.order) (hd : d.Defect stage)
    (hearlier : ∀ earlier : Stage, earlier.order < stage.order → ¬d.Defect earlier) :
    ∃ f, decodeRequest (utf8 d.text) = .error (.failure f) ∧ stage.Reports (utf8 d.text) f := by
  by_cases hlex : stage = .lexical
  · subst hlex
    obtain ⟨code, hc, hf⟩ := fails_lexical hl ho hd
    exact reports_doc hs hf rfl hc
  have hc : Stage.lexical.order < stage.order → d.CleanObject := fun ho' => cleanObject ho (hearlier _ ho')
  have hopen : Stage.envelope.order < stage.order → ∃ s payload, d.Opened s payload := by
    intro ho'
    have horder : ∀ earlier : Stage, earlier.order ≤ Stage.envelope.order → ¬d.Defect earlier :=
      fun earlier he => hearlier earlier (Nat.lt_of_le_of_lt he ho')
    have hacc : d.Accepted := accepted hl (cleanObject ho (horder .lexical (by decide))) (horder .protocol (by decide))
      (horder .version (by decide)) (horder .axis (by decide))
    exact hacc.opened (Classical.not_not.mp (horder .envelope (by decide)))
  cases stage with
  | size => cases hs
  | grammar => exact absurd hs (Nat.lt_irrefl _)
  | lexical => exact absurd rfl hlex
  | protocol => exact reports_doc hs (fails_protocol hl (hc (by decide)) hd) rfl rfl
  | version =>
    have hp : d.HasString protocolKey protocolName := Classical.not_not.mp (hearlier .protocol (by decide))
    exact reports_doc hs (fails_versionToken hl (hc (by decide)) hp hd) rfl rfl
  | axis =>
    have hp : d.HasString protocolKey protocolName := Classical.not_not.mp (hearlier .protocol (by decide))
    exact reports_doc hs (fails_axis hl (hc (by decide)) hp hd) rfl rfl
  | envelope =>
    have hacc : d.Accepted := accepted hl (hc (by decide)) (hearlier .protocol (by decide))
      (hearlier .version (by decide)) (hearlier .axis (by decide))
    exact reports_doc hs (fails_envelope hacc hd) rfl rfl
  | registry =>
    obtain ⟨s, payload, hopened⟩ := hopen (by decide)
    exact reports_doc hs (fails_registry hopened hd) rfl rfl
  | payload =>
    obtain ⟨s, payload, hopened⟩ := hopen (by decide)
    obtain ⟨kind, m, hk, hm, hnot⟩ := hd
    rw [hm.unique hopened.hasPayload] at hnot
    exact reports_doc hs (fails_payload hopened (hopened.kind_of hk) hnot) rfl rfl
  | expectation =>
    obtain ⟨s, payload, hopened⟩ := hopen (by decide)
    obtain ⟨m, dto, hk, hm, hdto, hnot⟩ := hd
    rw [hm.unique hopened.hasPayload] at hdto
    have hfits : payload.FitsPayload .workflowSignalSubmit := by
      by_contra hne
      exact hearlier .payload (by decide) ⟨_, payload, hk, hopened.hasPayload, hne⟩
    exact reports_doc hs (fails_expectation hopened (hopened.kind_of hk) hfits hdto hnot) rfl rfl
  | signal =>
    obtain ⟨s, payload, hopened⟩ := hopen (by decide)
    obtain ⟨kind, m, dto, hk, hm, hdto, hnot⟩ := hd
    rw [hm.unique hopened.hasPayload] at hdto
    have hfits : payload.FitsPayload kind := by
      by_contra hne
      exact hearlier .payload (by decide) ⟨_, payload, hk, hopened.hasPayload, hne⟩
    exact reports_doc hs (fails_signal hopened (hopened.kind_of hk) hfits hdto
      (hopened.expected hk (hearlier .expectation (by decide))) hnot) rfl rfl

theorem decodes_clean [SerdeJson] {d : Doc} (hl : (utf8 d.text).length ≤ maxFrameBytes) (ho : d.value.members?.isSome = true)
    (h : ∀ stage, ¬d.Defect stage) : ∃ request, decodeRequest (utf8 d.text) = .ok request := by
  have hacc : d.Accepted := accepted hl (cleanObject ho (h .lexical)) (h .protocol) (h .version) (h .axis)
  obtain ⟨s, payload, hopened⟩ := hacc.opened (Classical.not_not.mp (h .envelope))
  obtain ⟨kind, hk, hkind⟩ := hopened.registered (h .registry)
  have hfits : payload.FitsPayload kind := by
    by_contra hne
    exact h .payload ⟨_, payload, hkind, hopened.hasPayload, hne⟩
  refine decodes hopened hk hfits (hopened.expected hkind (h .expectation)) fun dto hdto => ?_
  by_contra hne
  exact h .signal ⟨kind, payload, dto, hkind, hopened.hasPayload, hdto, fun x hx => hne ⟨x, hx⟩⟩

/-! ## Frames that differ in their payload only -/

theorem probe_hollowed (c : Cst) : c.hollowed.probe = c.probe := by
  cases c <;> rfl

theorem probe_hollowMember (k : List StrChar) (c : Cst) : (hollowMember k c).probe = c.probe := by
  rw [hollowMember]
  split
  · exact probe_hollowed c
  · rfl

theorem lastMember_hollowed (l : List (List StrChar × Cst)) (name : Text) :
    (lastMember (l.map fun m => (m.1, hollowMember m.1 m.2)) name).map Cst.probe = (lastMember l name).map Cst.probe := by
  induction l with
  | nil => rfl
  | cons m l ih =>
    have hor : ∀ a b : Option Cst, (a.or b).map Cst.probe = (a.map Cst.probe).or (b.map Cst.probe) := by
      intro a b
      cases a <;> rfl
    rw [List.map_cons, lastMember_cons, lastMember_cons, hor, hor, ih]
    by_cases hm : strValue m.1 = some name
    · simp [hm, probe_hollowMember]
    · simp [hm]

theorem probed_hollowed (d : Doc) : d.hollowed.probed = d.probed := by
  funext name
  obtain ⟨lead, v, trail⟩ := d
  cases v with
  | obj ms =>
    simp only [Doc.probed, Doc.hollowed, Doc.members, Cst.members?, ms.toList_hollowed, Option.getD_some]
    exact lastMember_hollowed ms.toList name
  | _ => rfl

def LexicallyClean [SerdeJson] (frame : Bytes) : Prop :=
  ∀ stage : Stage, stage.order ≤ Stage.lexical.order → ¬stage.Defect frame

theorem LexicallyClean.object [SerdeJson] {d : Doc} (h : LexicallyClean (utf8 d.text)) :
    (utf8 d.text).length ≤ maxFrameBytes ∧ d.CleanObject := by
  obtain ⟨d', he, hl, ho⟩ := readable (h .size (by decide)) (h .grammar (by decide))
  rw [← doc_inj he] at hl ho
  exact ⟨hl, cleanObject ho fun hd => h .lexical (by decide) ((defect_doc (by decide)).mpr hd)⟩

theorem same_probed {d d' : Doc} (he : d.hollowed = d'.hollowed) : d.probed = d'.probed := by
  rw [← probed_hollowed d, he, probed_hollowed]

section Same

variable [SerdeJson] {d d' : Doc} (h : LexicallyClean (utf8 d.text)) (h' : LexicallyClean (utf8 d'.text))
  (he : d.hollowed = d'.hollowed)
include h h' he

theorem same_fail (axis : ResponseVersion) (e : ProtocolError) : (d.recovered axis).fail e = (d'.recovered axis).fail e := by
  have hs := (safe_iff d).mp h.object.2.safe
  have hs' := (safe_iff d').mp h'.object.2.safe
  rw [Recovered.fail_doc, Recovered.fail_doc, Doc.recoveredId, Doc.recoveredId, Doc.recoveredKind, Doc.recoveredKind, hs, hs',
    same_probed he]

theorem same_version : (scanJsonTokens d.text).version = (scanJsonTokens d'.text).version := by
  rw [Scan.version, Scan.version, (failure_eq_none d).mpr h.object.2.clean, (failure_eq_none d').mpr h'.object.2.clean,
    topLevelValues_eq, topLevelValues_eq, same_probed he]

/-- An unsupported version is found before anything inside the payload is looked at. -/
theorem same_failure {v : UInt32} (hv : d.HasVersion v) (hu : ∀ kind, v ≠ acceptedVersion kind) :
    ∃ f, decodeRequest (utf8 d.text) = .error (.failure f) ∧ decodeRequest (utf8 d'.text) = .error (.failure f) := by
  obtain ⟨hl, hc⟩ := h.object
  obtain ⟨hl', hc'⟩ := h'.object
  have hpass := probe_doc hl hc.object
  have hpass' := probe_doc hl' hc'.object
  rw [← same_version h h' he] at hpass'
  cases hver : (scanJsonTokens d.text).version with
  | error e =>
    rw [hver] at hpass hpass'
    refine ⟨(d.recovered .currentBootstrap).fail e, decodeRequest_of_probe hpass, ?_⟩
    rw [same_fail h h' he]
    exact decodeRequest_of_probe hpass'
  | ok w =>
    rw [hver] at hpass hpass'
    have hw : w = v := by
      have := (Scan.version_eq_ok.mp hver).2.2
      rw [topLevelValues_eq, (hasVersion_iff hc v).mp hv] at this
      exact (Option.some.inj this).symm
    subst hw
    change probe _ = axisGate (d.recovered .currentBootstrap) w at hpass
    change probe _ = axisGate (d'.recovered .currentBootstrap) w at hpass'
    have hkind : (d.recovered .currentBootstrap).kind = (d'.recovered .currentBootstrap).kind := by
      rw [d.recovered_kind, d'.recovered_kind, hc.recoveredKind, hc'.recoveredKind, same_probed he]
    cases hk : (d.recovered .currentBootstrap).kind with
    | some kind =>
      have hk' := hkind.symm.trans hk
      rw [axisGate, hk] at hpass
      rw [axisGate, hk'] at hpass'
      simp only [hu kind, ite_false] at hpass hpass'
      refine ⟨_, decodeRequest_of_probe hpass, ?_⟩
      rw [same_fail h h' he]
      exact decodeRequest_of_probe hpass'
    | none =>
      have hk' := hkind.symm.trans hk
      unfold axisGate at hpass hpass'
      rw [hk] at hpass
      rw [hk'] at hpass'
      simp only at hpass hpass'
      have htext : (d.recovered .currentBootstrap).envelopeText = (d'.recovered .currentBootstrap).envelopeText := by
        change (scanJsonTokens d.text).envelopeText = (scanJsonTokens d'.text).envelopeText
        rw [envelopeText_doc, envelopeText_doc, he]
      cases hs : RequestEnvelope.fromStr (d.recovered .currentBootstrap).envelopeText with
      | ok s =>
        obtain ⟨e, version, hd, -⟩ := probed_of_probe hpass
        obtain ⟨p, ver, i, k, m, hm, hver', -, -, -⟩ := typed_request hd hs
        rw [← doc_inj hd.frame] at hm hd
        have hsver : s.version = w := by
          have := (hasVersion_iff hc w).mp hv
          rw [hc.probed, hm.version] at this
          exact Option.some.inj ((probe_deU32 hver').symm.trans this)
        exact absurd (hsver ▸ version_of_structural hpass hs) (hu s.kind)
      | error e =>
        refine ⟨(d.recovered .currentBootstrap).fail ⟨invalidEnvelope, SerdeJson.display requestType
          (utf8 (d.recovered .currentBootstrap).envelopeText) e⟩, ?_, ?_⟩
        · rw [decodeRequest, hpass]
          change (Except.mapError _ (RequestEnvelope.fromStr (d.recovered .currentBootstrap).envelopeText) >>= _) = _
          rw [hs]
          rfl
        · rw [decodeRequest, hpass', same_fail h h' he]
          change (Except.mapError _ (RequestEnvelope.fromStr (d'.recovered .currentBootstrap).envelopeText) >>= _) = _
          rw [← htext, hs]
          rfl

end Same

/-! ## Precedence -/

theorem decodeRequest_precedence [SerdeJson] :
    (∀ frame stage, Stage.First frame stage →
      ∃ f, decodeRequest frame = .error (.failure f) ∧ stage.Reports frame f) ∧
    (∀ frame, (∀ stage : Stage, ¬stage.Defect frame) → ∃ request, decodeRequest frame = .ok request) ∧
    ∀ d d' : Doc, LexicallyClean (utf8 d.text) → LexicallyClean (utf8 d'.text) → d.hollowed = d'.hollowed →
      ∀ v, d.HasVersion v → (∀ kind, v ≠ acceptedVersion kind) →
        ∃ f, decodeRequest (utf8 d.text) = .error (.failure f) ∧ decodeRequest (utf8 d'.text) = .error (.failure f) := by
  refine ⟨?_, fun frame h => ?_, fun d d' h h' he v hv hu => same_failure h h' he hv hu⟩
  · rintro frame stage ⟨hd, hearlier⟩
    by_cases hs : stage = .size
    · subst hs
      exact reports_size hd
    have hsize : ¬Stage.size.Defect frame := by
      refine hearlier .size ?_
      cases stage with
      | size => exact absurd rfl hs
      | _ => decide
    by_cases hg : stage = .grammar
    · subst hg
      exact reports_grammar hsize hd
    have hlater : Stage.grammar.order < stage.order := by
      cases stage with
      | size => exact absurd rfl hs
      | grammar => exact absurd rfl hg
      | _ => decide
    obtain ⟨d, rfl, hl, ho⟩ := readable hsize (hearlier .grammar hlater)
    refine reports_later hl ho hlater ((defect_doc hlater).mp hd) fun earlier hlt => ?_
    cases earlier with
    | size => exact id
    | grammar => exact id
    | _ => exact fun hd' => hearlier _ hlt ((defect_doc (by decide)).mpr hd')
  · obtain ⟨d, rfl, hl, ho⟩ := readable (h .size) (h .grammar)
    refine decodes_clean hl ho fun stage => ?_
    cases stage with
    | size => exact id
    | grammar => exact id
    | _ => exact fun hd => h _ ((defect_doc (by decide)).mpr hd)

end Aizign
