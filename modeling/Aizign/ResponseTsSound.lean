import Aizign.ResponseTs

/-!
# The package reads the responses of the core

What `encode_response` writes passes the probe of the package on the axis of the
response, and its builders accept every payload the core can send.
-/

namespace Aizign

open ErrorCodes

/-! ## Written structs -/

structure ReadsFields (ps : Properties JsValue) (fs : List Field) (vs : List (Option Cst)) : Prop where
  closed : ∀ fail path, checkKeys fail (fieldNames fs) path ps = .ok ()
  owned : ∀ key, hasOwn ps key = (ownValue ps key).isSome
  values : (fs.map fun f => ownValue ps f.name) = vs.map (Option.map Cst.js)

section
variable {fs : List Field} (vs : List (Option Cst)) (hn : (fieldNames fs).Nodup)
  (hp : (fieldNames fs).all isPlainName = true) (hl : vs.length = fs.length)
include hn hp hl

theorem readsFields_object {ms : List (Text × Cst)} (hperm : ms.Perm (presentMembers fs vs)) :
    ∃ ps, plainObject? (jsonObject ms).js = some ps ∧ ReadsFields ps fs vs := by
  have hnodup : ((presentMembers fs vs).map Prod.fst).Nodup := presentMembers_nodup hn
  have hmem : ∀ m ∈ ms, m.1 ∈ fieldNames fs := fun m hm => mem_presentMembers (hperm.mem_iff.mp hm)
  have hjs := js_jsonObject ((hperm.map Prod.fst).nodup_iff.mpr hnodup) fun m hm => List.all_eq_true.mp hp _ (hmem m hm)
  refine ⟨_, by rw [hjs, jsObject]; rfl, fun fail path => ?_, hasOwn_literal _, ?_⟩
  · apply checkKeys_literal
    intro m hm
    obtain ⟨x, hx, rfl⟩ := List.mem_map.mp hm
    exact hmem x hx
  · have hlookup : ∀ key, lookupMember ms key = lookupMember (presentMembers fs vs) key := lookupMember_perm hnodup hperm
    have hvalues := congrArg (List.map (Option.map Cst.js)) (lookup_presentMembers hn hl)
    rw [List.map_map] at hvalues
    simp only [ownValue_members, hlookup]
    exact hvalues

theorem readsFields_struct : ∃ ps, plainObject? (jsonStruct fs vs).js = some ps ∧ ReadsFields ps fs vs :=
  readsFields_object vs hn hp hl (List.Perm.refl _)

theorem readsFields_map : ∃ ps, plainObject? (jsonMap fs vs).js = some ps ∧ ReadsFields ps fs vs :=
  readsFields_object vs hn hp hl (sortMembers_perm _)

end

/-! ## Payloads -/

def Result.ts {δ : Type} (result : Result δ) : TsResult δ := ⟨result.disposition, utf16 result.eventId.value⟩

theorem requestId?_identifier {max : Nat} (hmax : max = identifierMaxLen) (x : Identifier max) :
    requestId? (.string (utf16 x.value)) = some (utf16 x.value) := by
  subst hmax
  have hcodes : utf16 x.value = codes x.value := (codes_eq_utf16 (isAscii_of_plain x.plain)).symm
  rw [requestId?, hcodes, if_pos (identifierPattern_iff.mpr ⟨x, rfl⟩)]

theorem buildResultWith_encode {δ : Type} {all : List δ} {wire : δ → Text} {message : Text} {result : Result δ}
    (h : (all.find? fun d => (JsValue.string (utf16 (wire result.disposition))).isString (wire d)) = some result.disposition) :
    buildResultWith all wire message (encodeResultWith wire result).js = .ok result.ts := by
  obtain ⟨ps, hps, hread⟩ := readsFields_map [some (jsonString (wire result.disposition)),
    some (jsonString result.eventId.value)] resultFields_nodup (by decide) rfl
  have hvalues := hread.values
  simp only [resultFields, List.map_cons, List.map_nil, Option.map_some, js_jsonString, List.cons.injEq, and_true] at hvalues
  have hclosed : assertOnlyKeys payloadFail ps ["disposition".toList, "eventId".toList] = .ok () := hread.closed payloadFail _
  have hid : identifier? (.string (utf16 result.eventId.value)) = some (utf16 result.eventId.value) :=
    requestId?_identifier rfl result.eventId
  unfold buildResultWith
  rw [encodeResultWith, hps]
  simp only [hclosed, ownDataValue_eq_ok.mpr hvalues.1, ownDataValue_eq_ok.mpr hvalues.2, bind, Except.bind, h, hid, pure, Except.pure]
  rfl

theorem buildSignalResult_encode (result : SignalResult) : buildSignalResult (encodeResult result).js = .ok result.ts :=
  buildResultWith_encode (by cases result.disposition <;> decide)

theorem buildReconciliationResult_encode (result : ReconciliationResult) :
    buildReconciliationResult (encodeReconciliationResult result).js = .ok result.ts :=
  buildResultWith_encode (by cases result.disposition <;> decide)

/-! ## Capabilities -/

theorem lowerUnit_toNat (c : Char) : lowerUnit c.toNat = isAsciiLowercase c := rfl

theorem digitUnit_toNat (c : Char) : digitUnit c.toNat = c.isDigit := rfl

/-- The pattern is the core's split at the dots, at the start of a token and inside one. -/
theorem capabilityPattern_codes (name : Text) :
    capabilityPattern true (codes name) = (name.splitOn '.').all capabilityToken ∧
      ∀ head tail, name.splitOn '.' = head :: tail → capabilityPattern false (codes name) =
        ((head.all fun c => isAsciiLowercase c || c.isDigit) && tail.all capabilityToken) := by
  induction name with
  | nil =>
    refine ⟨rfl, fun head tail h => ?_⟩
    rw [List.splitOn_nil] at h
    cases h
    rfl
  | cons c name ih =>
    obtain ⟨head, tail, hs⟩ := List.exists_cons_of_ne_nil (List.splitOnP_ne_nil (fun x => x == '.') name)
    have hrest := ih.2 head tail hs
    have hsplit : (c :: name).splitOn '.' = if c = '.' then [] :: head :: tail else (c :: head) :: tail := by
      rw [List.splitOn, List.splitOnP_cons_eq_if_modifyHead, hs]
      simp [List.modifyHead]
    rw [List.splitOn] at ih
    rw [hs] at ih
    by_cases hc : c = '.'
    · subst hc
      rw [if_pos rfl] at hsplit
      refine ⟨by rw [hsplit]; rfl, fun head' tail' h => ?_⟩
      rw [hsplit] at h
      cases h
      rw [codes_cons, capabilityPattern, if_pos rfl, ih.1]
      rfl
    · have hne : c.toNat ≠ '.'.toNat := fun h => hc (Char.toNat_inj.mp h)
      rw [if_neg hc] at hsplit
      refine ⟨?_, fun head' tail' h => ?_⟩
      · rw [hsplit, codes_cons, capabilityPattern, hrest, lowerUnit_toNat, List.all_cons, capabilityToken, Bool.and_assoc]
      · rw [hsplit] at h
        cases h
        rw [codes_cons, capabilityPattern, if_neg hne, hrest, lowerUnit_toNat, digitUnit_toNat, List.all_cons, Bool.and_assoc]

theorem capabilityPattern_ascii {start : Bool} {u : Units} (h : capabilityPattern start u = true) : ∀ x ∈ u, x < 0x80 := by
  have hunit : ∀ x, (lowerUnit x || digitUnit x) = true → x < 0x80 := by
    intro x hx
    simp only [lowerUnit, digitUnit, Bool.or_eq_true, Bool.and_eq_true, decide_eq_true_eq] at hx
    omega
  induction u generalizing start with
  | nil => exact fun _ hx => absurd hx List.not_mem_nil
  | cons v u ih =>
    have hstep : v < 0x80 ∧ ∃ start, capabilityPattern start u = true := by
      cases start with
      | true =>
        rw [capabilityPattern, Bool.and_eq_true] at h
        exact ⟨hunit v (by rw [h.1, Bool.true_or]), false, h.2⟩
      | false =>
        unfold capabilityPattern at h
        split at h
        · rename_i hdot
          exact ⟨by rw [hdot]; decide, true, h⟩
        · rw [Bool.and_eq_true] at h
          exact ⟨hunit v h.1, false, h.2⟩
    obtain ⟨hv, start', hu⟩ := hstep
    intro x hx
    rcases List.mem_cons.mp hx with rfl | hx
    · exact hv
    · exact ih hu x hx

theorem isAscii_of_codes {t : Text} (h : ∀ x ∈ codes t, x < 0x80) : isAscii t = true := by
  obtain ⟨s, hs, ha⟩ := ascii_codes h
  rwa [codes_inj.mp hs]

theorem capability?_of_valid {name : Text} (h : validCapability name = true) :
    capability? (.string (utf16 name)) = some (utf16 name) := by
  simp only [validCapability, Bool.and_eq_true, decide_eq_true_eq] at h
  have hpattern : capabilityPattern true (codes name) = true := (capabilityPattern_codes name).1.trans h.2
  have hascii := isAscii_of_codes (capabilityPattern_ascii hpattern)
  have hlen : (codes name).length ≤ 128 := by
    rw [codes, List.length_map, ← length_utf8_ascii hascii]
    exact h.1.1
  rw [capability?, ← codes_eq_utf16 hascii, if_pos ⟨hlen, hpattern⟩]

theorem checkCapabilities_ts {seen cs : List Text} (h : checkCapabilities seen cs = .ok ()) :
    tsCheckCapabilities (seen.map utf16) (cs.map fun c => .string (utf16 c)) = .ok (cs.map utf16) := by
  induction cs generalizing seen with
  | nil => rfl
  | cons c cs ih =>
    unfold checkCapabilities at h
    split at h
    · cases h
    · rename_i hvalid
      rw [Bool.not_eq_true', Bool.not_eq_false] at hvalid
      split at h
      · cases h
      · rename_i hseen
        have hnew : utf16 c ∉ seen.map utf16 := by
          intro hm
          obtain ⟨s, hs, he⟩ := List.mem_map.mp hm
          exact hseen (utf16_inj.mp he ▸ hs)
        have hrest := ih h
        rw [List.map_cons] at hrest
        rw [List.map_cons, tsCheckCapabilities, capability?_of_valid hvalid]
        simp only [if_neg hnew, hrest]
        rfl

def HelloInfo.ts (info : HelloInfo) : TsHelloInfo :=
  ⟨info.protocolVersion, info.journalSchemaVersion, info.capabilities.map utf16, utf16 info.package.name,
    utf16 info.package.version⟩

theorem versionOf_nat {v : UInt32} (h : v ≠ 0) : versionOf (.number (.integral (v.toNat : Nat))) = some v := by
  have hlt := v.toNat_lt
  have hpos : 1 ≤ v.toNat := Nat.one_le_iff_ne_zero.mpr fun he => h (UInt32.toNat_inj.mp he)
  have hmax : u32Max = 4294967295 := rfl
  have hrange : (1 : Int) ≤ v.toNat ∧ (v.toNat : Int) ≤ u32Max := by omega
  rw [versionOf, if_pos hrange, Int.toNat_natCast, UInt32.ofNat_toNat]

theorem wellFormedString?_utf16 (t : Text) : wellFormedString? (.string (utf16 t)) = some (utf16 t) := by
  have h : isWellFormedUnicode (utf16 t) = true := by
    rw [wellFormed_iff, fromUtf16_utf16]
    rfl
  rw [wellFormedString?, if_pos h]

theorem assertClosedObject_of_plain {fail : Units → TsError} {v : JsValue} {allowed : List Text} {path : Text}
    {ps : Properties JsValue} (hv : plainObject? v = some ps) (hc : checkKeys fail allowed path ps = .ok ()) :
    assertClosedObject fail v allowed path = .ok ps := by
  rw [assertClosedObject, hv]
  simp only [hc]
  rfl

theorem js_u32 (v : UInt32) : (jsonNat v.toNat).js = .number (.integral (v.toNat : Nat)) :=
  js_jsonNat (Nat.le_trans (Nat.le_of_lt v.toNat_lt) (by decide))

theorem buildHelloInfo_value {info : HelloInfo} (h : info.validate = .ok ()) : buildHelloInfo info.value.js = .ok info.ts := by
  obtain ⟨hprotocol, hschema, hcaps⟩ : info.protocolVersion ≠ 0 ∧ info.journalSchemaVersion ≠ 0 ∧
      checkCapabilities [] info.capabilities = .ok () := by
    unfold HelloInfo.validate at h
    split at h
    · cases h
    · split at h
      · cases h
      · exact ⟨‹_›, ‹_›, h⟩
  obtain ⟨qs, hqs, hpackage⟩ := readsFields_map [some (jsonString info.package.name),
    some (jsonString info.package.version)] packageFields_nodup (by decide) rfl
  obtain ⟨ps, hps, hread⟩ := readsFields_map [some (jsonNat info.protocolVersion.toNat),
    some (jsonNat info.journalSchemaVersion.toNat), some (jsonArray (info.capabilities.map jsonString)),
    some info.package.value] helloFields_nodup (by decide) rfl
  have hcapValues : (jsonArray (info.capabilities.map jsonString)).js =
      .array (info.capabilities.map fun c => .string (utf16 c)) := by
    rw [js_jsonArray, List.map_map]
    exact congrArg JsValue.array (List.map_congr_left fun c _ => js_jsonString c)
  have hq := hpackage.values
  have hp := hread.values
  simp only [packageFields, List.map_cons, List.map_nil, Option.map_some, js_jsonString, List.cons.injEq, and_true] at hq
  simp only [helloFields, List.map_cons, List.map_nil, Option.map_some, js_u32, hcapValues, List.cons.injEq, and_true] at hp
  have hcheck : tsCheckCapabilities [] (info.capabilities.map fun c => .string (utf16 c)) = .ok (info.capabilities.map utf16) :=
    checkCapabilities_ts hcaps
  have hclosed : assertClosedObject payloadFail info.value.js ["protocolVersion".toList, "journalSchemaVersion".toList,
      "capabilities".toList, "package".toList] "hello payload".toList = .ok ps :=
    assertClosedObject_of_plain hps (hread.closed payloadFail _)
  have hclosed' : assertClosedObject payloadFail info.package.value.js ["name".toList, "version".toList] "package".toList =
      .ok qs := assertClosedObject_of_plain hqs (hpackage.closed payloadFail _)
  unfold buildHelloInfo
  rw [hclosed]
  simp only [bind, Except.bind, ownDataValue_eq_ok.mpr hp.1, ownDataValue_eq_ok.mpr hp.2.1, ownDataValue_eq_ok.mpr hp.2.2.1,
    ownDataValue_eq_ok.mpr hp.2.2.2, versionOf_nat hprotocol, versionOf_nat hschema, arrayValues, hcheck, hclosed',
    ownDataValue_eq_ok.mpr hq.1, ownDataValue_eq_ok.mpr hq.2, wellFormedString?_utf16, pure, Except.pure]
  rfl

theorem tsErrorBody_cst (e : ProtocolError) :
    tsErrorBody (ErrorDto.cst ⟨e.code.value, e.message⟩).js = .ok (.error (utf16 e.code.value) (utf16 e.message)) := by
  obtain ⟨ps, hps, hread⟩ := readsFields_struct [some (jsonString e.code.value), some (jsonString e.message)]
    errorFields_nodup (by decide) rfl
  have hvalues := hread.values
  simp only [errorFields, List.map_cons, List.map_nil, Option.map_some, js_jsonString, List.cons.injEq, and_true] at hvalues
  have hclosed : assertOnlyKeys envelopeFail ps ["code".toList, "message".toList] = .ok () := hread.closed envelopeFail _
  have hcodeValue : ownValue ps "code".toList = some (.string (utf16 e.code.value)) := hvalues.1
  have hcode : shortErrorCode? (.string (utf16 e.code.value)) = some (utf16 e.code.value) := by
    rw [shortErrorCode?, ← codes_eq_utf16 (isAscii_of_plain e.code.plain), if_pos (shortErrorCodePattern_iff.mpr ⟨e.code, rfl⟩)]
  unfold tsErrorBody
  rw [ErrorDto.cst, hps]
  simp only [hclosed, ownDataValue_eq_ok.mpr hcodeValue, ownDataValue_eq_ok.mpr hvalues.2, bind, Except.bind, hcode,
    wellFormedString?_utf16, pure, Except.pure]

/-! ## The version token -/

theorem unitsValue_codes (t : Text) : unitsValue (codes t) = digitsValue t := by
  rw [unitsValue, codes, List.foldl_map, digitsValue]

theorem unitsValue_cons (u : Nat) (s : Units) : unitsValue (u :: s) = (u - '0'.toNat) * 10 ^ s.length + unitsValue s := by
  have key : ∀ (s : Units) (n : Nat), s.foldl (fun n u => 10 * n + (u - '0'.toNat)) n = n * 10 ^ s.length + unitsValue s := by
    intro s
    induction s with
    | nil => intro n; simp [unitsValue]
    | cons u s ih =>
      intro n
      have hshift : 10 * n * 10 ^ s.length = n * (10 ^ s.length * 10) := by
        rw [Nat.mul_comm 10 n, Nat.mul_assoc, Nat.mul_comm 10]
      rw [unitsValue, List.foldl_cons, List.foldl_cons, ih, ih (10 * 0 + _), List.length_cons, pow_succ, Nat.add_mul, hshift,
        Nat.mul_zero, Nat.zero_add, Nat.add_assoc]
  rw [← key s (u - '0'.toNat), unitsValue, List.foldl_cons, Nat.mul_zero, Nat.zero_add]

theorem unitsValue_lt {s : Units} (h : s.all digitUnit = true) : unitsValue s < 10 ^ s.length := by
  induction s with
  | nil => decide
  | cons u s ih =>
    rw [List.all_cons, Bool.and_eq_true] at h
    have hu : u - '0'.toNat ≤ 9 := by
      have hd := h.1
      simp only [digitUnit, Bool.and_eq_true, decide_eq_true_eq] at hd
      have hz : '0'.toNat = 48 := rfl
      omega
    have hmul : (u - '0'.toNat) * 10 ^ s.length ≤ 9 * 10 ^ s.length := Nat.mul_le_mul_right _ hu
    have := ih h.2
    rw [unitsValue_cons, List.length_cons, pow_succ]
    omega

/-- Digits of one length are ordered as the numbers they spell. -/
theorem unitsLt_value {s t : Units} (hs : s.all digitUnit = true) (ht : t.all digitUnit = true) (hl : s.length = t.length)
    (h : unitsLt s t = true) : unitsValue s < unitsValue t := by
  induction s generalizing t with
  | nil =>
    rw [List.length_nil, eq_comm, List.length_eq_zero_iff] at hl
    subst hl
    cases h
  | cons u s ih =>
    cases t with
    | nil => cases hl
    | cons v t =>
      rw [List.all_cons, Bool.and_eq_true] at hs ht
      have hlen : s.length = t.length := Nat.succ.inj hl
      rw [unitsValue_cons, unitsValue_cons, hlen]
      unfold unitsLt at h
      split at h
      · rename_i he
        rw [he]
        exact Nat.add_lt_add_left (ih hs.2 ht.2 hlen h) _
      · have hlt : u < v := of_decide_eq_true h
        have hd : u - '0'.toNat + 1 ≤ v - '0'.toNat := by
          have hu := hs.1
          simp only [digitUnit, Bool.and_eq_true, decide_eq_true_eq] at hu
          have hz : '0'.toNat = 48 := rfl
          omega
        have hmul := Nat.mul_le_mul_right (10 ^ t.length) hd
        have hs' := unitsValue_lt hs.2
        rw [hlen] at hs'
        rw [Nat.add_mul, Nat.one_mul] at hmul
        omega

theorem decimal_digits (n : Nat) : (codes (decimal n)).all digitUnit = true := by
  rw [codes, List.all_map]
  exact all_isDigit_decimal n

theorem unitsValue_decimal (n : Nat) : unitsValue (codes (decimal n)) = n := by
  rw [unitsValue_codes, digitsValue_decimal]

theorem length_decimal {n : Nat} (h : n ≤ u32Max) : (codes (decimal n)).length ≤ 10 := by
  by_cases hn : n = 0
  · subst hn
    decide
  · obtain ⟨c, r, hd, hc⟩ := decimal_head (Nat.pos_of_ne_zero hn)
    have hvalue := unitsValue_decimal n
    have hdigits := decimal_digits n
    rw [hd, codes_cons] at hvalue hdigits ⊢
    rw [unitsValue_cons] at hvalue
    have hfirst : 1 ≤ c.toNat - '0'.toNat := by
      rw [List.all_cons, Bool.and_eq_true] at hdigits
      have hdigit := hdigits.1
      simp only [digitUnit, Bool.and_eq_true, decide_eq_true_eq] at hdigit
      have hne : c.toNat ≠ '0'.toNat := fun he => hc (Char.toNat_inj.mp he)
      have hz : '0'.toNat = 48 := rfl
      omega
    by_contra hlong
    have hlen : 10 ≤ (codes r).length := by
      rw [List.length_cons] at hlong
      omega
    have hpow : 10 ^ 10 ≤ 10 ^ (codes r).length := Nat.pow_le_pow_right (by decide) hlen
    have hmul := Nat.mul_le_mul_right (10 ^ (codes r).length) hfirst
    have hmax : u32Max = 4294967295 := rfl
    omega

theorem tsParseVersionToken_u32 (v : UInt32) : tsParseVersionToken (some (codes (decimal v.toNat))) = some v.toNat := by
  have hmax : v.toNat ≤ u32Max := Nat.le_of_lt_succ v.toNat_lt
  have hhead : (codes (decimal v.toNat)).head? ≠ some '-'.toNat := by
    intro hm
    have hall := decimal_digits v.toNat
    obtain ⟨r, hr⟩ := List.head?_eq_some_iff.mp hm
    rw [hr, List.all_cons] at hall
    cases hall
  have horder : ¬((codes (decimal v.toNat)).length = maxVersionText.length ∧
      unitsLt maxVersionText (codes (decimal v.toNat)) = true) := by
    intro h
    have hlt := unitsLt_value (by decide) (decimal_digits v.toNat) h.1.symm h.2
    rw [unitsValue_decimal, show unitsValue maxVersionText = u32Max by decide] at hlt
    omega
  have hlength : ¬maxVersionText.length < (codes (decimal v.toNat)).length := Nat.not_lt.mpr (length_decimal hmax)
  unfold tsParseVersionToken
  simp only [if_neg hhead, if_neg hlength, if_neg horder, unitsValue_decimal]

/-! ## The probe -/

def ResponseVersion.ts : ResponseVersion → TsVersion
  | .bootstrap v => ⟨.bootstrap, v.toNat⟩
  | .acceptedOperation v => ⟨.acceptedOperation, v.toNat⟩

def ResponseBody.ts : ResponseBody → TsResponseBody
  | .hello info => .hello info.ts
  | .workflowSignal result => .workflowSignal result.ts
  | .workflowSignalReconciliation result => .workflowSignalReconciliation result.ts
  | .error e => .error (utf16 e.code.value) (utf16 e.message)

def Response.ts (r : Response) : TsResponse := ⟨r.version.ts, r.requestId.map utf16, r.kind.map utf16, r.body.ts⟩

theorem ResponseVersion.ts_version (v : ResponseVersion) : v.ts.version = v.wire.toNat := by cases v <;> rfl

def Response.scan (r : Response) : JsonTokenScan := tsScanJsonTokens (utf16 r.cst.doc.text)

theorem Response.probed (r : Response) {name : Text} (ha : isAscii name = true) :
    r.scan.topLevelValues (codes name) = (lookupMember r.cst.doc.named name).map fun c => c.probe.units := by
  obtain ⟨-, -, -, -, -, hvalues, -⟩ := scanners_agree r.cst.doc.text
  rw [Response.scan, codes_eq_utf16 ha, ← hvalues, topLevelValues_eq, r.cleanObject.probed, Option.map_map]
  rfl

theorem string_units (t : Text) : (jsonString t).probe.units.string? = some (utf16 t) := by
  rw [jsonString, Cst.probe, strValue_jsonBody]
  rfl

theorem nullable_units (t : Option Text) : (jsonNullable t).probe.units.string? = t.map utf16 := by
  cases t with
  | none => rfl
  | some t => exact string_units t

theorem Response.scan_kind (r : Response) : (correlationFromScan r.scan).kind = r.kind.map utf16 := by
  have hdefect : r.scan.topLevelMemberNameUnicodeDefect = false := by
    obtain ⟨-, -, -, -, hsafe, -⟩ := scanners_agree r.cst.doc.text
    rw [r.cleanObject.safe] at hsafe
    exact Bool.eq_false_iff.mpr fun h => by cases hsafe.mpr h
  have hkind : (r.scan.topLevelValues (codes kindKey)).bind JsonProbeValue.string? = r.kind.map utf16 := by
    rw [r.probed rfl, r.members.kind]
    exact nullable_units r.kind
  rw [correlationFromScan, hdefect, if_neg Bool.false_ne_true, hkind]

theorem Response.scan_ok (r : Response) :
    (r.scan.topLevelValues (codes okKey)).bind JsonProbeValue.boolean? = some r.body.ok := by
  rw [r.probed rfl, r.members.ok]
  rfl

theorem Response.scan_code (r : Response) :
    r.scan.errorCode.filter shortErrorCodePattern = (r.body.errorDto.map ErrorDto.code).map utf16 := by
  obtain ⟨-, -, -, -, -, -, hcode⟩ := scanners_agree r.cst.doc.text
  rw [Response.scan, ← hcode, r.errorCode]
  cases hb : r.body with
  | error e =>
    have hpattern : shortErrorCodePattern (utf16 e.code.value) = true := by
      rw [← codes_eq_utf16 (isAscii_of_plain e.code.plain)]
      exact shortErrorCodePattern_iff.mpr ⟨e.code, rfl⟩
    simp only [ResponseBody.errorDto, Option.map_some, Option.filter_some, if_pos hpattern]
  | _ => rfl

theorem utf16_eq_codes {s t : Text} (ht : isAscii t = true) : utf16 s = codes t ↔ s = t := by
  rw [codes_eq_utf16 ht, utf16_inj]

theorem isBootstrapCode_utf16 (code : Text) :
    isBootstrapCode (utf16 code) = isUnconditionallyBootstrapErrorCode code := by
  have hcode : ∀ known : ShortErrorCode, utf16 code = codes known.value ↔ code = known.value :=
    fun known => utf16_eq_codes (isAscii_of_plain known.plain)
  rw [Bool.eq_iff_iff, isBootstrapCode, isUnconditionallyBootstrapErrorCode]
  simp only [decide_eq_true_eq, hcode, Bool.or_eq_true, beq_iff_eq, or_assoc]

/-- The axis is the response's own. -/
theorem Response.scan_axis {r : Response} (h : r.Consistent) (hb : r.CarriesBootstrap) {context : TsContext}
    (hc : context.requestAxis = some r.version.ts.axis) : r.scan.axis context = r.version.ts.axis := by
  unfold JsonTokenScan.axis
  rw [r.scan_ok, r.scan_code, r.scan_kind, hc]
  have hne : codes kindWorkflowSignalSubmit ≠ codes kindHello ∧ codes kindWorkflowSignalReconcile ≠ codes kindHello := by decide
  have hkinds : utf16 kindHello = codes kindHello ∧ utf16 kindWorkflowSignalSubmit = codes kindWorkflowSignalSubmit ∧
      utf16 kindWorkflowSignalReconcile = codes kindWorkflowSignalReconcile := by decide
  cases h with
  | hello info hv hk hbody hi => simp [hbody, hk, hv, hkinds.1, ResponseBody.ok, ResponseVersion.ts]
  | submitted v x hv hk hbody => simp [hbody, hk, hv, hkinds.2.1, hne.1, ResponseBody.ok, ResponseVersion.ts]
  | reconciled v x hv hk hbody => simp [hbody, hk, hv, hkinds.2.2, hne.2, ResponseBody.ok, ResponseVersion.ts]
  | failed e hbody =>
    simp only [hbody, ResponseBody.ok, ResponseBody.errorDto, Option.map_some, Option.any_some, isBootstrapCode_utf16,
      Option.some.injEq, Bool.false_eq_true, if_false, true_and, Option.getD_some]
    split
    · rename_i hboot
      obtain ⟨v, hv⟩ := hb e hbody (mem_of_bootstrapCode hboot)
      rw [hv]
      rfl
    · rfl

theorem jsonNat_units (n : Nat) : (jsonNat n).probe.units.number? = some (codes (decimal n)) := by
  rw [codes_eq_utf16 (num_ascii ⟨decimal n, isNumber_decimal n⟩)]
  rfl

theorem wireVersion_ok {scan : JsonTokenScan} {v : UInt32} (hf : scan.failure = none)
    (hp : (scan.topLevelValues (codes protocolKey)).bind JsonProbeValue.string? = some (codes protocolName))
    (hv : (scan.topLevelValues (codes versionKey)).bind JsonProbeValue.number? = some (codes (decimal v.toNat))) :
    scan.wireVersion = .ok v.toNat := by
  unfold JsonTokenScan.wireVersion
  rw [hf, hp, hv, tsParseVersionToken_u32]
  simp only [ne_eq, not_true_eq_false, if_false]

theorem Response.scan_version (r : Response) : r.scan.wireVersion = .ok r.version.wire.toNat := by
  have hclean := r.cleanObject
  apply wireVersion_ok
  · obtain ⟨-, hkind, -⟩ := scanners_agree r.cst.doc.text
    rw [(failure_eq_none _).mpr hclean.clean, Option.map_none, eq_comm, Option.map_eq_none_iff] at hkind
    exact hkind
  · rw [r.probed rfl, r.members.protocol, Option.map_some, Option.bind_some, string_units,
      codes_eq_utf16 (t := protocolName) rfl]
  · rw [r.probed rfl, r.members.version, Option.map_some, Option.bind_some]
    exact jsonNat_units _

/-! ## The value -/

theorem nullable_js {read : JsValue → Option Units} {message : Text} {t : Option Text}
    (h : ∀ s, t = some s → read (.string (utf16 s)) = some (utf16 s)) :
    nullable read message (jsonNullable t).js = .ok (t.map utf16) := by
  cases t with
  | none => rfl
  | some t =>
    rw [jsonNullable, js_jsonString]
    unfold nullable
    simp only [h t rfl]
    rfl

structure ResponseRead (r : Response) (ps : Properties JsValue) : Prop where
  closed : assertOnlyKeys envelopeFail ps ["protocol".toList, "version".toList, "requestId".toList, "kind".toList,
    "ok".toList, "payload".toList, "error".toList] = .ok ()
  owned : ∀ key, hasOwn ps key = (ownValue ps key).isSome
  protocol : ownValue ps "protocol".toList = some (.string (codes protocolName))
  requestId : ownValue ps "requestId".toList = some (jsonNullable r.requestId).js
  kind : ownValue ps "kind".toList = some (jsonNullable r.kind).js
  ok : ownValue ps "ok".toList = some (.boolean r.body.ok)
  payload : ownValue ps "payload".toList = r.body.payload.map Cst.js
  error : ownValue ps "error".toList = r.body.errorDto.map fun e => e.cst.js

theorem Response.reads (r : Response) : ∃ ps, plainObject? r.cst.js = some ps ∧ ResponseRead r ps := by
  obtain ⟨ps, hps, hread⟩ := readsFields_struct r.values responseFields_nodup (by decide) rfl
  have hvalues := hread.values
  simp only [responseFields, Response.values, List.map_cons, List.map_nil, Option.map_some, js_jsonString, List.cons.injEq,
    and_true, Option.map_map] at hvalues
  obtain ⟨hprotocol, -, hid, hkind, hok, hpayload, herror⟩ := hvalues
  refine ⟨ps, hps, hread.closed envelopeFail _, hread.owned, ?_, hid, hkind, hok, hpayload, herror⟩
  rw [codes_eq_utf16 (t := protocolName) rfl]
  exact hprotocol

/-- The body of a success or a failure, by what the builders make of it. -/
theorem readResponse_ok {r : Response} {axis : TsAxis} {body : TsResponseBody}
    (hid : ∀ id, r.requestId = some id → validRequestId id = true)
    (hbody : (∃ payload, r.body.ok = true ∧ r.body.payload = some payload ∧ r.body.errorDto = none ∧
        successBody axis (r.kind.map utf16) payload.js = .ok body) ∨
      ∃ e, r.body.ok = false ∧ r.body.payload = none ∧ r.body.errorDto = some e ∧ tsErrorBody e.cst.js = .ok body) :
    readResponse axis r.cst.js = .ok (r.requestId.map utf16, r.kind.map utf16, body) := by
  obtain ⟨ps, hps, h⟩ := r.reads
  have hisString : (JsValue.string (codes protocolName)).isString protocolName = true := by simp [JsValue.isString]
  have hrequestId : ∀ message, nullable requestId? message (jsonNullable r.requestId).js = .ok (r.requestId.map utf16) := by
    intro message
    apply nullable_js
    intro id h
    exact requestId?_identifier rfl ⟨id, validRequestId_iff.mp (hid id h)⟩
  have hkind : ∀ message, nullable string? message (jsonNullable r.kind).js = .ok (r.kind.map utf16) :=
    fun message => nullable_js fun _ _ => rfl
  unfold readResponse
  rw [hps]
  simp only [h.closed, bind, Except.bind, h.protocol, h.requestId, h.kind, h.ok, h.owned, Option.getD_some, hisString,
    Option.isSome_some, Bool.not_true, Bool.false_eq_true, if_false, hrequestId, hkind, h.payload, h.error, pure, Except.pure]
  rcases hbody with ⟨payload, hok, hp, he, hb⟩ | ⟨e, hok, hp, he, hb⟩
  · simp only [hok, hp, he, Option.map_some, Option.map_none, Option.isSome_some, Option.isSome_none, Option.getD_some,
      Bool.and_self, Bool.not_false, if_true, hb]
  · simp only [hok, hp, he, Option.map_some, Option.map_none, Option.isSome_some, Option.isSome_none, Option.getD_some,
      Bool.and_self, Bool.not_false, Bool.false_and, Bool.false_eq_true, if_false, if_true, hb]

theorem Response.Consistent.read {r : Response} (h : r.Consistent)
    (hid : ∀ id, r.requestId = some id → validRequestId id = true) :
    readResponse r.version.ts.axis r.cst.js = .ok (r.requestId.map utf16, r.kind.map utf16, r.body.ts) := by
  have hne : codes kindWorkflowSignalSubmit ≠ codes kindHello ∧ codes kindWorkflowSignalReconcile ≠ codes kindHello ∧
      codes kindWorkflowSignalReconcile ≠ codes kindWorkflowSignalSubmit := by decide
  have hkinds : utf16 kindHello = codes kindHello ∧ utf16 kindWorkflowSignalSubmit = codes kindWorkflowSignalSubmit ∧
      utf16 kindWorkflowSignalReconcile = codes kindWorkflowSignalReconcile := by decide
  apply readResponse_ok hid
  cases h with
  | hello info hv hk hb hi =>
    refine .inl ⟨info.value, by rw [hb]; rfl, by rw [hb]; rfl, by rw [hb]; rfl, ?_⟩
    rw [hk, hv, hb, Option.map_some, hkinds.1, successBody, if_pos rfl, buildHelloInfo_value hi]
    rfl
  | submitted v x hv hk hb =>
    refine .inl ⟨encodeResult x, by rw [hb]; rfl, by rw [hb]; rfl, by rw [hb]; rfl, ?_⟩
    rw [hk, hv, hb, Option.map_some, hkinds.2.1, successBody, if_neg hne.1, if_pos rfl, buildSignalResult_encode]
    rfl
  | reconciled v x hv hk hb =>
    refine .inl ⟨encodeReconciliationResult x, by rw [hb]; rfl, by rw [hb]; rfl, by rw [hb]; rfl, ?_⟩
    rw [hk, hv, hb, Option.map_some, hkinds.2.2, successBody, if_neg hne.2.1, if_neg hne.2.2, if_pos rfl,
      buildReconciliationResult_encode]
    rfl
  | failed e hb =>
    refine .inr ⟨⟨e.code.value, e.message⟩, by rw [hb]; rfl, by rw [hb]; rfl, by rw [hb]; rfl, ?_⟩
    rw [hb, tsErrorBody_cst]
    rfl

/-! ## Decoding -/

theorem tsFrameText_utf8 {t : Text} (hl : (utf8 t).length ≤ maxFrameBytes) (hbom : (utf8 t).take 3 ≠ [0xef, 0xbb, 0xbf]) :
    tsFrameText (utf8 t) = .ok (utf16 t) := by
  rw [tsFrameText, if_neg (Nat.not_lt.mpr hl), if_neg hbom, fromUtf8_utf8]

theorem struct_text (f : Field) (fs : List Field) (v : Cst) (vs : List (Option Cst)) :
    ∃ rest, (jsonStruct (f :: fs) (some v :: vs)).text = '\x7b' :: rest := by
  rw [jsonStruct, presentMembers, jsonObject, Cst.text]
  exact ⟨_, rfl⟩

theorem Response.no_byteOrderMark (r : Response) : (utf8 r.cst.text).take 3 ≠ [0xef, 0xbb, 0xbf] := by
  obtain ⟨rest, hrest⟩ : ∃ rest, r.cst.text = '\x7b' :: rest := by
    rw [Response.cst, responseFields]
    exact struct_text ..
  rw [hrest, utf8, List.flatMap_cons]
  intro h
  cases h

theorem tsScanFrame_doc {d : Doc} (h : d.CleanObject) :
    tsScanFrame (utf16 d.text) = .ok (tsScanJsonTokens (utf16 d.text)) := by
  obtain ⟨hscanned, -, -, hobject, -⟩ := scanners_agree d.text
  rw [syntaxError_eq_none.mpr ⟨d, rfl⟩, Option.isSome_none, eq_comm, Option.isSome_eq_false_iff, Option.isNone_iff_eq_none] at hscanned
  rw [topLevelObject_eq, h.object] at hobject
  unfold tsScanFrame
  simp only [hscanned, ← hobject, if_true]

theorem parse_doc (d : Doc) : jsonParseValue (utf16 d.text) = some d.value.js := by
  rw [jsonParseValue, jsonParse_utf16, parse_eq_some_iff.mpr rfl]
  rfl

theorem tsDecodeResponse_cst {r : Response} (hl : (utf8 r.cst.text).length ≤ maxFrameBytes)
    (hid : ∀ id, r.requestId = some id → validRequestId id = true) (hc : r.Consistent) (hb : r.CarriesBootstrap)
    {context : TsContext} (haxis : context.requestAxis = some r.version.ts.axis)
    (hversion : context.version r.version.ts.axis = r.version.ts) :
    tsDecodeResponse (utf8 r.cst.text) context = .ok r.ts := by
  have hframe : tsFrameText (utf8 r.cst.text) = .ok (utf16 r.cst.doc.text) := by
    rw [Cst.doc_text]
    exact tsFrameText_utf8 hl r.no_byteOrderMark
  have hscan : tsScanFrame (utf16 r.cst.doc.text) = .ok r.scan := tsScanFrame_doc r.cleanObject
  have hvalue : jsonParseValue (utf16 r.cst.doc.text) = some r.cst.js := parse_doc r.cst.doc
  unfold tsDecodeResponse
  simp only [hframe, hscan, Except.mapError, bind, Except.bind, Response.scan_axis hc hb haxis, hversion, r.scan_version,
    r.version.ts_version, ne_eq, not_true_eq_false, if_false, hvalue, hc.read hid, pure, Except.pure]
  rw [← r.version.ts_version]
  rfl

/-- What either side encodes the other decodes: the core reads the request of the source, and the package reads the
response of the core on its own axis and number, where the codes that are always on the bootstrap axis are written there. -/
theorem wire_compatible [SerdeJson] :
    (∀ (v : JsValue) (frame : Text), tsEncodeRequest v = .ok frame →
      ∃ r : Request, decodeRequest (utf8 frame) = .ok r ∧ r.ReadFrom v) ∧
    ∀ (r : Response) (frame : Text) (context : TsContext), encodeResponse r = .ok frame →
      (∀ e, r.body = .error e → e.code ∈ [requestTooLarge, protocolVersionUnsupported, handlerTimeout] →
        ∃ v, r.version = .bootstrap v) →
      context.requestAxis = some r.version.ts.axis → context.version r.version.ts.axis = r.version.ts →
      tsDecodeResponse (utf8 frame) context = .ok r.ts := by
  refine ⟨fun v frame h => tsEncodeRequest_decodes h, fun r frame context h hb haxis hversion => ?_⟩
  obtain ⟨hid, -, -, hcheck, hl, rfl⟩ := encodeResponse_eq_ok.mp h
  exact tsDecodeResponse_cst hl hid (consistent_of_check hcheck) hb haxis hversion

def blockedSource : JsValue := jsObject [("requestId".toList, .string (codes "r-1".toList)),
  ("kind".toList, .string (codes kindWorkflowSignalReconcile)),
  ("payload".toList, jsObject [("signal".toList, jsObject [("eventId".toList, .string (codes "e-1".toList)),
    ("workflowId".toList, .string (codes "w-1".toList)), ("assignmentId".toList, .string (codes "a-1".toList)),
    ("attemptId".toList, .string (codes "t-1".toList)), ("role".toList, .string (codes "review".toList)),
    ("artifactRevision".toList, .string (codes "rev-1".toList)),
    ("candidateDigest".toList, jsObject [("algorithm".toList, .string (codes "sha256".toList)),
      ("hex".toList, .string (codes (List.replicate 64 'a')))]),
    ("kind".toList, .string (codes "blocked".toList)),
    ("shortErrorCode".toList, .string (codes "NO_ACCESS".toList))])])]

open Sample in
theorem wire_compatible_blocked :
    (∃ frame r, tsEncodeRequest blockedSource = .ok frame ∧ decodeRequest (utf8 frame) = .ok r ∧ r.ReadFrom blockedSource) ∧
    tsDecodeResponse (utf8 timeoutResponse.cst.text) ⟨some .bootstrap, none, none⟩ = .ok timeoutResponse.ts := by
  have hsource : (tsEncodeRequest blockedSource).toOption.isSome = true := by decide +kernel
  have hresponse : encodeResponse timeoutResponse = .ok timeoutResponse.cst.text :=
    encodeResponse_eq_ok.mpr ⟨nofun, rfl, rfl, rfl, by decide +kernel, rfl⟩
  constructor
  · cases h : tsEncodeRequest blockedSource with
    | error e =>
      rw [h] at hsource
      cases hsource
    | ok frame =>
      obtain ⟨r, hr, hread⟩ := wire_compatible.1 blockedSource frame h
      exact ⟨frame, r, rfl, hr, hread⟩
  · exact wire_compatible.2 timeoutResponse _ _ hresponse (fun _ _ _ => ⟨_, rfl⟩) rfl rfl

end Aizign
