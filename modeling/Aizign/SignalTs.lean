import Aizign.EnvelopeEncode
import Aizign.Js

/-!
# The signal builders of the TypeScript package

The closed-shape helpers, the patterns and `buildWorkflowSignalSubmit` and
`buildWorkflowSignalReconcile`: they read own data properties only, check the
shape of a source value, then its values, the expectation before the signal.
-/

namespace Aizign

open ErrorCodes

structure TsError where
  code : ShortErrorCode
  message : Units
  deriving DecidableEq

/-! ## Shapes -/

/-- `isPlainObject`, with the own properties of such an object. -/
def plainObject? : JsValue → Option (Properties JsValue)
  | .object false false .null ps => some ps
  | .object false false .objectPrototype ps => some ps
  | _ => none

section
variable (fail : Units → TsError)

/-- The loop of `assertClosedObject` over the own keys. -/
def checkKeys (allowed : List Text) (path : Text) : Properties JsValue → Except TsError Unit
  | [] => .ok ()
  | (.symbol _, _) :: _ => .error (fail (codes (path ++ " has an unsupported symbol key".toList)))
  | (.string key, property) :: rest =>
    if key ∉ allowed.map codes then .error (fail (codes "unknown field `".toList ++ key ++ codes ['`']))
    else match property with
      | .accessor .. => .error (fail (codes (path ++ ['.']) ++ key ++ codes " must be an own data property".toList))
      | .data .. => checkKeys allowed path rest

def assertClosedObject (value : JsValue) (allowed : List Text) (path : Text) : Except TsError (Properties JsValue) :=
  match plainObject? value with
  | none => .error (fail (codes (path ++ " must be a plain object".toList)))
  | some ps => (checkKeys fail allowed path ps).map fun _ => ps

def ownDataValue (ps : Properties JsValue) (key path : Text) : Except TsError JsValue :=
  match ownValue ps key with
  | some v => .ok v
  | none => .error (fail (codes (path ++ ['.'] ++ key ++ " must be a required own data property".toList)))

def assertOnlyKeys (ps : Properties JsValue) (allowed : List Text) : Except TsError Unit :=
  checkKeys fail allowed "value".toList ps

end

/-! ## Patterns -/

def digitUnit (u : Nat) : Bool := decide (0x30 ≤ u) && decide (u ≤ 0x39)
def upperUnit (u : Nat) : Bool := decide (0x41 ≤ u) && decide (u ≤ 0x5a)
def lowerUnit (u : Nat) : Bool := decide (0x61 ≤ u) && decide (u ≤ 0x7a)

/-- `^[first][rest]{0,max}$`. -/
def matchesPattern (first rest : Nat → Bool) (max : Nat) : Units → Bool
  | [] => false
  | u :: r => first u && r.all rest && decide (r.length ≤ max)

def identifierFirst (u : Nat) : Bool := digitUnit u || upperUnit u || lowerUnit u
def identifierRest (u : Nat) : Bool := identifierFirst u || (u == 0x2e || u == 0x5f || u == 0x3a || u == 0x2d)

def shortErrorCodeRest (u : Nat) : Bool := upperUnit u || (digitUnit u || u == 0x5f)

def identifierPattern : Units → Bool := matchesPattern identifierFirst identifierRest 127
def artifactRefPattern : Units → Bool := matchesPattern identifierFirst identifierRest 255
def shortErrorCodePattern : Units → Bool := matchesPattern upperUnit shortErrorCodeRest 63

def hexDigitUnit (u : Nat) : Bool := digitUnit u || (decide (0x61 ≤ u) && decide (u ≤ 0x66))

/-- `^[0-9a-f]{64}$`. -/
def sha256HexPattern (hex : Units) : Bool := decide (hex.length = 64) && hex.all hexDigitUnit

/-! ## The decoded source -/

structure TsDigest where
  algorithm : DigestAlgorithm
  hex : Units
  deriving DecidableEq

structure TsExpected where
  workflowId : Units
  assignmentId : Units
  attemptId : Units
  role : Role
  artifactRevision : Units
  candidateDigest : TsDigest
  deriving DecidableEq

/-- `WorkflowSignalShape`, and the signal it becomes when its values are valid. A finding count has passed the check of
its range. -/
structure TsSignal where
  eventId : Units
  workflowId : Units
  assignmentId : Units
  attemptId : Units
  role : Role
  artifactRevision : Units
  candidateDigest : TsDigest
  kind : SignalKind
  findingCount : Option UInt32
  artifactRef : Option Units
  shortErrorCode : Option Units
  deriving DecidableEq

structure TsSubmit where
  expected : TsExpected
  signal : TsSignal
  deriving DecidableEq

def payloadFail (message : Units) : TsError := ⟨invalidPayload, message⟩

def requireString (ps : Properties JsValue) (key path : Text) : Except TsError Units := do
  match ← ownDataValue payloadFail ps key path with
  | .string s => return s
  | _ => throw (payloadFail (codes (path ++ ['.'] ++ key ++ " must be a string".toList)))

def role? (v : JsValue) : Option Role := Role.all.find? fun r => v.isString r.wire

def requireRole (ps : Properties JsValue) (path : Text) : Except TsError Role := do
  match role? (← ownDataValue payloadFail ps "role".toList path) with
  | some r => return r
  | none => throw (payloadFail (codes (path ++ ".role must be one of implementation, review".toList)))

def signalKind? (v : JsValue) : Option SignalKind := SignalKind.all.find? fun k => v.isString k.wire

def optionalField (ps : Properties JsValue) (key path : Text) : Except TsError (Option JsValue) := do
  if !hasOwn ps key then return none
  match ← ownDataValue payloadFail ps key path with
  | .null | .undefined =>
    throw (payloadFail (codes (path ++ ['.'] ++ key ++ " must be omitted rather than null or undefined".toList)))
  | v => return some v

def requireDigest (ps : Properties JsValue) (key path : Text) : Except TsError TsDigest := do
  let value ← ownDataValue payloadFail ps key path
  let some ds := plainObject? value | throw (payloadFail (codes (path ++ ['.'] ++ key ++ " must be an object".toList)))
  assertOnlyKeys payloadFail ds ["algorithm".toList, "hex".toList]
  let algorithm ← requireString ds "algorithm".toList (path ++ ['.'] ++ key)
  let hex ← requireString ds "hex".toList (path ++ ['.'] ++ key)
  if algorithm ≠ codes DigestAlgorithm.sha256.wire then
    throw (payloadFail (codes (path ++ ['.'] ++ key ++ ".algorithm must be sha256".toList)))
  return ⟨.sha256, hex⟩

def validDigest (digest : TsDigest) : Bool := sha256HexPattern digest.hex

/-- An unsigned 32-bit integer that is not negative zero. -/
def countOf : JsValue → Option UInt32
  | .number (.integral n) => if 0 ≤ n ∧ n ≤ u32Max then some (UInt32.ofNat n.toNat) else none
  | _ => none

def countError : TsError := payloadFail (codes "signal.findingCount must be an unsigned 32-bit integer".toList)

def findingCountOf : Option JsValue → Except TsError (Option UInt32)
  | none => .ok none
  | some v =>
    match countOf v with
    | some n => .ok (some n)
    | none => .error countError

def optionalString (key : Text) : Option JsValue → Except TsError (Option Units)
  | none => .ok none
  | some (.string s) => .ok (some s)
  | some _ => .error (payloadFail (codes ("signal.".toList ++ key ++ " must be a string".toList)))

def signalKeys : List Text := ["eventId".toList, "workflowId".toList, "assignmentId".toList, "attemptId".toList,
  "role".toList, "artifactRevision".toList, "candidateDigest".toList, "kind".toList, "findingCount".toList,
  "artifactRef".toList, "shortErrorCode".toList]

def expectedKeys : List Text := ["workflowId".toList, "assignmentId".toList, "attemptId".toList, "role".toList,
  "artifactRevision".toList, "candidateDigest".toList]

def decodeWorkflowSignalShape (value : JsValue) : Except TsError TsSignal := do
  let some ps := plainObject? value | throw (payloadFail (codes "signal must be an object".toList))
  assertOnlyKeys payloadFail ps signalKeys
  let some kind := signalKind? (← ownDataValue payloadFail ps "kind".toList "signal".toList)
    | throw (payloadFail (codes ("signal.kind must be one of implementation_ready, review_findings, review_passed, ".toList ++
        "repair_submitted, blocked".toList)))
  let findingCount ← findingCountOf (← optionalField ps "findingCount".toList "signal".toList)
  let artifactRef ← optionalString "artifactRef".toList (← optionalField ps "artifactRef".toList "signal".toList)
  let shortErrorCode ← optionalString "shortErrorCode".toList (← optionalField ps "shortErrorCode".toList "signal".toList)
  return {
    eventId := ← requireString ps "eventId".toList "signal".toList
    workflowId := ← requireString ps "workflowId".toList "signal".toList
    assignmentId := ← requireString ps "assignmentId".toList "signal".toList
    attemptId := ← requireString ps "attemptId".toList "signal".toList
    role := ← requireRole ps "signal".toList
    artifactRevision := ← requireString ps "artifactRevision".toList "signal".toList
    candidateDigest := ← requireDigest ps "candidateDigest".toList "signal".toList
    kind, findingCount, artifactRef, shortErrorCode }

/-! ## Values -/

def signalFail (message : Text) : TsError := ⟨invalidSignal, codes message⟩

/-- Checks made one after the other: the first that refuses decides. -/
def refuseFirst {ε : Type} : List (Bool × ε) → Except ε Unit
  | [] => .ok ()
  | (refused, e) :: checks => if refused then .error e else refuseFirst checks

def requiredRole (kind : SignalKind) : Option Role :=
  if kind = .implementationReady ∨ kind = .repairSubmitted then some .implementation
  else if kind = .reviewFindings ∨ kind = .reviewPassed then some .review
  else none

def carriesCount (kind : SignalKind) : Bool := kind = .reviewFindings ∨ kind = .reviewPassed ∨ kind = .repairSubmitted

def countRules (kind : SignalKind) (findingCount : Option UInt32) : List (Bool × TsError) := [
  (carriesCount kind && findingCount.isNone, signalFail (kind.wire ++ " requires findingCount".toList)),
  (!carriesCount kind && findingCount.isSome, signalFail (kind.wire ++ " does not carry findingCount".toList)),
  ((kind = .reviewFindings ∨ kind = .repairSubmitted) ∧ findingCount = some 0,
    signalFail (kind.wire ++ " requires findingCount greater than zero".toList)),
  (kind = .reviewPassed ∧ findingCount ≠ some 0, signalFail "review_passed requires findingCount zero".toList)]

def opaqueRules (kind : SignalKind) (artifactRef shortErrorCode : Option Units) : List (Bool × TsError) := [
  (kind = .repairSubmitted ∧ artifactRef = none, signalFail "repair_submitted requires artifactRef".toList),
  (kind ≠ .repairSubmitted ∧ kind ≠ .reviewFindings ∧ artifactRef ≠ none,
    signalFail (kind.wire ++ " does not carry artifactRef".toList)),
  (kind = .blocked ∧ shortErrorCode = none, signalFail "blocked requires shortErrorCode".toList),
  (kind ≠ .blocked ∧ shortErrorCode ≠ none, signalFail (kind.wire ++ " does not carry shortErrorCode".toList))]

/-- The kind-specific rules shared with the core. -/
def validateSignalRules (s : TsSignal) : Except TsError Unit := refuseFirst
  (((requiredRole s.kind).any fun role => role ≠ s.role, signalFail (s.kind.wire ++ " requires the ".toList ++
      (requiredRole s.kind).elim [] Role.wire ++ " role".toList)) ::
    (countRules s.kind s.findingCount ++ opaqueRules s.kind s.artifactRef s.shortErrorCode))

def signalChecks (s : TsSignal) : List (Bool × TsError) := [
  (!identifierPattern s.eventId, signalFail "signal.eventId: not a stable identifier".toList),
  (!identifierPattern s.workflowId, signalFail "signal.workflowId: not a stable identifier".toList),
  (!identifierPattern s.assignmentId, signalFail "signal.assignmentId: not a stable identifier".toList),
  (!identifierPattern s.attemptId, signalFail "signal.attemptId: not a stable identifier".toList),
  (!identifierPattern s.artifactRevision, signalFail "signal.artifactRevision: not a stable identifier".toList),
  (!validDigest s.candidateDigest, signalFail "signal.candidateDigest: not a supported content digest".toList),
  (s.artifactRef.any fun r => !artifactRefPattern r, signalFail "signal.artifactRef: not a bounded artifact reference".toList),
  (s.shortErrorCode.any fun c => !shortErrorCodePattern c, signalFail "signal.shortErrorCode: not a short error code".toList)]

def validateWorkflowSignal (s : TsSignal) : Except TsError TsSignal := do
  refuseFirst (signalChecks s)
  validateSignalRules s
  return s

def expectationFail (field reason : Text) : TsError :=
  ⟨invalidExpectation, codes ("expected.".toList ++ field ++ ": ".toList ++ reason)⟩

def decodeExpectedShape (ps : Properties JsValue) : Except TsError TsExpected := do
  return {
    workflowId := ← requireString ps "workflowId".toList "expected".toList
    assignmentId := ← requireString ps "assignmentId".toList "expected".toList
    attemptId := ← requireString ps "attemptId".toList "expected".toList
    role := ← requireRole ps "expected".toList
    artifactRevision := ← requireString ps "artifactRevision".toList "expected".toList
    candidateDigest := ← requireDigest ps "candidateDigest".toList "expected".toList }

def expectedChecks (e : TsExpected) : List (Bool × TsError) := [
  (!identifierPattern e.workflowId, expectationFail "workflowId".toList "not a stable identifier".toList),
  (!identifierPattern e.assignmentId, expectationFail "assignmentId".toList "not a stable identifier".toList),
  (!identifierPattern e.attemptId, expectationFail "attemptId".toList "not a stable identifier".toList),
  (!identifierPattern e.artifactRevision, expectationFail "artifactRevision".toList "not a stable identifier".toList),
  (!validDigest e.candidateDigest, expectationFail "candidateDigest".toList "not a supported content digest".toList)]

def buildWorkflowSignalSubmit (payload : JsValue) : Except TsError TsSubmit := do
  let some ps := plainObject? payload | throw (payloadFail (codes "payload must be an object".toList))
  assertOnlyKeys payloadFail ps ["expected".toList, "signal".toList]
  let expected ← ownDataValue payloadFail ps "expected".toList "payload".toList
  let signal ← ownDataValue payloadFail ps "signal".toList "payload".toList
  let some es := plainObject? expected | throw (payloadFail (codes "expected must be an object".toList))
  assertOnlyKeys payloadFail es expectedKeys
  let expectedShape ← decodeExpectedShape es
  let signalShape ← decodeWorkflowSignalShape signal
  refuseFirst (expectedChecks expectedShape)
  return ⟨expectedShape, ← validateWorkflowSignal signalShape⟩

def buildWorkflowSignalReconcile (payload : JsValue) : Except TsError TsSignal := do
  let some ps := plainObject? payload | throw (payloadFail (codes "payload must be an object".toList))
  assertOnlyKeys payloadFail ps ["signal".toList]
  let signalShape ← decodeWorkflowSignalShape (← ownDataValue payloadFail ps "signal".toList "payload".toList)
  validateWorkflowSignal signalShape

/-! ## The patterns are the core's -/

theorem ascii_codes {u : Units} (h : ∀ x ∈ u, x < 0x80) : ∃ t, u = codes t ∧ isAscii t = true := by
  induction u with
  | nil => exact ⟨[], rfl, rfl⟩
  | cons x u ih =>
    obtain ⟨t, rfl, ht⟩ := ih fun y hy => h y (List.mem_cons_of_mem _ hy)
    have hx := h x (List.mem_cons_self ..)
    have hc : (Char.ofNat x).toNat = x := toNat_ofNat_ascii hx
    refine ⟨Char.ofNat x :: t, by rw [codes_cons, hc], ?_⟩
    rw [isAscii_cons, hc, ht, decide_eq_true hx]
    rfl

theorem all_utf8 (p : Nat → Bool) {t : Text} (ht : isAscii t = true) :
    ((utf8 t).all fun b => p b.toNat) = (codes t).all p := by
  rw [utf8_ascii ht]
  induction t with
  | nil => rfl
  | cons c t ih =>
    rw [isAscii_cons, Bool.and_eq_true, decide_eq_true_eq] at ht
    have hc : c.toNat.toUInt8.toNat = c.toNat := by
      rw [Nat.toUInt8, UInt8.toNat_ofNat', Nat.mod_eq_of_lt (by omega)]
    rw [List.map_cons, List.all_cons, codes_cons, List.all_cons, hc, ih ht.2]

theorem beq_toNat (b n : UInt8) : (b == n) = (b.toNat == n.toNat) := by
  rw [Bool.eq_iff_iff, beq_iff_eq, beq_iff_eq]
  exact UInt8.toNat_inj.symm

section
variable {first rest : Nat → Bool} {allowed : Nat → UInt8 → Bool}

theorem firstRefused_all {i : Nat} (hr : ∀ k (b : UInt8), i ≤ k → allowed k b = rest b.toNat) (bs : Bytes) :
    firstRefused allowed i bs = none ↔ (bs.all fun b => rest b.toNat) = true := by
  induction bs generalizing i with
  | nil => simp [firstRefused]
  | cons b bs ih =>
    rw [firstRefused, hr i b (Nat.le_refl i), List.all_cons, Bool.and_eq_true,
      ← ih fun k b hk => hr k b (Nat.le_of_succ_le hk)]
    by_cases h : rest b.toNat = true <;> simp [h]

theorem matchesPattern_codes (hf : ∀ b : UInt8, allowed 0 b = first b.toNat)
    (hr : ∀ k (b : UInt8), 0 < k → allowed k b = rest b.toNat) {n : Nat} {t : Text} (ht : isAscii t = true) :
    matchesPattern first rest n (codes t) = true ↔ validateBytes allowed (n + 1) t = .ok () := by
  rw [validateBytes_eq_ok, length_utf8_ascii ht]
  cases t with
  | nil => simp [codes, matchesPattern]
  | cons c t =>
    have hall := ht
    rw [isAscii_cons, Bool.and_eq_true, decide_eq_true_eq] at hall
    have hc : c.toNat.toUInt8.toNat = c.toNat := by
      rw [Nat.toUInt8, UInt8.toNat_ofNat', Nat.mod_eq_of_lt (by omega)]
    have hlen : (codes t).length = t.length := List.length_map ..
    rw [codes_cons, matchesPattern, utf8_ascii ht, List.map_cons, ← utf8_ascii hall.2, firstRefused, hf, hc, hlen,
      ← all_utf8 rest hall.2]
    by_cases hfirst : first c.toNat = true
    · rw [hfirst, if_pos rfl, firstRefused_all hr]
      simp [and_comm]
    · simp [hfirst]

/-- A pattern accepts exactly the strings of ASCII characters that the check of its bytes accepts. -/
theorem pattern_iff (hf : ∀ b : UInt8, allowed 0 b = first b.toNat) (hr : ∀ k (b : UInt8), 0 < k → allowed k b = rest b.toNat)
    (haf : ∀ u, first u = true → u < 0x80) (har : ∀ u, rest u = true → u < 0x80)
    (hp : ∀ i b, allowed i b = true → PlainByte b) {n : Nat} {u : Units} :
    matchesPattern first rest n u = true ↔ ∃ t, u = codes t ∧ validateBytes allowed (n + 1) t = .ok () := by
  constructor
  · intro h
    have hascii : ∀ x ∈ u, x < 0x80 := by
      cases u with
      | nil => exact fun _ hx => absurd hx List.not_mem_nil
      | cons x u =>
        simp only [matchesPattern, Bool.and_eq_true, List.all_eq_true] at h
        intro y hy
        rcases List.mem_cons.mp hy with rfl | hy
        · exact haf y h.1.1
        · exact har y (h.1.2 y hy)
    obtain ⟨t, rfl, ht⟩ := ascii_codes hascii
    exact ⟨t, rfl, (matchesPattern_codes hf hr ht).mp h⟩
  · rintro ⟨t, rfl, h⟩
    have hplain := all_plain_of_firstRefused hp (validateBytes_eq_ok.mp h).2.2
    exact (matchesPattern_codes hf hr (isAscii_of_plain hplain)).mpr h

end

theorem identifierByte_rest (k : Nat) (b : UInt8) (hk : 0 < k) : identifierByte k b = identifierRest b.toNat := by
  rw [identifierByte, identifierRest, identifierFirst, isAsciiAlphanumeric, beq_toNat, beq_toNat, beq_toNat, beq_toNat,
    decide_eq_true hk, Bool.true_and]
  rfl

theorem identifierRest_ascii (u : Nat) (h : identifierRest u = true) : u < 0x80 := by
  simp only [identifierRest, identifierFirst, digitUnit, upperUnit, lowerUnit, Bool.or_eq_true, Bool.and_eq_true,
    decide_eq_true_eq, beq_iff_eq] at h
  omega

theorem identifier_matches {n : Nat} {u : Units} : matchesPattern identifierFirst identifierRest n u = true ↔
    ∃ x : Identifier (n + 1), u = codes x.value := by
  rw [pattern_iff (fun b => show identifierByte 0 b = _ by rw [identifierByte]; exact Bool.or_false _) identifierByte_rest
    (fun u hu => identifierRest_ascii u (by rw [identifierRest, hu, Bool.true_or])) identifierRest_ascii
    fun _ _ => plainByte_of_identifierByte]
  constructor
  · intro h
    obtain ⟨t, hu, ht⟩ := h
    exact ⟨⟨t, ht⟩, hu⟩
  · intro h
    obtain ⟨x, hx⟩ := h
    exact ⟨x.value, hx, x.ok⟩

theorem identifierPattern_iff {u : Units} : identifierPattern u = true ↔ ∃ x : Identifier identifierMaxLen, u = codes x.value :=
  identifier_matches

theorem artifactRefPattern_iff {u : Units} : artifactRefPattern u = true ↔ ∃ x : ArtifactRef, u = codes x.value :=
  identifier_matches

theorem shortErrorCodePattern_iff {u : Units} : shortErrorCodePattern u = true ↔ ∃ x : ShortErrorCode, u = codes x.value := by
  have hrest : ∀ k (b : UInt8), 0 < k → shortErrorCodeByte k b = shortErrorCodeRest b.toNat := by
    intro k b hk
    rw [shortErrorCodeByte, beq_toNat, decide_eq_true hk, Bool.true_and]
    rfl
  have hascii : ∀ u, shortErrorCodeRest u = true → u < 0x80 := by
    intro u h
    simp only [shortErrorCodeRest, upperUnit, digitUnit, Bool.or_eq_true, Bool.and_eq_true, decide_eq_true_eq, beq_iff_eq] at h
    omega
  rw [shortErrorCodePattern, pattern_iff (fun b => by rw [shortErrorCodeByte]; exact Bool.or_false _) hrest
    (fun u hu => hascii u (by rw [shortErrorCodeRest, hu, Bool.true_or])) hascii fun _ _ => plainByte_of_shortErrorCodeByte]
  constructor
  · intro h
    obtain ⟨t, hu, ht⟩ := h
    exact ⟨⟨t, ht⟩, hu⟩
  · intro h
    obtain ⟨x, hx⟩ := h
    exact ⟨x.value, hx, x.ok⟩

theorem sha256HexPattern_iff {u : Units} : sha256HexPattern u = true ↔ ∃ x : Digest, u = codes x.hex := by
  have hall : ∀ bs : Bytes, firstRefused hexByte 0 bs = none ↔ (bs.all fun b => hexDigitUnit b.toNat) = true :=
    firstRefused_all fun _ _ _ => rfl
  have hlen : ∀ t : Text, (codes t).length = t.length := fun t => List.length_map ..
  have hcodes : ∀ t : Text, isAscii t = true → (sha256HexPattern (codes t) = true ↔ validateDigest .sha256 t = .ok ()) := by
    intro t ht
    rw [validateDigest_eq_ok, hall, all_utf8 hexDigitUnit ht, length_utf8_ascii ht, sha256HexPattern, hlen, Bool.and_eq_true,
      decide_eq_true_eq]
    exact Iff.rfl
  constructor
  · intro h
    have hascii : ∀ x ∈ u, x < 0x80 := by
      intro x hx
      simp only [sha256HexPattern, Bool.and_eq_true, List.all_eq_true] at h
      have hx := h.2 x hx
      simp only [hexDigitUnit, digitUnit, Bool.or_eq_true, Bool.and_eq_true, decide_eq_true_eq] at hx
      omega
    obtain ⟨t, rfl, ht⟩ := ascii_codes hascii
    exact ⟨⟨.sha256, t, (hcodes t ht).mp h⟩, rfl⟩
  · rintro ⟨x, rfl⟩
    exact (hcodes x.hex (isAscii_of_plain x.plain)).mpr x.ok

/-! ## Valid values are the core's -/

theorem refuseFirst_eq_ok {ε : Type} {checks : List (Bool × ε)} : refuseFirst checks = .ok () ↔ ∀ c ∈ checks, c.1 = false := by
  induction checks with
  | nil => simp [refuseFirst]
  | cons c checks ih =>
    obtain ⟨refused, e⟩ := c
    rw [refuseFirst, List.forall_mem_cons, ← ih]
    cases refused <;> simp

theorem refuseFirst_append {ε : Type} {cs ds : List (Bool × ε)} (h : refuseFirst ds = .ok ()) :
    refuseFirst (cs ++ ds) = refuseFirst cs := by
  induction cs with
  | nil => exact h
  | cons c cs ih =>
    obtain ⟨refused, e⟩ := c
    rw [List.cons_append, refuseFirst, refuseFirst, ih]

/-- A first refusal is one of the errors listed. -/
theorem refuseFirst_error {ε : Type} {checks : List (Bool × ε)} {e : ε} (h : refuseFirst checks = .error e) :
    (true, e) ∈ checks := by
  induction checks with
  | nil => cases h
  | cons c checks ih =>
    obtain ⟨refused, e'⟩ := c
    rw [refuseFirst] at h
    cases refused with
    | true => simp [Except.error.inj h]
    | false => exact List.mem_cons_of_mem _ (ih h)

def Digest.ts (d : Digest) : TsDigest := ⟨d.algorithm, codes d.hex⟩

def ExpectedAssignment.ts (a : ExpectedAssignment) : TsExpected :=
  ⟨codes a.workflowId.value, codes a.assignmentId.value, codes a.attemptId.value, a.role, codes a.artifactRevision.value,
    a.candidateDigest.ts⟩

def SignalParts.ts (p : SignalParts) : TsSignal :=
  ⟨codes p.eventId.value, codes p.workflowId.value, codes p.assignmentId.value, codes p.attemptId.value, p.role,
    codes p.artifactRevision.value, p.candidateDigest.ts, p.kind, p.findingCount, p.artifactRef.map fun r => codes r.value,
    p.shortErrorCode.map fun c => codes c.value⟩

theorem validDigest_iff {d : TsDigest} : validDigest d = true ↔ ∃ x : Digest, d = x.ts := by
  obtain ⟨⟨⟩, hex⟩ := d
  rw [validDigest, sha256HexPattern_iff]
  constructor
  · rintro ⟨⟨⟨⟩, t, ht⟩, rfl⟩
    exact ⟨⟨.sha256, t, ht⟩, rfl⟩
  · rintro ⟨x, hx⟩
    exact ⟨x, congrArg TsDigest.hex hx⟩

theorem expectedChecks_iff {e : TsExpected} : refuseFirst (expectedChecks e) = .ok () ↔ ∃ a : ExpectedAssignment, e = a.ts := by
  rw [refuseFirst_eq_ok]
  simp only [expectedChecks, List.forall_mem_cons, List.not_mem_nil, false_imp_iff, implies_true, and_true,
    Bool.not_eq_false', identifierPattern_iff, validDigest_iff]
  constructor
  · obtain ⟨_, _, _, role, _, _⟩ := e
    rintro ⟨⟨w, rfl⟩, ⟨a, rfl⟩, ⟨t, rfl⟩, ⟨v, rfl⟩, ⟨d, rfl⟩⟩
    exact ⟨⟨w, a, t, role, v, d⟩, rfl⟩
  · rintro ⟨a, rfl⟩
    exact ⟨⟨_, rfl⟩, ⟨_, rfl⟩, ⟨_, rfl⟩, ⟨_, rfl⟩, ⟨_, rfl⟩⟩

/-- The optional strings of a signal are valid when they are absent or match. -/
theorem any_not_iff {α : Type} {p : Units → Bool} {f : α → Units} (hp : ∀ {u}, p u = true ↔ ∃ x, u = f x) {o : Option Units} :
    (o.any fun u => !p u) = false ↔ ∃ x : Option α, o = x.map f := by
  cases o with
  | none => simp
  | some u =>
    rw [Option.any_some, Bool.not_eq_false', hp]
    constructor
    · rintro ⟨x, rfl⟩
      exact ⟨some x, rfl⟩
    · rintro ⟨x, hx⟩
      obtain ⟨y, -, hy⟩ := Option.map_eq_some_iff.mp hx.symm
      exact ⟨y, hy.symm⟩

theorem signalChecks_iff {s : TsSignal} : refuseFirst (signalChecks s) = .ok () ↔ ∃ p : SignalParts, s = p.ts := by
  rw [refuseFirst_eq_ok]
  simp only [signalChecks, List.forall_mem_cons, List.not_mem_nil, false_imp_iff, implies_true, and_true,
    Bool.not_eq_false', identifierPattern_iff, validDigest_iff, any_not_iff artifactRefPattern_iff,
    any_not_iff shortErrorCodePattern_iff]
  constructor
  · obtain ⟨_, _, _, _, role, _, _, kind, count, _, _⟩ := s
    rintro ⟨⟨i, rfl⟩, ⟨w, rfl⟩, ⟨a, rfl⟩, ⟨t, rfl⟩, ⟨v, rfl⟩, ⟨d, rfl⟩, ⟨r, rfl⟩, ⟨c, rfl⟩⟩
    exact ⟨⟨i, w, a, t, role, v, d, kind, count, r, c⟩, rfl⟩
  · rintro ⟨p, rfl⟩
    exact ⟨⟨_, rfl⟩, ⟨_, rfl⟩, ⟨_, rfl⟩, ⟨_, rfl⟩, ⟨_, rfl⟩, ⟨_, rfl⟩, ⟨_, rfl⟩, ⟨_, rfl⟩⟩

theorem requiredRole_iff (kind : SignalKind) (role : Role) :
    ((requiredRole kind).any fun r => r ≠ role) = false ↔ checkRole kind role = .ok () := by
  cases kind <;> cases role <;> decide

theorem countRules_iff (kind : SignalKind) (count : Option UInt32) :
    (∀ c ∈ countRules kind count, c.1 = false) ↔ checkFindingCount kind count = .ok () := by
  rcases count with _ | n
  · cases kind <;> simp [countRules, carriesCount, checkFindingCount]
  · by_cases hn : n = 0 <;> cases kind <;> simp [countRules, carriesCount, checkFindingCount, hn]

theorem opaqueRules_iff (kind : SignalKind) (ref code : Option Units) :
    (∀ c ∈ opaqueRules kind ref code, c.1 = false) ↔
      checkArtifactRef kind ref.isSome = .ok () ∧ checkShortErrorCode kind code.isSome = .ok () := by
  cases kind <;> cases ref <;> cases code <;> simp [opaqueRules, checkArtifactRef, checkShortErrorCode]

theorem signalRules_eq_ok (p : SignalParts) : signalRules p = .ok () ↔ checkRole p.kind p.role = .ok () ∧
    checkFindingCount p.kind p.findingCount = .ok () ∧ checkArtifactRef p.kind p.artifactRef.isSome = .ok () ∧
    checkShortErrorCode p.kind p.shortErrorCode.isSome = .ok () := by
  unfold signalRules
  simp only [bind_eq_ok]
  exact ⟨fun ⟨⟨⟩, hr, ⟨⟩, hc, ⟨⟩, ha, hs⟩ => ⟨hr, hc, ha, hs⟩, fun ⟨hr, hc, ha, hs⟩ => ⟨(), hr, (), hc, (), ha, hs⟩⟩

theorem validateSignalRules_ts (p : SignalParts) : validateSignalRules p.ts = .ok () ↔ signalRules p = .ok () := by
  rw [validateSignalRules, refuseFirst_eq_ok, List.forall_mem_cons, List.forall_mem_append, requiredRole_iff, countRules_iff,
    opaqueRules_iff, signalRules_eq_ok]
  simp only [SignalParts.ts, Option.isSome_map]

theorem validateWorkflowSignal_eq_ok {s s' : TsSignal} :
    validateWorkflowSignal s = .ok s' ↔ s' = s ∧ ∃ w : WorkflowSignal, s = w.parts.ts := by
  unfold validateWorkflowSignal
  rw [bind_eq_ok]
  simp only [bind_eq_ok, pure, Except.pure, Except.ok.injEq]
  constructor
  · rintro ⟨⟨⟩, hchecks, ⟨⟩, hrules, rfl⟩
    obtain ⟨p, rfl⟩ := signalChecks_iff.mp hchecks
    exact ⟨rfl, ⟨p, (validateSignalRules_ts p).mp hrules⟩, rfl⟩
  · rintro ⟨rfl, w, rfl⟩
    exact ⟨(), signalChecks_iff.mpr ⟨w.parts, rfl⟩, (), (validateSignalRules_ts w.parts).mpr w.ok, rfl⟩

/-! ## What is built is what the source holds -/

structure TsDigest.ReadFrom (d : TsDigest) (v : JsValue) : Prop where
  algorithm : v.own "algorithm".toList = some (.string (codes d.algorithm.wire))
  hex : v.own "hex".toList = some (.string d.hex)

structure TsExpected.ReadFrom (e : TsExpected) (v : JsValue) : Prop where
  workflowId : v.own "workflowId".toList = some (.string e.workflowId)
  assignmentId : v.own "assignmentId".toList = some (.string e.assignmentId)
  attemptId : v.own "attemptId".toList = some (.string e.attemptId)
  role : v.own "role".toList = some (.string (codes e.role.wire))
  artifactRevision : v.own "artifactRevision".toList = some (.string e.artifactRevision)
  candidateDigest : ∃ d, v.own "candidateDigest".toList = some d ∧ e.candidateDigest.ReadFrom d

structure TsSignal.ReadFrom (s : TsSignal) (v : JsValue) : Prop where
  eventId : v.own "eventId".toList = some (.string s.eventId)
  workflowId : v.own "workflowId".toList = some (.string s.workflowId)
  assignmentId : v.own "assignmentId".toList = some (.string s.assignmentId)
  attemptId : v.own "attemptId".toList = some (.string s.attemptId)
  role : v.own "role".toList = some (.string (codes s.role.wire))
  artifactRevision : v.own "artifactRevision".toList = some (.string s.artifactRevision)
  candidateDigest : ∃ d, v.own "candidateDigest".toList = some d ∧ s.candidateDigest.ReadFrom d
  kind : v.own "kind".toList = some (.string (codes s.kind.wire))
  findingCount : v.own "findingCount".toList = s.findingCount.map fun n => .number (.integral n.toNat)
  artifactRef : v.own "artifactRef".toList = s.artifactRef.map .string
  shortErrorCode : v.own "shortErrorCode".toList = s.shortErrorCode.map .string

theorem checkKeys_literal {fail : Units → TsError} {allowed : List Text} {path : Text} {ms : List (Text × JsValue)}
    (h : ∀ m ∈ ms, m.1 ∈ allowed) : checkKeys fail allowed path (literal ms) = .ok () := by
  induction ms with
  | nil => rfl
  | cons m ms ih =>
    obtain ⟨hm, hms⟩ := List.forall_mem_cons.mp h
    have hkey : codes m.1 ∈ allowed.map codes := List.mem_map_of_mem hm
    rw [literal, List.map_cons, ← literal]
    unfold checkKeys
    rw [if_neg (not_not.mpr hkey)]
    exact ih hms

theorem own_of_plain {v : JsValue} {ps : Properties JsValue} (h : plainObject? v = some ps) (key : Text) :
    v.own key = ownValue ps key := by
  unfold plainObject? at h
  split at h
  · rw [← Option.some.inj h]; rfl
  · rw [← Option.some.inj h]; rfl
  · cases h

theorem ownDataValue_eq_ok {fail : Units → TsError} {ps : Properties JsValue} {key path : Text} {v : JsValue} :
    ownDataValue fail ps key path = .ok v ↔ ownValue ps key = some v := by
  rw [ownDataValue]
  cases ownValue ps key <;> simp

theorem requireString_eq_ok {ps : Properties JsValue} {key path : Text} {s : Units} :
    requireString ps key path = .ok s ↔ ownValue ps key = some (.string s) := by
  unfold requireString
  simp only [bind_eq_ok, ownDataValue_eq_ok]
  constructor
  · rintro ⟨v, hv, h⟩
    cases v with
    | string t =>
      cases h
      exact hv
    | _ => cases h
  · exact fun h => ⟨_, h, rfl⟩

theorem isString_iff {v : JsValue} {t : Text} : v.isString t = true ↔ v = .string (codes t) := by
  cases v with
  | string s => simp [JsValue.isString]
  | _ => simp [JsValue.isString]

theorem role?_eq_some {v : JsValue} {r : Role} (h : role? v = some r) : v = .string (codes r.wire) := by
  have hr : v.isString r.wire = true := List.find?_some (p := fun r : Role => v.isString r.wire) h
  exact isString_iff.mp hr

theorem signalKind?_eq_some {v : JsValue} {k : SignalKind} (h : signalKind? v = some k) : v = .string (codes k.wire) := by
  have hk : v.isString k.wire = true := List.find?_some (p := fun k : SignalKind => v.isString k.wire) h
  exact isString_iff.mp hk

theorem requireRole_ok {ps : Properties JsValue} {path : Text} {r : Role} (h : requireRole ps path = .ok r) :
    ownValue ps "role".toList = some (.string (codes r.wire)) := by
  unfold requireRole at h
  simp only [bind_eq_ok, ownDataValue_eq_ok] at h
  obtain ⟨v, hv, h⟩ := h
  cases hr : role? v with
  | none =>
    rw [hr] at h
    cases h
  | some r' =>
    rw [hr] at h
    cases h
    rw [hv, role?_eq_some hr]

theorem optionalField_ok {ps : Properties JsValue} {key path : Text} {o : Option JsValue}
    (h : optionalField ps key path = .ok o) : ownValue ps key = o := by
  unfold optionalField at h
  cases hown : hasOwn ps key with
  | false =>
    rw [hown] at h
    cases h
    rw [hasOwn, Option.isSome_eq_false_iff, Option.isNone_iff_eq_none] at hown
    rw [ownValue, hown, Option.bind_none]
  | true =>
    simp only [hown, Bool.not_true, Bool.false_eq_true, ite_false, bind_eq_ok, ownDataValue_eq_ok] at h
    obtain ⟨v, hv, h⟩ := h
    cases v with
    | null => cases h
    | undefined => cases h
    | _ =>
      cases h
      exact hv

theorem countOf_eq_some {v : JsValue} {n : UInt32} (h : countOf v = some n) : v = .number (.integral n.toNat) := by
  unfold countOf at h
  split at h
  · rename_i k
    split at h
    · rename_i hk
      obtain rfl := Option.some.inj h
      rw [UInt32.toNat_ofNat', Nat.mod_eq_of_lt (by rw [u32Max] at hk; omega), Int.toNat_of_nonneg hk.1]
    · cases h
  · cases h

theorem findingCountOf_ok {o : Option JsValue} {c : Option UInt32} (h : findingCountOf o = .ok c) :
    o = c.map fun n => .number (.integral n.toNat) := by
  cases o with
  | none =>
    cases h
    rfl
  | some v =>
    rw [findingCountOf] at h
    cases hv : countOf v with
    | none =>
      rw [hv] at h
      cases h
    | some n =>
      rw [hv] at h
      cases h
      rw [countOf_eq_some hv, Option.map_some]

theorem optionalString_ok {key : Text} {o : Option JsValue} {s : Option Units} (h : optionalString key o = .ok s) :
    o = s.map .string := by
  rcases o with _ | v
  · cases h
    rfl
  · cases v with
    | string t =>
      cases h
      rfl
    | _ => cases h

theorem requireDigest_ok {ps : Properties JsValue} {key path : Text} {d : TsDigest} (h : requireDigest ps key path = .ok d) :
    ∃ v, ownValue ps key = some v ∧ d.ReadFrom v := by
  unfold requireDigest at h
  simp only [bind_eq_ok, ownDataValue_eq_ok] at h
  obtain ⟨v, hv, h⟩ := h
  refine ⟨v, hv, ?_⟩
  cases hp : plainObject? v with
  | none =>
    rw [hp] at h
    cases h
  | some ds =>
    simp only [hp, bind_eq_ok, requireString_eq_ok] at h
    obtain ⟨-, -, algorithm, ha, hex, hh, h⟩ := h
    by_cases hsha : algorithm = codes DigestAlgorithm.sha256.wire
    · simp only [hsha, ne_eq, not_true_eq_false, ite_false] at h
      cases h
      rw [hsha] at ha
      exact ⟨(own_of_plain hp _).trans ha, (own_of_plain hp _).trans hh⟩
    · rw [if_pos hsha] at h
      cases h

theorem decodeExpectedShape_ok {ps : Properties JsValue} {e : TsExpected} {v : JsValue} (hv : plainObject? v = some ps)
    (h : decodeExpectedShape ps = .ok e) : e.ReadFrom v := by
  unfold decodeExpectedShape at h
  simp only [bind_eq_ok, requireString_eq_ok, pure, Except.pure] at h
  obtain ⟨w, hw, a, ha, t, ht, r, hr, k, hk, d, hd, h⟩ := h
  cases h
  refine ⟨?_, ?_, ?_, ?_, ?_, ?_⟩ <;> simp only [own_of_plain hv]
  · exact hw
  · exact ha
  · exact ht
  · exact requireRole_ok hr
  · exact hk
  · exact requireDigest_ok hd

theorem decodeWorkflowSignalShape_ok {s : TsSignal} {v : JsValue} (h : decodeWorkflowSignalShape v = .ok s) : s.ReadFrom v := by
  unfold decodeWorkflowSignalShape at h
  cases hv : plainObject? v with
  | none =>
    rw [hv] at h
    cases h
  | some ps =>
    simp only [hv, bind_eq_ok, ownDataValue_eq_ok] at h
    obtain ⟨-, -, kv, hkv, h⟩ := h
    cases hk : signalKind? kv with
    | none =>
      rw [hk] at h
      cases h
    | some kind =>
      simp only [hk, bind_eq_ok, requireString_eq_ok, pure, Except.pure] at h
      obtain ⟨cv, hcv, c, hc, rv, hrv, r, hr, ev, hev, e, he, i, hi, w, hw, a, ha, t, ht, ro, hro, av, hav, d, hd, h⟩ := h
      cases h
      refine ⟨?_, ?_, ?_, ?_, ?_, ?_, ?_, ?_, ?_, ?_, ?_⟩ <;> simp only [own_of_plain hv]
      · exact hi
      · exact hw
      · exact ha
      · exact ht
      · exact requireRole_ok hro
      · exact hav
      · exact requireDigest_ok hd
      · rw [hkv, signalKind?_eq_some hk]
      · rw [optionalField_ok hcv, findingCountOf_ok hc]
      · rw [optionalField_ok hrv, optionalString_ok hr]
      · rw [optionalField_ok hev, optionalString_ok he]

/-- What `buildWorkflowSignalSubmit` accepts is a command of the core, with the values of the source. -/
theorem buildSubmit_ok {v : JsValue} {r : TsSubmit} (h : buildWorkflowSignalSubmit v = .ok r) :
    ∃ (signal : WorkflowSignal) (expected : ExpectedAssignment), r = ⟨expected.ts, signal.parts.ts⟩ ∧
      (∃ ev, v.own "expected".toList = some ev ∧ r.expected.ReadFrom ev) ∧
      (∃ sv, v.own "signal".toList = some sv ∧ r.signal.ReadFrom sv) := by
  unfold buildWorkflowSignalSubmit at h
  cases hv : plainObject? v with
  | none =>
    rw [hv] at h
    cases h
  | some ps =>
    simp only [hv, bind_eq_ok, ownDataValue_eq_ok] at h
    obtain ⟨-, -, ev, hev, sv, hsv, h⟩ := h
    cases hp : plainObject? ev with
    | none =>
      rw [hp] at h
      cases h
    | some es =>
      simp only [hp, bind_eq_ok, pure, Except.pure] at h
      obtain ⟨-, -, e, he, s, hs, ⟨⟩, hchecks, s', hs', h⟩ := h
      cases h
      obtain ⟨expected, rfl⟩ := expectedChecks_iff.mp hchecks
      obtain ⟨rfl, signal, rfl⟩ := validateWorkflowSignal_eq_ok.mp hs'
      exact ⟨signal, expected, rfl, ⟨ev, (own_of_plain hv _).trans hev, decodeExpectedShape_ok hp he⟩,
        ⟨sv, (own_of_plain hv _).trans hsv, decodeWorkflowSignalShape_ok hs⟩⟩

theorem buildReconcile_ok {v : JsValue} {s : TsSignal} (h : buildWorkflowSignalReconcile v = .ok s) :
    ∃ signal : WorkflowSignal, s = signal.parts.ts ∧ ∃ sv, v.own "signal".toList = some sv ∧ s.ReadFrom sv := by
  unfold buildWorkflowSignalReconcile at h
  cases hv : plainObject? v with
  | none =>
    rw [hv] at h
    cases h
  | some ps =>
    simp only [hv, bind_eq_ok, ownDataValue_eq_ok] at h
    obtain ⟨-, -, sv, hsv, s', hs', hs⟩ := h
    obtain ⟨rfl, signal, rfl⟩ := validateWorkflowSignal_eq_ok.mp hs
    exact ⟨signal, rfl, sv, (own_of_plain hv _).trans hsv, decodeWorkflowSignalShape_ok hs'⟩

end Aizign
