import Aizign.Adapter

/-!
# The tool stays in its assignment

The payload of every accepted call names the configured assignment, twice. The
builders of the protocol package can refuse it for its finding count only, and
the core never finds that the signal and the expectation disagree.
-/

namespace Aizign

/-! ## The builders on an object literal -/

theorem plainObject?_jsObject (ms : List (Text × JsValue)) : plainObject? (jsObject ms) = some (literal ms) := rfl

theorem role?_wire (r : Role) : role? (.string (codes r.wire)) = some r := by cases r <;> decide

theorem signalKind?_wire (k : SignalKind) : signalKind? (.string (codes k.wire)) = some k := by cases k <;> decide

section
variable (ms : List (Text × JsValue)) {key path : Text}

theorem ownDataValue_literal {fail : Units → TsError} {v : JsValue} (h : ownValue (literal ms) key = some v) :
    ownDataValue fail (literal ms) key path = .ok v := ownDataValue_eq_ok.mpr h

theorem requireRole_literal {r : Role} (h : ownValue (literal ms) "role".toList = some (.string (codes r.wire))) :
    requireRole (literal ms) path = .ok r := by
  unfold requireRole
  rw [ownDataValue_literal ms h]
  simp only [bind, Except.bind, role?_wire]
  rfl

theorem requireDigest_literal {d : TsDigest} (h : ownValue (literal ms) key = some d.value) :
    requireDigest (literal ms) key path = .ok d := by
  have hclosed : assertOnlyKeys payloadFail (literal [("algorithm".toList, .string (codes d.algorithm.wire)),
      ("hex".toList, .string d.hex)]) ["algorithm".toList, "hex".toList] = .ok () := by
    apply checkKeys_literal
    intro m hm
    simp only [List.mem_cons, List.not_mem_nil, or_false] at hm
    rcases hm with rfl | rfl <;> simp
  obtain ⟨⟨⟩, hex⟩ := d
  unfold requireDigest
  rw [ownDataValue_literal ms h]
  simp only [bind, Except.bind, TsDigest.value, jsObject, plainObject?, hclosed]
  rfl

theorem optionalField_literal {o : Option JsValue} (h : ownValue (literal ms) key = o)
    (ho : ∀ v, o = some v → v ≠ .null ∧ v ≠ .undefined) : optionalField (literal ms) key path = .ok o := by
  unfold optionalField
  rw [hasOwn_literal, h]
  cases o with
  | none => rfl
  | some v =>
    obtain ⟨hnull, hundefined⟩ := ho v rfl
    rw [ownDataValue_literal ms h]
    simp only [Option.isSome_some, Bool.not_true, Bool.false_eq_true, ite_false, bind, Except.bind]
    cases v with
    | null => exact absurd rfl hnull
    | undefined => exact absurd rfl hundefined
    | _ => rfl

end

theorem decodeExpectedShape_members (e : TsExpected) : decodeExpectedShape (literal e.members) = .ok e := by
  unfold decodeExpectedShape
  rw [requireString_eq_ok.mpr (show ownValue (literal e.members) "workflowId".toList = some (.string e.workflowId) from rfl),
    requireString_eq_ok.mpr (show ownValue (literal e.members) "assignmentId".toList = some (.string e.assignmentId) from rfl),
    requireString_eq_ok.mpr (show ownValue (literal e.members) "attemptId".toList = some (.string e.attemptId) from rfl),
    requireRole_literal e.members rfl,
    requireString_eq_ok.mpr
      (show ownValue (literal e.members) "artifactRevision".toList = some (.string e.artifactRevision) from rfl),
    requireDigest_literal e.members rfl]
  rfl

def SignalSource.shape (s : SignalSource) (count : Option UInt32) : TsSignal :=
  ⟨s.eventId, s.assignment.workflowId, s.assignment.assignmentId, s.assignment.attemptId, s.assignment.role,
    s.assignment.artifactRevision, s.assignment.candidateDigest, s.kind, count, s.artifactRef, s.shortErrorCode⟩

section
variable (s : SignalSource)

theorem SignalSource.own_all (key : Text) : ownValue (literal s.all) key = (ownValue (literal s.members) key).or
    ((if "findingCount".toList = key then s.findingCount.map .number else none).or
      ((if "artifactRef".toList = key then s.artifactRef.map .string else none).or
        (if "shortErrorCode".toList = key then s.shortErrorCode.map .string else none))) := by
  rw [SignalSource.all, ownValue_append, ownValue_append, ownValue_append, ownValue_optional, ownValue_optional,
    ownValue_optional, Option.or_assoc, Option.or_assoc]

theorem SignalSource.own_member (key : Text) {v : JsValue} (h : ownValue (literal s.members) key = some v) :
    ownValue (literal s.all) key = some v := by
  rw [s.own_all, h, Option.some_or]

theorem SignalSource.closed : assertOnlyKeys payloadFail (literal s.all) signalKeys = .ok () := by
  have hoptional : ∀ (key : Text) (value : Option JsValue), key ∈ signalKeys → ∀ m ∈ optionalMember key value, m.1 ∈ signalKeys := by
    intro key value hkey m hm
    obtain ⟨v, -, rfl⟩ := List.mem_map.mp hm
    exact hkey
  apply checkKeys_literal
  rw [SignalSource.all]
  simp only [List.forall_mem_append]
  refine ⟨⟨⟨?_, hoptional _ _ (by decide)⟩, hoptional _ _ (by decide)⟩, hoptional _ _ (by decide)⟩
  intro m hm
  have hkeys : m.1 ∈ s.members.map Prod.fst := List.mem_map_of_mem hm
  have hall : ∀ key ∈ s.members.map Prod.fst, key ∈ signalKeys := by
    simp only [SignalSource.members, TsExpected.members, List.map_append, List.map_cons, List.map_nil]
    decide
  exact hall m.1 hkeys

theorem optionalString_map (key : Text) (o : Option Units) : optionalString key (o.map .string) = .ok o := by
  cases o <;> rfl

theorem SignalSource.requireString (key : Text) {u : Units} (h : ownValue (literal s.members) key = some (.string u)) :
    requireString (literal s.all) key "signal".toList = .ok u :=
  requireString_eq_ok.mpr (s.own_member key h)

/-- Only the finding count can make the shape of a signal wrong. -/
theorem decodeWorkflowSignalShape_value :
    decodeWorkflowSignalShape s.value = (findingCountOf (s.findingCount.map .number)).map s.shape := by
  have hcount : optionalField (literal s.all) "findingCount".toList "signal".toList = .ok (s.findingCount.map .number) := by
    apply optionalField_literal
    · rw [s.own_all]
      exact (Option.none_or ..).trans (Option.or_none ..)
    · intro v hv
      obtain ⟨n, -, rfl⟩ := Option.map_eq_some_iff.mp hv
      exact ⟨nofun, nofun⟩
  have href : optionalField (literal s.all) "artifactRef".toList "signal".toList = .ok (s.artifactRef.map .string) := by
    apply optionalField_literal
    · rw [s.own_all]
      exact (Option.none_or ..).trans (Option.or_none ..)
    · intro v hv
      obtain ⟨u, -, rfl⟩ := Option.map_eq_some_iff.mp hv
      exact ⟨nofun, nofun⟩
  have hcode : optionalField (literal s.all) "shortErrorCode".toList "signal".toList = .ok (s.shortErrorCode.map .string) := by
    apply optionalField_literal
    · rw [s.own_all]
      rfl
    · intro v hv
      obtain ⟨u, -, rfl⟩ := Option.map_eq_some_iff.mp hv
      exact ⟨nofun, nofun⟩
  unfold decodeWorkflowSignalShape
  simp only [SignalSource.value, jsObject, plainObject?, s.closed, bind, Except.bind, pure, Except.pure,
    ownDataValue_literal s.all (s.own_member "kind".toList rfl), signalKind?_wire,
    hcount, href, hcode, optionalString_map]
  cases findingCountOf (s.findingCount.map .number) with
  | error e => rfl
  | ok count =>
    simp only [Except.map, s.requireString "eventId".toList rfl, s.requireString "workflowId".toList rfl,
      s.requireString "assignmentId".toList rfl, s.requireString "attemptId".toList rfl,
      s.requireString "artifactRevision".toList rfl, requireRole_literal s.all (s.own_member "role".toList rfl),
      requireDigest_literal s.all (s.own_member "candidateDigest".toList rfl)]
    rfl

end

/-- On a payload of the adapter the builder reads the count, then checks the values. -/
theorem buildSubmit_value (p : SubmitSource) : buildWorkflowSignalSubmit p.value = do
    let count ← findingCountOf (p.signal.findingCount.map .number)
    refuseFirst (expectedChecks p.expected)
    return ⟨p.expected, ← validateWorkflowSignal (p.signal.shape count)⟩ := by
  have hkeys : assertOnlyKeys payloadFail (literal [("expected".toList, jsObject p.expected.members),
      ("signal".toList, p.signal.value)]) ["expected".toList, "signal".toList] = .ok () := by
    apply checkKeys_literal
    intro m hm
    simp only [List.mem_cons, List.not_mem_nil, or_false] at hm
    rcases hm with rfl | rfl <;> simp
  have hexpected : assertOnlyKeys payloadFail (literal p.expected.members) expectedKeys = .ok () := by
    have hall : ∀ key ∈ p.expected.members.map Prod.fst, key ∈ expectedKeys := by
      simp only [TsExpected.members, List.map_cons, List.map_nil]
      decide
    exact checkKeys_literal fun m hm => hall m.1 (List.mem_map_of_mem hm)
  unfold buildWorkflowSignalSubmit
  rw [SubmitSource.value]
  simp only [plainObject?_jsObject, hkeys, bind, Except.bind]
  rw [ownDataValue_literal _ (show ownValue (literal [("expected".toList, jsObject p.expected.members),
      ("signal".toList, p.signal.value)]) "expected".toList = some (jsObject p.expected.members) from rfl),
    ownDataValue_literal _ (show ownValue (literal [("expected".toList, jsObject p.expected.members),
      ("signal".toList, p.signal.value)]) "signal".toList = some p.signal.value from rfl)]
  simp only [plainObject?_jsObject, hexpected, decodeExpectedShape_members, decodeWorkflowSignalShape_value]
  cases findingCountOf (p.signal.findingCount.map .number) <;> rfl

/-! ## What a configuration fixes -/

/-- The identity and the trusted values of a configuration that was accepted. -/
structure AdapterConfig.Binds (c : AdapterConfig) (config : Config) (event : EventId) (assignment : ExpectedAssignment)
    (ref : Option ArtifactRef) (code : ShortErrorCode) : Prop where
  eventId : c.binding.eventId = config.eventId
  expected : c.binding.expected = ⟨config.workflowId, config.assignmentId, config.attemptId, assignment.role,
    config.artifactRevision, ⟨.sha256, config.digestHex⟩⟩
  role : config.role = codes assignment.role.wire
  artifactRef : config.trustedSignalValues.own "artifactRef".toList = c.trustedSignalValues.artifactRef.map .string
  errorCode : config.trustedSignalValues.own "blockedShortErrorCode".toList =
    some (.string c.trustedSignalValues.blockedShortErrorCode)
  validEventId : c.binding.eventId = codes event.value
  validExpected : c.binding.expected = assignment.ts
  validRef : c.trustedSignalValues.artifactRef = ref.map fun r => codes r.value
  validCode : c.trustedSignalValues.blockedShortErrorCode = codes code.value
  required : assignment.role = .implementation → ref ≠ none

theorem trustedArtifactRef_ok {ps : Properties JsValue} {ref : Option Units} (h : trustedArtifactRef ps = .ok ref) :
    ownValue ps "artifactRef".toList = ref.map .string ∧ ∃ x : Option ArtifactRef, ref = x.map fun r => codes r.value := by
  unfold trustedArtifactRef at h
  split at h
  · rename_i hown
    cases h
    exact ⟨hown, none, rfl⟩
  · rename_i u hown
    split at h
    · rename_i hpattern
      cases h
      obtain ⟨x, rfl⟩ := artifactRefPattern_iff.mp hpattern
      exact ⟨hown, some x, rfl⟩
    · cases h
  · cases h

theorem trustedErrorCode_ok {ps : Properties JsValue} {code : Units} (h : trustedErrorCode ps = .ok code) :
    ownValue ps "blockedShortErrorCode".toList = some (.string code) ∧ ∃ x : ShortErrorCode, code = codes x.value := by
  unfold trustedErrorCode at h
  split at h
  · rename_i u hown
    split at h
    · rename_i hpattern
      cases h
      exact ⟨hown, shortErrorCodePattern_iff.mp hpattern⟩
    · cases h
  · cases h

theorem validateTrusted_ok {value : JsValue} {role : Units} {t : TrustedSignalValues}
    (h : validateTrustedSignalValues value role = .ok t) :
    value.own "artifactRef".toList = t.artifactRef.map .string ∧
      value.own "blockedShortErrorCode".toList = some (.string t.blockedShortErrorCode) ∧
      (∃ x : Option ArtifactRef, t.artifactRef = x.map fun r => codes r.value) ∧
      (∃ x : ShortErrorCode, t.blockedShortErrorCode = codes x.value) ∧
      (role = codes Role.implementation.wire → t.artifactRef ≠ none) := by
  unfold validateTrustedSignalValues at h
  split at h
  · rename_i isProxy ps
    split at h
    · cases h
    · simp only [bind_eq_ok] at h
      obtain ⟨ref, href, code, hcode, h⟩ := h
      split at h
      · cases h
      · rename_i hrole
        cases h
        obtain ⟨hown, href⟩ := trustedArtifactRef_ok href
        obtain ⟨hown', hcode⟩ := trustedErrorCode_ok hcode
        exact ⟨hown, hown', href, hcode, fun hr hn => hrole ⟨hr, hn⟩⟩
  · cases h

theorem validateConfig_ok {config : Config} {c : AdapterConfig} (h : validateConfig config = .ok c) :
    ∃ event assignment ref code, c.Binds config event assignment ref code := by
  unfold validateConfig at h
  simp only [bind_eq_ok] at h
  obtain ⟨trusted, htrusted, ⟨⟩, hchecks, h⟩ := h
  cases hrole : role? (.string config.role) with
  | none =>
    rw [hrole] at h
    cases h
  | some role =>
    simp only [hrole] at h
    split at h
    · cases h
    · cases h
      obtain ⟨href, hcode, ⟨ref, hvref⟩, ⟨code, hvcode⟩, hreq⟩ := validateTrusted_ok htrusted
      have hr : config.role = codes role.wire := JsValue.string.inj (role?_eq_some hrole)
      rw [refuseFirst_eq_ok] at hchecks
      simp only [configChecks, List.forall_mem_cons, List.not_mem_nil, false_imp_iff, implies_true, and_true,
        Bool.not_eq_false', identifierPattern_iff, Bool.or_eq_false_iff, sha256HexPattern_iff] at hchecks
      obtain ⟨-, -, ⟨i, hi⟩, ⟨w, hw⟩, ⟨a, ha⟩, ⟨t, ht⟩, ⟨v, hv⟩, -, ⟨⟨⟨⟩, hex, hok⟩, hd⟩⟩ := hchecks
      refine ⟨i, ⟨w, a, t, role, v, ⟨.sha256, hex, hok⟩⟩, ref, code, ⟨rfl, rfl, hr, href, hcode, hi, ?_, hvref, hvcode, ?_⟩⟩
      · rw [hw, ha, ht, hv, hd]
        rfl
      · rintro himpl rfl
        exact hreq (by rw [hr, show role = .implementation from himpl]) hvref

theorem decodeArgs_kind {args : JsValue} {role : Role} {a : SignalArgs} (h : decodeArgs args role = .ok a) :
    a.kind ∈ kindsForRole role := by
  unfold decodeArgs at h
  split at h
  · split at h
    · cases h
    · simp only [bind_eq_ok] at h
      obtain ⟨kv, -, cv, -, h⟩ := h
      cases hk : (kindsForRole role).find? fun k => kv.isString k.wire with
      | none =>
        rw [hk] at h
        cases h
      | some kind =>
        have hmem := List.mem_of_find?_eq_some hk
        simp only [hk] at h
        split at h
        · cases h
          exact hmem
        · split at h
          · cases h
          · cases h
            exact hmem
        · cases h
  · cases h

def boundParts (event : EventId) (assignment : ExpectedAssignment) (ref : Option ArtifactRef) (code : ShortErrorCode)
    (kind : SignalKind) (count : Option UInt32) : SignalParts where
  eventId := event
  workflowId := assignment.workflowId
  assignmentId := assignment.assignmentId
  attemptId := assignment.attemptId
  role := assignment.role
  artifactRevision := assignment.artifactRevision
  candidateDigest := assignment.candidateDigest
  kind := kind
  findingCount := count
  artifactRef := if kind = .repairSubmitted ∨ kind = .reviewFindings then ref else none
  shortErrorCode := if kind = .blocked then some code else none

/-- A count the kind carries, in range; or none where it carries none. -/
def SignalArgs.CountFits (a : SignalArgs) : Prop :=
  match a.kind with
  | .reviewFindings | .repairSubmitted => ∃ n : Int, a.findingCount = some (.integral n) ∧ 1 ≤ n ∧ n ≤ u32Max
  | .reviewPassed => a.findingCount = some (.integral 0)
  | .implementationReady | .blocked => a.findingCount = none

def findingCountErrors (kind : SignalKind) : List TsError := countError :: (countRules kind none).map Prod.snd

section
variable {config : Config} {c : AdapterConfig} {event : EventId} {assignment : ExpectedAssignment} {ref : Option ArtifactRef}
  {code : ShortErrorCode} (hb : c.Binds config event assignment ref code) {a : SignalArgs}
  (hk : a.kind ∈ kindsForRole assignment.role)
include hb

theorem AdapterConfig.Binds.shape (count : Option UInt32) :
    (resolveTrustedSignalValues c.binding c.trustedSignalValues a).payload.signal.shape count =
      (boundParts event assignment ref code a.kind count).ts := by
  have href : (if a.kind = .repairSubmitted ∨ a.kind = .reviewFindings then c.trustedSignalValues.artifactRef else none) =
      (if a.kind = .repairSubmitted ∨ a.kind = .reviewFindings then ref else none).map fun r => codes r.value := by
    rw [hb.validRef]
    split <;> rfl
  have hcode : (if a.kind = .blocked then some c.trustedSignalValues.blockedShortErrorCode else none) =
      (if a.kind = .blocked then some code else none).map fun x => codes x.value := by
    rw [hb.validCode]
    split <;> rfl
  rw [resolveTrustedSignalValues, SignalSource.shape]
  simp only [hb.validEventId, hb.validExpected, href, hcode]
  rfl

include hk in
theorem AdapterConfig.Binds.opaqueRules (count : Option UInt32) :
    refuseFirst (opaqueRules a.kind (boundParts event assignment ref code a.kind count).ts.artifactRef
      (boundParts event assignment ref code a.kind count).ts.shortErrorCode) = .ok () := by
  have hreq := hb.required
  rw [refuseFirst_eq_ok, opaqueRules_iff]
  simp only [boundParts, SignalParts.ts, Option.isSome_map]
  cases hkind : a.kind <;> rw [hkind] at hk <;> cases hrole : assignment.role <;> rw [hrole] at hk hreq <;>
    simp_all [kindsForRole, checkArtifactRef, checkShortErrorCode]

include hk in
/-- Only the rules on the finding count are left to refuse a call. -/
theorem AdapterConfig.Binds.rules (count : Option UInt32) :
    validateSignalRules (boundParts event assignment ref code a.kind count).ts = refuseFirst (countRules a.kind count) := by
  have hrole : ((requiredRole a.kind).any fun r => r ≠ assignment.role) = false := by
    cases hkind : a.kind <;> rw [hkind] at hk <;> cases hr : assignment.role <;> rw [hr] at hk <;> revert hk <;> decide
  have hr : ((requiredRole (boundParts event assignment ref code a.kind count).ts.kind).any fun r =>
      r ≠ (boundParts event assignment ref code a.kind count).ts.role) = false := hrole
  rw [validateSignalRules, refuseFirst, hr]
  exact refuseFirst_append (hb.opaqueRules hk count)

include hk in
theorem AdapterConfig.Binds.build : buildWorkflowSignalSubmit
      (resolveTrustedSignalValues c.binding c.trustedSignalValues a).payload.value = do
    let count ← findingCountOf (a.findingCount.map .number)
    refuseFirst (countRules a.kind count)
    return ⟨assignment.ts, (boundParts event assignment ref code a.kind count).ts⟩ := by
  have hexpected : (resolveTrustedSignalValues c.binding c.trustedSignalValues a).payload.expected = assignment.ts :=
    hb.validExpected
  have hchecks : refuseFirst (expectedChecks assignment.ts) = .ok () := expectedChecks_iff.mpr ⟨assignment, rfl⟩
  have hvalidate : ∀ count, validateWorkflowSignal (boundParts event assignment ref code a.kind count).ts = do
      refuseFirst (countRules a.kind count)
      return (boundParts event assignment ref code a.kind count).ts := by
    intro count
    unfold validateWorkflowSignal
    rw [signalChecks_iff.mpr ⟨_, rfl⟩, hb.rules hk]
    rfl
  have hcount : (resolveTrustedSignalValues c.binding c.trustedSignalValues a).payload.signal.findingCount = a.findingCount := rfl
  rw [buildSubmit_value, hexpected, hcount]
  simp only [hb.shape, hchecks, hvalidate]
  cases findingCountOf (a.findingCount.map .number) with
  | error e => rfl
  | ok count =>
    simp only [bind, Except.bind]
    cases refuseFirst (countRules a.kind count) <;> rfl

end

/-- The count of a call fits exactly when it is read and passes the rules of its kind. -/
theorem countFits_iff {a : SignalArgs} :
    a.CountFits ↔ ∃ count, findingCountOf (a.findingCount.map .number) = .ok count ∧ refuseFirst (countRules a.kind count) = .ok () := by
  have hread : ∀ n : Int, 0 ≤ n → n ≤ u32Max →
      findingCountOf (some (.number (.integral n))) = .ok (some (UInt32.ofNat n.toNat)) := by
    intro n h₁ h₂
    rw [findingCountOf, countOf, if_pos ⟨h₁, h₂⟩]
  have hzero : ∀ n : Int, 0 ≤ n → n ≤ u32Max → (UInt32.ofNat n.toNat = 0 ↔ n = 0) := by
    intro n h₁ h₂
    rw [← UInt32.toNat_inj, UInt32.toNat_ofNat', Nat.mod_eq_of_lt (by rw [u32Max] at h₂; omega)]
    change n.toNat = 0 ↔ n = 0
    omega
  simp only [refuseFirst_eq_ok, countRules_iff]
  unfold SignalArgs.CountFits
  obtain ⟨kind, findingCount⟩ := a
  rcases findingCount with _ | n
  · cases kind <;> simp [findingCountOf, checkFindingCount]
  · cases n with
    | integral n =>
      by_cases hn : 0 ≤ n ∧ n ≤ u32Max
      · rw [Option.map_some, hread n hn.1 hn.2]
        cases kind <;> simp [checkFindingCount, hzero n hn.1 hn.2] <;> omega
      · have herror : findingCountOf (some (.number (.integral n))) = .error countError := by
          rw [findingCountOf, countOf, if_neg hn]
        rw [Option.map_some, herror]
        cases kind <;> simp <;> omega
    | negativeZero => cases kind <;> simp [findingCountOf, countOf]
    | other bits => cases kind <;> simp [findingCountOf, countOf]

/-- What reading and checking a count fails with. -/
theorem findingCount_error {kind : SignalKind} {o : Option JsValue} {f : Option UInt32 → TsSubmit} {e : TsError}
    (h : (do let count ← findingCountOf o; refuseFirst (countRules kind count); return f count : Except TsError TsSubmit) = .error e) :
    e ∈ findingCountErrors kind := by
  cases hcount : findingCountOf o with
  | error e' =>
    rw [hcount] at h
    cases h
    rw [findingCountOf.eq_def] at hcount
    split at hcount
    · cases hcount
    · split at hcount
      · cases hcount
      · cases hcount
        exact List.mem_cons_self ..
  | ok count =>
    rw [hcount] at h
    cases hrules : refuseFirst (countRules kind count) with
    | ok u =>
      simp only [bind, Except.bind, hrules] at h
      cases h
    | error e' =>
      simp only [bind, Except.bind, hrules] at h
      cases h
      have hmem : e ∈ (countRules kind count).map Prod.snd := List.mem_map_of_mem (f := Prod.snd) (refuseFirst_error hrules)
      exact List.mem_cons_of_mem _ hmem

/-! ## The tool -/

/-- A payload with the configured identity, in the expectation and in the signal. -/
structure SubmitSource.Keeps (p : SubmitSource) (config : Config) : Prop where
  eventId : p.signal.eventId = config.eventId
  assignment : p.signal.assignment = p.expected
  workflowId : p.expected.workflowId = config.workflowId
  assignmentId : p.expected.assignmentId = config.assignmentId
  attemptId : p.expected.attemptId = config.attemptId
  role : codes p.expected.role.wire = config.role
  artifactRevision : p.expected.artifactRevision = config.artifactRevision
  candidateDigest : p.expected.candidateDigest = ⟨.sha256, config.digestHex⟩

/-- A payload whose opaque strings are the configured ones, for the kinds that may carry them. -/
structure SubmitSource.Trusts (p : SubmitSource) (config : Config) : Prop where
  artifactRef : p.signal.artifactRef.map .string =
    if p.signal.kind = .repairSubmitted ∨ p.signal.kind = .reviewFindings then
      config.trustedSignalValues.own "artifactRef".toList else none
  required : p.signal.kind = .repairSubmitted → p.signal.artifactRef ≠ none
  shortErrorCode : p.signal.shortErrorCode.map .string =
    if p.signal.kind = .blocked then config.trustedSignalValues.own "blockedShortErrorCode".toList else none
  blocked : p.signal.kind = .blocked → p.signal.shortErrorCode ≠ none

/-- The core decides on a command for the assignment it was expected for without finding a mismatch. -/
theorem decide_without_mismatch {signal : WorkflowSignal} {expected : ExpectedAssignment}
    (h : signal.checkExpected expected = .ok ()) (state : WorkflowState) (e : WorkflowError)
    (he : decideCommand state (.submitSignal signal expected) = .rejected e) : e = .eventConflict signal.eventId := by
  simp only [decideCommand, h] at he
  split at he
  · split at he
    · cases he
    · cases he
      rfl
  · cases he

/-- The client encodes a payload that the builder accepts. -/
theorem encodeSubmit_ok [SerdeJson] {id : Text} (hid : validRequestId id = true) {payload : JsValue} {built : TsSubmit} {command : Command}
    (hbuilt : buildWorkflowSignalSubmit payload = .ok built)
    (hc : Request.Carries ⟨id, .submitWorkflowSignal command⟩ built.graph) : tsEncodeRequest (submitRequest (codes id) payload) =
      .ok ((⟨id, .submitWorkflowSignal command⟩ : Request).cstWith built.graph).text := by
  have hkeys : checkKeys envelopeFail ["requestId".toList, "kind".toList, "payload".toList] "request".toList
      (literal [("requestId".toList, .string (codes id)), ("kind".toList, .string (codes kindWorkflowSignalSubmit)),
        ("payload".toList, payload)]) = .ok () := by
    apply checkKeys_literal
    intro m hm
    simp only [List.mem_cons, List.not_mem_nil, or_false] at hm
    rcases hm with rfl | rfl | rfl <;> simp
  have hclosed : assertClosedObject envelopeFail (submitRequest (codes id) payload)
      ["requestId".toList, "kind".toList, "payload".toList] "request".toList =
      .ok (literal [("requestId".toList, .string (codes id)), ("kind".toList, .string (codes kindWorkflowSignalSubmit)),
        ("payload".toList, payload)]) := by
    rw [assertClosedObject, submitRequest]
    simp only [plainObject?_jsObject, hkeys]
    rfl
  have hgraph : payloadGraph (submitRequest (codes id) payload)
      (literal [("requestId".toList, .string (codes id)), ("kind".toList, .string (codes kindWorkflowSignalSubmit)),
        ("payload".toList, payload)]) (codes kindWorkflowSignalSubmit) = .ok built.graph := by
    have hne : codes kindWorkflowSignalSubmit ≠ codes kindHello := by decide
    unfold payloadGraph
    rw [if_neg hne, if_pos rfl, ownDataValue_eq_ok.mpr (show ownValue (literal [("requestId".toList, .string (codes id)),
      ("kind".toList, .string (codes kindWorkflowSignalSubmit)), ("payload".toList, payload)]) "payload".toList =
      some payload from rfl)]
    simp only [bind, Except.bind, hbuilt]
    rfl
  exact tsEncodeRequest_ok hclosed rfl hid rfl hgraph hc

section
variable {config : Config} {c : AdapterConfig} {event : EventId} {assignment : ExpectedAssignment} {ref : Option ArtifactRef}
  {code : ShortErrorCode} (hb : c.Binds config event assignment ref code) {a : SignalArgs}
include hb

theorem AdapterConfig.Binds.keeps : (resolveTrustedSignalValues c.binding c.trustedSignalValues a).payload.Keeps config := by
  have he := hb.expected
  refine ⟨hb.eventId, rfl, ?_, ?_, ?_, ?_, ?_, ?_⟩ <;> simp only [resolveTrustedSignalValues, he]
  exact hb.role.symm

theorem AdapterConfig.Binds.trusts (hk : a.kind ∈ kindsForRole assignment.role) :
    (resolveTrustedSignalValues c.binding c.trustedSignalValues a).payload.Trusts config where
  artifactRef := by
    rw [hb.artifactRef]
    by_cases h : a.kind = .repairSubmitted ∨ a.kind = .reviewFindings
    · simp only [resolveTrustedSignalValues, if_pos h]
    · simp only [resolveTrustedSignalValues, if_neg h, Option.map_none]
  required hkind := by
    have hrole : assignment.role = .implementation := by
      change a.kind = .repairSubmitted at hkind
      rw [hkind] at hk
      cases hr : assignment.role with
      | implementation => rfl
      | review =>
        rw [hr] at hk
        exact absurd hk (by decide)
    change (if a.kind = .repairSubmitted ∨ a.kind = .reviewFindings then c.trustedSignalValues.artifactRef else none) ≠ none
    rw [if_pos (.inl hkind), hb.validRef, ne_eq, Option.map_eq_none_iff]
    exact hb.required hrole
  shortErrorCode := by
    rw [hb.errorCode]
    by_cases h : a.kind = .blocked
    · simp only [resolveTrustedSignalValues, if_pos h, Option.map_some]
    · simp only [resolveTrustedSignalValues, if_neg h, Option.map_none]
  blocked hkind := by
    change a.kind = .blocked at hkind
    change (if a.kind = .blocked then some c.trustedSignalValues.blockedShortErrorCode else none) ≠ none
    rw [if_pos hkind]
    exact Option.some_ne_none _

/-- A payload that is built reaches the core as a command for its own assignment. -/
theorem AdapterConfig.Binds.reaches [SerdeJson] (hk : a.kind ∈ kindsForRole assignment.role) {built : TsSubmit}
    (hbuilt : buildWorkflowSignalSubmit (resolveTrustedSignalValues c.binding c.trustedSignalValues a).payload.value = .ok built)
    {id : Text} (hid : validRequestId id = true) :
    ∃ frame signal, tsEncodeRequest (submitRequest (codes id)
        (resolveTrustedSignalValues c.binding c.trustedSignalValues a).payload.value) = .ok frame ∧
      decodeRequest (utf8 frame) = .ok ⟨id, .submitWorkflowSignal (.submitSignal signal assignment)⟩ ∧
      built = ⟨assignment.ts, signal.parts.ts⟩ ∧ signal.checkExpected assignment = .ok () := by
  have hform := hbuilt
  rw [hb.build hk] at hform
  simp only [bind_eq_ok, pure, Except.pure] at hform
  obtain ⟨count, -, ⟨⟩, hrules, hform⟩ := hform
  have hvalid : signalRules (boundParts event assignment ref code a.kind count) = .ok () := by
    rw [← validateSignalRules_ts, hb.rules hk]
    exact hrules
  have hparts : built = ⟨assignment.ts, (boundParts event assignment ref code a.kind count).ts⟩ := (Except.ok.inj hform).symm
  have hcarries := carries_submit id ⟨_, hvalid⟩ assignment
  rw [hparts] at hbuilt
  exact ⟨_, ⟨_, hvalid⟩, encodeSubmit_ok hid hbuilt hcarries, decodeRequest_cst hcarries hid, hparts,
    by simp [WorkflowSignal.checkExpected, boundParts, pure, Except.pure]⟩

end

/-- The tool cannot leave its assignment: whatever the agent chooses, the payload names the configured identity and
carries the configured strings, only its finding count can make the protocol package refuse it, and the core never
finds a mismatch. -/
theorem tool_keeps_assignment [SerdeJson] (config : Config) (c : AdapterConfig) (hc : validateConfig config = .ok c) (args : JsValue)
    (a : SignalArgs) (ha : decodeArgs args c.binding.expected.role = .ok a) :
    (resolveTrustedSignalValues c.binding c.trustedSignalValues a).payload.Keeps config ∧
    (resolveTrustedSignalValues c.binding c.trustedSignalValues a).payload.Trusts config ∧
    ((∃ built, buildWorkflowSignalSubmit (resolveTrustedSignalValues c.binding c.trustedSignalValues a).payload.value = .ok built) ↔
      a.CountFits) ∧
    (∀ e, buildWorkflowSignalSubmit (resolveTrustedSignalValues c.binding c.trustedSignalValues a).payload.value = .error e →
      e ∈ findingCountErrors a.kind) ∧
    (∀ built, buildWorkflowSignalSubmit (resolveTrustedSignalValues c.binding c.trustedSignalValues a).payload.value = .ok built →
      ∀ id, validRequestId id = true → ∃ frame signal expected,
        tsEncodeRequest (submitRequest (codes id)
          (resolveTrustedSignalValues c.binding c.trustedSignalValues a).payload.value) = .ok frame ∧
        decodeRequest (utf8 frame) = .ok ⟨id, .submitWorkflowSignal (.submitSignal signal expected)⟩ ∧
        built = ⟨expected.ts, signal.parts.ts⟩ ∧
        ∀ state e, decideCommand state (.submitSignal signal expected) = .rejected e → e = .eventConflict signal.eventId) ∧
    (∀ args' a', decodeArgs args' c.binding.expected.role = .ok a' → a'.kind = a.kind → a'.findingCount = a.findingCount →
      (resolveTrustedSignalValues c.binding c.trustedSignalValues a').payload =
        (resolveTrustedSignalValues c.binding c.trustedSignalValues a).payload) := by
  obtain ⟨event, assignment, ref, code, hb⟩ := validateConfig_ok hc
  have hk : a.kind ∈ kindsForRole assignment.role := by
    have hkind := decodeArgs_kind ha
    rwa [hb.expected] at hkind
  refine ⟨hb.keeps, hb.trusts hk, ?_, ?_, ?_, ?_⟩
  · rw [countFits_iff, hb.build hk]
    simp only [bind_eq_ok, pure, Except.pure]
    constructor
    · rintro ⟨built, count, hcount, ⟨⟩, hrules, -⟩
      exact ⟨count, hcount, hrules⟩
    · rintro ⟨count, hcount, hrules⟩
      exact ⟨_, count, hcount, (), hrules, rfl⟩
  · intro e he
    rw [hb.build hk] at he
    exact findingCount_error he
  · intro built hbuilt id hid
    obtain ⟨frame, signal, hframe, hdecoded, hform, hexpected⟩ := hb.reaches hk hbuilt hid
    exact ⟨frame, signal, assignment, hframe, hdecoded, hform, decide_without_mismatch hexpected⟩
  · intro args' a' _ hkind hcount
    obtain ⟨kind, count⟩ := a
    obtain ⟨kind', count'⟩ := a'
    cases hkind
    cases hcount
    rfl

def repairConfig : Config where
  binary := codes "/opt/aizign".toList
  stateDir := codes "/var/aizign".toList
  timeoutMs := none
  eventId := codes "event-1".toList
  workflowId := codes "workflow-1".toList
  assignmentId := codes "assignment-1".toList
  attemptId := codes "attempt-1".toList
  role := codes "implementation".toList
  artifactRevision := codes "rev-1".toList
  digestAlgorithm := codes "sha256".toList
  digestHex := List.replicate 64 0x61
  trustedSignalValues := jsObject [("artifactRef".toList, .string (codes "artifact:1".toList)),
    ("blockedShortErrorCode".toList, .string (codes "BLOCKED".toList))]

def repairArgs : JsValue :=
  jsObject [("kind".toList, .string (codes "repair_submitted".toList)), ("findingCount".toList, .number (.integral 2))]

open Sample in
theorem tool_keeps_assignment_repair : ∃ c a, validateConfig repairConfig = .ok c ∧
    decodeArgs repairArgs c.binding.expected.role = .ok a ∧
    (resolveTrustedSignalValues c.binding c.trustedSignalValues a).payload.Keeps repairConfig ∧
    ∃ built, buildWorkflowSignalSubmit (resolveTrustedSignalValues c.binding c.trustedSignalValues a).payload.value = .ok built := by
  have hc : validateConfig repairConfig = .ok ⟨repairConfig.binary, repairConfig.stateDir, defaultTimeoutMs,
      ⟨repairConfig.eventId, ⟨repairConfig.workflowId, repairConfig.assignmentId, repairConfig.attemptId, .implementation,
        repairConfig.artifactRevision, ⟨.sha256, repairConfig.digestHex⟩⟩⟩,
      ⟨some (codes "artifact:1".toList), codes "BLOCKED".toList⟩⟩ := rfl
  have ha : decodeArgs repairArgs .implementation = .ok ⟨.repairSubmitted, some (.integral 2)⟩ := rfl
  have h := tool_keeps_assignment repairConfig _ hc repairArgs _ ha
  refine ⟨_, _, hc, ha, h.1, h.2.2.1.mpr ⟨2, rfl, by decide, by decide⟩⟩

end Aizign
