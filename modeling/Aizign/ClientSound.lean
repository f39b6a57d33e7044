import Aizign.Client
import Aizign.FramingSound

/-!
# What the client can know

An exchange ends with a response exactly when nothing that settles it came before
the child closed with exit code 0, and the output is one frame that decodes. Each
known outcome of an operation is traced to such a frame, which names the request,
the operation and the event; every other run of events is unknown.
-/

namespace Aizign

open ErrorCodes

/-! ## The collector -/

theorem FrameCollector.append_refused {c : FrameCollector} {chunk : Bytes} (h : (c.append chunk).1 = false) :
    (c.append chunk).2.oversized = true := by
  unfold FrameCollector.append at h ⊢
  split
  · assumption
  · rename_i hover
    rw [if_neg hover] at h
    split
    · rename_i hseen
      rw [if_pos hseen] at h
      cases h
    · rename_i hseen
      rw [if_neg hseen] at h
      simp only at h ⊢
      split
      · rfl
      · rename_i hfit
        rw [if_neg hfit] at h
        split at h <;> cases h

theorem FrameCollector.append_oversized {c : FrameCollector} (h : c.oversized = true) (chunk : Bytes) :
    (c.append chunk).2.oversized = true := by
  unfold FrameCollector.append
  rw [if_pos h]
  exact h

theorem FrameCollector.collect_oversized {c : FrameCollector} (h : c.oversized = true) (chunks : List Bytes) :
    (c.collect chunks).oversized = true := by
  induction chunks generalizing c with
  | nil => exact h
  | cons chunk chunks ih => exact ih (append_oversized h chunk)

theorem FrameCollector.extract_oversized {c : FrameCollector} (h : c.oversized = true) (body : Bytes) :
    c.extract ≠ .frame body := by
  unfold FrameCollector.extract
  rw [if_pos h]
  intro hf
  cases hf

theorem FrameCollector.extract_frame_iff (chunks : List Bytes) (body : Bytes) :
    ((FrameCollector.new maxClientFrameBytes).collect chunks).extract = .frame body ↔ IsFrame chunks.flatten body := by
  have he := FrameCollector.extract_collect maxClientFrameBytes chunks
  by_cases hover : Oversized chunks.flatten
  · rw [if_pos (show maxClientFrameBytes < _ from hover)] at he
    rw [he]
    constructor
    · intro hf
      cases hf
    · intro hf
      exact absurd hover (isFrame_iff.mp hf).1
  · rw [if_neg (show ¬maxClientFrameBytes < _ from hover)] at he
    rw [he]
    exact extractFrame_frame hover

/-! ## The exchange -/

/-- The events that settle an exchange, whatever was read. -/
def ChildEvent.Settles : ChildEvent → Prop
  | .error _ | .timer | .abort | .close _ _ => True
  | _ => False

def ChildEvent.chunk? : ChildEvent → Option Bytes
  | .data chunk => some chunk
  | _ => none

def outputOf (events : List ChildEvent) : List Bytes := events.filterMap ChildEvent.chunk?

namespace ExchangeState

variable {timeoutMs : Nat} {axis : TsAxis} {s : ExchangeState}

theorem settle_of_none (h : s.settled = none) (x : Exchange) : (s.settle x).settled = some x := by
  unfold settle
  rw [h]
  rfl

theorem settle_of_some {y : Exchange} (h : s.settled = some y) (x : Exchange) : s.settle x = s := by
  unfold settle
  rw [h]
  rfl

theorem step_settled {x : Exchange} (h : s.settled = some x) (e : ChildEvent) :
    (s.step timeoutMs axis e).settled = some x := by
  cases e with
  | data chunk =>
    simp only [step, onData]
    split
    · exact h
    · have hk : (kill ⟨(s.stdout.append chunk).2, s.settled, s.killed⟩).settled = some x := h
      rw [settle_of_some hk]
      exact hk
  | error message => rw [step, settle_of_some h, h]
  | stderr chunk => exact h
  | stdinError message => exact h
  | exit => exact h
  | timer => rw [step, onTimer, h]; exact h
  | abort => rw [step, onAbort, h]; exact h
  | close code signal => rw [step, settle_of_some h, h]

theorem run_settled {x : Exchange} (h : s.settled = some x) (events : List ChildEvent) :
    (s.run timeoutMs axis events).settled = some x := by
  induction events generalizing s with
  | nil => exact h
  | cons e events ih => exact ih (step_settled h e)

theorem closed_response {extraction : FrameExtraction} {code : Option Nat} {signal : Option Units} {r : TsResponse} :
    closed axis extraction code signal = .response r ↔
      ∃ body, extraction = .frame body ∧ code = some 0 ∧ signal = none ∧
        tsDecodeResponse body (clientContext axis) = .ok r := by
  constructor
  · intro h
    unfold closed at h
    cases extraction with
    | frame body =>
      simp only at h
      split at h
      · rename_i code
        by_cases hc : code ≠ 0
        · rw [if_pos hc] at h
          cases h
        · rw [if_neg hc] at h
          split at h
          · rename_i response hd
            cases h
            exact ⟨body, rfl, by rw [not_not.mp hc], rfl, hd⟩
          · cases h
      · cases h
    | empty => cases h
    | extra detail => cases h
    | oversized detail => cases h
  · rintro ⟨body, rfl, rfl, rfl, hd⟩
    simp [closed, hd]

/-- The events are those of a child that exits with 0, none that settles anything comes before, and the output is the
frame of the response. -/
def Receives (axis : TsAxis) (c : FrameCollector) (events : List ChildEvent) (r : TsResponse) : Prop :=
  ∃ before after body, events = before ++ .close (some 0) none :: after ∧ (∀ e ∈ before, ¬e.Settles) ∧
    (c.collect (outputOf before)).extract = .frame body ∧ tsDecodeResponse body (clientContext axis) = .ok r

theorem receives_settles {e : ChildEvent} (he : e.Settles) {c : FrameCollector} {events : List ChildEvent}
    {r : TsResponse} : Receives axis c (e :: events) r ↔
      ∃ body, e = .close (some 0) none ∧ c.extract = .frame body ∧ tsDecodeResponse body (clientContext axis) = .ok r := by
  constructor
  · rintro ⟨before, after, body, hevents, hquiet, hx, hd⟩
    cases before with
    | nil =>
      cases hevents
      exact ⟨body, rfl, hx, hd⟩
    | cons b before =>
      cases hevents
      exact absurd he (hquiet e List.mem_cons_self)
  · rintro ⟨body, rfl, hx, hd⟩
    exact ⟨[], events, body, rfl, (fun _ h => by cases h), hx, hd⟩

/-- An event that settles nothing only adds to the output. -/
theorem receives_quiet {e : ChildEvent} (he : ¬e.Settles) {c : FrameCollector} {events : List ChildEvent}
    {r : TsResponse} : Receives axis c (e :: events) r ↔ Receives axis (c.collect (outputOf [e])) events r := by
  have hcollect : ∀ rest, c.collect (outputOf (e :: rest)) = (c.collect (outputOf [e])).collect (outputOf rest) := by
    intro rest
    rw [← List.singleton_append, outputOf, List.filterMap_append]
    exact List.foldl_append
  constructor
  · rintro ⟨before, after, body, hevents, hquiet, hx, hd⟩
    cases before with
    | nil =>
      cases hevents
      exact absurd trivial he
    | cons b rest =>
      cases hevents
      rw [hcollect] at hx
      exact ⟨rest, after, body, rfl, fun x hx => hquiet x (List.mem_cons_of_mem _ hx), hx, hd⟩
  · rintro ⟨rest, after, body, rfl, hquiet, hx, hd⟩
    refine ⟨e :: rest, after, body, rfl, fun x hmem => ?_, ?_, hd⟩
    · rcases List.mem_cons.mp hmem with rfl | hmem
      · exact he
      · exact hquiet x hmem
    · rw [hcollect]
      exact hx

/-- An event that settles an exchange decides whether there is a response. -/
theorem run_settles {e : ChildEvent} {x : Exchange} (h : (s.step timeoutMs axis e).settled = some x)
    (events : List ChildEvent) (r : TsResponse) :
    (s.run timeoutMs axis (e :: events)).settled = some (.response r) ↔ x = .response r := by
  show ((s.step timeoutMs axis e).run timeoutMs axis events).settled = _ ↔ _
  rw [run_settled h, Option.some_inj]

/-- An event that settles brings something unknown, but for the close of the child. -/
theorem step_settles {e : ChildEvent} (he : e.Settles) (hs : s.settled = none) :
    (∃ o, (s.step timeoutMs axis e).settled = some (.unknown o) ∧ ∀ code signal, e ≠ .close code signal) ∨
      ∃ code signal, e = .close code signal ∧
        (s.step timeoutMs axis e).settled = some (closed axis s.stdout.extract code signal) := by
  cases e with
  | data chunk => exact absurd he id
  | stderr chunk => exact absurd he id
  | stdinError message => exact absurd he id
  | exit => exact absurd he id
  | error message => exact .inl ⟨_, settle_of_none hs _, fun _ _ h => by cases h⟩
  | timer =>
    rw [step, onTimer, hs]
    exact .inl ⟨_, settle_of_none (s := s.kill) hs _, fun _ _ h => by cases h⟩
  | abort =>
    rw [step, onAbort, hs]
    exact .inl ⟨_, settle_of_none (s := s.kill) hs _, fun _ _ h => by cases h⟩
  | close code signal => exact .inr ⟨code, signal, rfl, settle_of_none hs _⟩

/-- The events before a response: none that settles, then the close of a child that exited with 0. -/
theorem run_response_iff (hs : s.settled = none) (events : List ChildEvent) (r : TsResponse) :
    (s.run timeoutMs axis events).settled = some (.response r) ↔ Receives axis s.stdout events r := by
  induction events generalizing s with
  | nil =>
    constructor
    · intro h
      rw [run, List.foldl_nil, hs] at h
      cases h
    · rintro ⟨before, after, body, he, -⟩
      cases before <;> cases he
  | cons e events ih =>
    by_cases he : e.Settles
    · rw [receives_settles he]
      rcases step_settles he hs with ⟨o, ho, hclose⟩ | ⟨code, signal, rfl, hx⟩
      · rw [run_settles ho]
        constructor
        · intro h
          cases h
        · rintro ⟨body, rfl, -⟩
          exact absurd rfl (hclose _ _)
      · rw [run_settles hx, closed_response]
        constructor
        · rintro ⟨body, hf, rfl, rfl, hd⟩
          exact ⟨body, rfl, hf, hd⟩
        · rintro ⟨body, hc, hf, hd⟩
          cases hc
          exact ⟨body, hf, rfl, rfl, hd⟩
    · rw [receives_quiet he]
      cases e with
      | data chunk =>
        show _ ↔ Receives axis (s.stdout.append chunk).2 events r
        by_cases hkept : (s.stdout.append chunk).1 = true
        · have hstep : s.step timeoutMs axis (.data chunk) = { s with stdout := (s.stdout.append chunk).2 } := by
            simp only [step, onData]
            rw [if_pos hkept]
          show ((s.step timeoutMs axis (.data chunk)).run timeoutMs axis events).settled = _ ↔ _
          rw [hstep]
          exact ih (s := { s with stdout := (s.stdout.append chunk).2 }) hs
        · have hover := FrameCollector.append_refused (Bool.not_eq_true _ ▸ hkept)
          have hstep : ∃ o, (s.step timeoutMs axis (.data chunk)).settled = some (.unknown o) := by
            simp only [step, onData]
            rw [if_neg hkept]
            exact ⟨_, settle_of_none (s := kill ⟨(s.stdout.append chunk).2, s.settled, s.killed⟩) hs _⟩
          obtain ⟨o, ho⟩ := hstep
          rw [run_settles ho]
          constructor
          · intro h
            cases h
          · rintro ⟨rest, after, body, -, -, hx, -⟩
            exact absurd hx (FrameCollector.extract_oversized (FrameCollector.collect_oversized hover _) body)
      | stderr chunk => exact ih hs
      | stdinError message => exact ih hs
      | exit => exact ih hs
      | error message => exact absurd trivial he
      | timer => exact absurd trivial he
      | abort => exact absurd trivial he
      | close code signal => exact absurd trivial he

end ExchangeState

/-- The output of a child that exited with 0 is one frame, and `r` is what it decodes to. -/
def Received (axis : TsAxis) (launch : Launch) (r : TsResponse) : Prop :=
  ∃ (before after : List ChildEvent) (body : Bytes),
    launch = .spawned (before ++ .close (some 0) none :: after) ∧ (∀ e ∈ before, ¬e.Settles) ∧
    IsFrame (outputOf before).flatten body ∧ tsDecodeResponse body (ExchangeState.clientContext axis) = .ok r

section
variable {timeoutMs : Nat} {axis : TsAxis} {launch : Launch} {r : TsResponse}

theorem exchange_response_iff : exchange timeoutMs axis launch = some (.response r) ↔ Received axis launch r := by
  cases launch with
  | abortedBefore =>
    constructor
    · intro h
      cases h
    · rintro ⟨chunks, after, body, he, -⟩
      cases he
  | spawnThrew error =>
    constructor
    · intro h
      cases h
    · rintro ⟨chunks, after, body, he, -⟩
      cases he
  | spawned events =>
    show (ExchangeState.spawned.run timeoutMs axis events).settled = _ ↔ _
    unfold Received
    rw [ExchangeState.run_response_iff rfl]
    constructor
    · rintro ⟨before, after, body, rfl, hquiet, hx, hd⟩
      exact ⟨before, after, body, rfl, hquiet, (FrameCollector.extract_frame_iff _ body).mp hx, hd⟩
    · rintro ⟨before, after, body, he, hquiet, hx, hd⟩
      cases he
      exact ⟨before, after, body, rfl, hquiet, (FrameCollector.extract_frame_iff _ body).mpr hx, hd⟩

theorem exchange_settled_once {events : List ChildEvent} {x : Exchange}
    (h : exchange timeoutMs axis (.spawned events) = some x) (more : List ChildEvent) :
    exchange timeoutMs axis (.spawned (events ++ more)) = some x := by
  show (ExchangeState.spawned.run timeoutMs axis (events ++ more)).settled = some x
  unfold ExchangeState.run
  rw [List.foldl_append]
  exact ExchangeState.run_settled h more

/-- After the close of the child, an error, the timer or an abort, an exchange is settled. -/
theorem exchange_settles {events : List ChildEvent} (h : ∃ e ∈ events, e.Settles) :
    (exchange timeoutMs axis (.spawned events)).isSome = true := by
  obtain ⟨e, he, hsettles⟩ := h
  obtain ⟨before, after, rfl⟩ := List.append_of_mem he
  show (ExchangeState.spawned.run timeoutMs axis (before ++ e :: after)).settled.isSome = true
  unfold ExchangeState.run
  rw [List.foldl_append, List.foldl_cons]
  generalize List.foldl _ ExchangeState.spawned before = s
  have hstep : ∃ x, (s.step timeoutMs axis e).settled = some x := by
    cases hset : s.settled with
    | some x => exact ⟨x, ExchangeState.step_settled hset e⟩
    | none =>
      rcases ExchangeState.step_settles hsettles hset with ⟨o, ho, -⟩ | ⟨code, signal, -, hx⟩
      · exact ⟨_, ho⟩
      · exact ⟨_, hx⟩
  obtain ⟨x, hx⟩ := hstep
  have hrun : ((s.step timeoutMs axis e).run timeoutMs axis after).settled = some x := ExchangeState.run_settled hx after
  rw [ExchangeState.run] at hrun
  rw [hrun]
  rfl

end

/-! ## Classification -/

section
variable {requestId kind eventId : Units} {r : TsResponse}

theorem checkCorrelation_none : checkCorrelation ⟨requestId, kind, some eventId⟩ r = none ↔
    r.requestId = some requestId ∧ r.kind = some kind ∧ ∀ actual, r.body.eventId? = some actual → actual = eventId := by
  unfold checkCorrelation
  by_cases hid : r.requestId = some requestId
  · by_cases hk : r.kind = some kind
    · cases hb : r.body.eventId? with
      | none => simp [hid, hk]
      | some actual => simp [hid, hk]
    · simp [hid, hk]
  · simp [hid]

theorem responseVersionMismatch_none : responseVersionMismatch r operationVersion true = none ↔
    r.version = operationVersion ∨ r.body.errorCode? = some (codes protocolVersionUnsupported.value) ∧
      r.version = ⟨.bootstrap, bootstrapEnvelopeVersion.toNat⟩ := by
  unfold responseVersionMismatch
  by_cases hv : r.version = operationVersion
  · simp [hv]
  · by_cases hc : r.body.errorCode? = some (codes protocolVersionUnsupported.value) ∧
        r.version = ⟨.bootstrap, bootstrapEnvelopeVersion.toNat⟩
    · simp [hc]
    · rw [if_neg hv, if_neg (by simpa using hc)]
      simp [hv, hc]

/-- A code that says that nothing was done. -/
def Rejects (code : Units) : Prop := code ∈ fixedErrorCodes.map codes ∧ code ∉ unknownOutcomeCodes.map codes

theorem classify_rejected {code : Units} :
    classifyCorrelatedOutcome .submit none (some code) = .rejected ↔ Rejects code := by
  unfold classifyCorrelatedOutcome Rejects
  by_cases h : code ∉ fixedErrorCodes.map codes ∨ code ∈ unknownOutcomeCodes.map codes
  · simp only [if_pos h]
    constructor
    · intro hc
      cases hc
    · rintro ⟨hf, hu⟩
      rcases h with h | h
      · exact absurd hf h
      · exact absurd h hu
  · simp only [if_neg h]
    rw [not_or, not_not] at h
    simp [h.1, h.2]

def submitAnswer (requestId eventId : Units) (disposition : Disposition) : TsResponse :=
  ⟨operationVersion, some requestId, some (codes kindWorkflowSignalSubmit), .workflowSignal ⟨disposition, eventId⟩⟩

def reconcileAnswer (requestId eventId : Units) (disposition : ReconciliationDisposition) : TsResponse :=
  ⟨operationVersion, some requestId, some (codes kindWorkflowSignalReconcile),
    .workflowSignalReconciliation ⟨disposition, eventId⟩⟩

structure RejectsSubmit (requestId code message : Units) (r : TsResponse) : Prop where
  requestId : r.requestId = some requestId
  kind : r.kind = some (codes kindWorkflowSignalSubmit)
  body : r.body = .error code message
  rejects : Rejects code
  version : r.version = operationVersion ∨
    code = codes protocolVersionUnsupported.value ∧ r.version = ⟨.bootstrap, bootstrapEnvelopeVersion.toNat⟩

theorem submitOutcome_settled {x : Exchange} {d : Disposition} {e : Units} :
    submitOutcome requestId eventId x = .settled d e ↔ e = eventId ∧ x = .response (submitAnswer requestId eventId d) := by
  constructor
  · intro h
    unfold submitOutcome at h
    cases x with
    | unknown o => cases h
    | response r =>
      simp only at h
      split at h
      · cases h
      · rename_i hc
        obtain ⟨hid, hk, he⟩ := checkCorrelation_none.mp hc
        split at h
        · cases h
        · rename_i hv
          obtain ⟨version, rid, rkind, body⟩ := r
          simp only at hid hk
          subst hid hk
          cases body with
          | workflowSignal result =>
            obtain ⟨disposition, actual⟩ := result
            cases h
            have hactual : actual = eventId := he actual rfl
            have hversion : version = operationVersion := by
              rcases responseVersionMismatch_none.mp hv with hv | ⟨hv, -⟩
              · exact hv
              · cases hv
            rw [hactual, hversion]
            exact ⟨rfl, rfl⟩
          | error code message =>
            simp only at h
            split at h <;> cases h
          | hello info => cases h
          | workflowSignalReconciliation result => cases h
  · rintro ⟨rfl, rfl⟩
    have hc : checkCorrelation ⟨requestId, codes kindWorkflowSignalSubmit, some e⟩ (submitAnswer requestId e d) = none :=
      checkCorrelation_none.mpr ⟨rfl, rfl, fun _ h => (Option.some.inj h).symm⟩
    have hv : responseVersionMismatch (submitAnswer requestId e d) operationVersion true = none :=
      responseVersionMismatch_none.mpr (.inl rfl)
    simp only [submitOutcome, hc, hv]
    rfl

theorem submitOutcome_rejected {x : Exchange} {code message : Units} :
    submitOutcome requestId eventId x = .rejected code message ↔
      ∃ r, x = .response r ∧ RejectsSubmit requestId code message r := by
  constructor
  · intro h
    unfold submitOutcome at h
    cases x with
    | unknown o => cases h
    | response r =>
      simp only at h
      split at h
      · cases h
      · rename_i hc
        obtain ⟨hid, hk, -⟩ := checkCorrelation_none.mp hc
        split at h
        · cases h
        · rename_i hv
          refine ⟨r, rfl, ?_⟩
          cases hb : r.body with
          | error code' message' =>
            rw [hb] at h
            simp only at h
            split at h
            · rename_i hclass
              cases h
              have hcode : r.body.errorCode? = some code := by rw [hb]; rfl
              refine ⟨hid, hk, hb, classify_rejected.mp hclass, ?_⟩
              have hversion := responseVersionMismatch_none.mp hv
              rw [hcode, Option.some_inj] at hversion
              exact hversion
            · cases h
          | hello info => rw [hb] at h; cases h
          | workflowSignal result => rw [hb] at h; cases h
          | workflowSignalReconciliation result => rw [hb] at h; cases h
  · rintro ⟨r, rfl, h⟩
    have hc : checkCorrelation ⟨requestId, codes kindWorkflowSignalSubmit, some eventId⟩ r = none :=
      checkCorrelation_none.mpr ⟨h.requestId, h.kind, fun _ he => by rw [h.body] at he; cases he⟩
    have hv : responseVersionMismatch r operationVersion true = none := by
      apply responseVersionMismatch_none.mpr
      have hcode : r.body.errorCode? = some code := by rw [h.body]; rfl
      rw [hcode, Option.some_inj]
      exact h.version
    simp only [submitOutcome, hc, hv, h.body]
    rw [if_pos (classify_rejected.mpr h.rejects)]

theorem reconcileOutcome_settled {x : Exchange} {d : ReconciliationDisposition} {e : Units} :
    reconcileOutcome requestId eventId x = .settled d e ↔
      e = eventId ∧ x = .response (reconcileAnswer requestId eventId d) := by
  constructor
  · intro h
    unfold reconcileOutcome at h
    cases x with
    | unknown o => cases h
    | response r =>
      simp only at h
      split at h
      · cases h
      · rename_i hc
        obtain ⟨hid, hk, he⟩ := checkCorrelation_none.mp hc
        split at h
        · cases h
        · rename_i hv
          obtain ⟨version, rid, rkind, body⟩ := r
          simp only at hid hk
          subst hid hk
          cases body with
          | workflowSignalReconciliation result =>
            obtain ⟨disposition, actual⟩ := result
            cases h
            have hactual : actual = eventId := he actual rfl
            have hversion : version = operationVersion := by
              rcases responseVersionMismatch_none.mp hv with hv | ⟨hv, -⟩
              · exact hv
              · cases hv
            rw [hactual, hversion]
            exact ⟨rfl, rfl⟩
          | error code message => cases h
          | hello info => cases h
          | workflowSignal result => cases h
  · rintro ⟨rfl, rfl⟩
    have hc : checkCorrelation ⟨requestId, codes kindWorkflowSignalReconcile, some e⟩ (reconcileAnswer requestId e d) =
        none := checkCorrelation_none.mpr ⟨rfl, rfl, fun _ h => (Option.some.inj h).symm⟩
    have hv : responseVersionMismatch (reconcileAnswer requestId e d) operationVersion true = none :=
      responseVersionMismatch_none.mpr (.inl rfl)
    simp only [reconcileOutcome, hc, hv]
    rfl

end

/-- What a client knows, for every order of events: a submission is accepted or a duplicate, is rejected, and a
reconciliation is settled exactly when the one frame of a child that exited with 0 says so of this very request; the
first settlement stands whatever comes after, and the close of the child, an error of it, the timer and an abort bring
one. -/
theorem client_outcomes_exact (timeoutMs : Nat) (requestId eventId : Units) (launch : Launch) :
    (∀ d e, (exchange timeoutMs .acceptedOperation launch).map (submitOutcome requestId eventId) = some (.settled d e) ↔
      e = eventId ∧ Received .acceptedOperation launch (submitAnswer requestId eventId d)) ∧
    (∀ code message, (exchange timeoutMs .acceptedOperation launch).map (submitOutcome requestId eventId) =
        some (.rejected code message) ↔
      ∃ r, Received .acceptedOperation launch r ∧ RejectsSubmit requestId code message r) ∧
    (∀ d e, (exchange timeoutMs .acceptedOperation launch).map (reconcileOutcome requestId eventId) =
        some (.settled d e) ↔
      e = eventId ∧ Received .acceptedOperation launch (reconcileAnswer requestId eventId d)) ∧
    ∀ axis events, ((∃ e ∈ events, e.Settles) →
        (exchange timeoutMs axis (.spawned events)).isSome = true) ∧
      ∀ x, exchange timeoutMs axis (.spawned events) = some x →
        ∀ more, exchange timeoutMs axis (.spawned (events ++ more)) = some x := by
  refine ⟨fun d e => ?_, fun code message => ?_, fun d e => ?_, fun axis events => ⟨exchange_settles, fun x h more =>
    exchange_settled_once h more⟩⟩
  · rw [Option.map_eq_some_iff]
    constructor
    · rintro ⟨x, hx, ho⟩
      obtain ⟨he, rfl⟩ := submitOutcome_settled.mp ho
      exact ⟨he, exchange_response_iff.mp hx⟩
    · rintro ⟨he, hr⟩
      exact ⟨_, exchange_response_iff.mpr hr, submitOutcome_settled.mpr ⟨he, rfl⟩⟩
  · rw [Option.map_eq_some_iff]
    constructor
    · rintro ⟨x, hx, ho⟩
      obtain ⟨r, rfl, hr⟩ := submitOutcome_rejected.mp ho
      exact ⟨r, exchange_response_iff.mp hx, hr⟩
    · rintro ⟨r, hx, hr⟩
      exact ⟨_, exchange_response_iff.mpr hx, submitOutcome_rejected.mpr ⟨r, rfl, hr⟩⟩
  · rw [Option.map_eq_some_iff]
    constructor
    · rintro ⟨x, hx, ho⟩
      obtain ⟨he, rfl⟩ := reconcileOutcome_settled.mp ho
      exact ⟨he, exchange_response_iff.mp hx⟩
    · rintro ⟨he, hr⟩
      exact ⟨_, exchange_response_iff.mpr hr, reconcileOutcome_settled.mpr ⟨he, rfl⟩⟩

end Aizign
