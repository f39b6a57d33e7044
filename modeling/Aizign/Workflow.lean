import Aizign.Identity

/-!
# Workflow signals, decisions and replay

The core: validated signals, the state rebuilt from accepted events, the
decision on a submitted signal and the classification of a queried one.
-/

namespace Aizign

inductive Role
  | implementation
  | review
  deriving DecidableEq

inductive SignalKind
  | implementationReady
  | reviewFindings
  | reviewPassed
  | repairSubmitted
  | blocked
  deriving DecidableEq

def SignalKind.requiredRole : SignalKind → Option Role
  | .implementationReady | .repairSubmitted => some .implementation
  | .reviewFindings | .reviewPassed => some .review
  | .blocked => none

structure ExpectedAssignment where
  workflowId : WorkflowId
  assignmentId : AssignmentId
  attemptId : AttemptId
  role : Role
  artifactRevision : ArtifactRevision
  candidateDigest : Digest
  deriving DecidableEq

structure SignalParts where
  eventId : EventId
  workflowId : WorkflowId
  assignmentId : AssignmentId
  attemptId : AttemptId
  role : Role
  artifactRevision : ArtifactRevision
  candidateDigest : Digest
  kind : SignalKind
  findingCount : Option UInt32
  artifactRef : Option ArtifactRef
  shortErrorCode : Option ShortErrorCode
  deriving DecidableEq

/-! ## Rejections -/

inductive InvalidSignal
  | kindRequiresRole (kind : SignalKind) (role : Role)
  | findingCountRequired (kind : SignalKind)
  | findingCountForbidden (kind : SignalKind)
  | findingCountMustBePositive (kind : SignalKind)
  | findingCountMustBeZero
  | artifactRefRequired (kind : SignalKind)
  | artifactRefForbidden (kind : SignalKind)
  | shortErrorCodeRequired
  | shortErrorCodeForbidden (kind : SignalKind)
  deriving DecidableEq

inductive WorkflowError
  | invalidSignal (reason : InvalidSignal)
  | workflowMismatch (expected actual : WorkflowId)
  | assignmentMismatch (expected actual : AssignmentId)
  | attemptMismatch (expected actual : AttemptId)
  | roleMismatch (expected actual : Role)
  | revisionMismatch (expected actual : ArtifactRevision)
  | candidateDigestMismatch (expected actual : Digest)
  | eventConflict (eventId : EventId)
  deriving DecidableEq

def Role.debug : Role → Text
  | .implementation => "Implementation".toList
  | .review => "Review".toList

def SignalKind.debug : SignalKind → Text
  | .implementationReady => "ImplementationReady".toList
  | .reviewFindings => "ReviewFindings".toList
  | .reviewPassed => "ReviewPassed".toList
  | .repairSubmitted => "RepairSubmitted".toList
  | .blocked => "Blocked".toList

def InvalidSignal.text : InvalidSignal → Text
  | .kindRequiresRole k r => k.debug ++ " requires the ".toList ++ r.debug ++ " role".toList
  | .findingCountRequired k => k.debug ++ " requires finding_count".toList
  | .findingCountForbidden k => k.debug ++ " does not carry finding_count".toList
  | .findingCountMustBePositive k => k.debug ++ " requires finding_count greater than zero".toList
  | .findingCountMustBeZero => "ReviewPassed requires finding_count zero".toList
  | .artifactRefRequired k => k.debug ++ " requires artifact_ref".toList
  | .artifactRefForbidden k => k.debug ++ " does not carry artifact_ref".toList
  | .shortErrorCodeRequired => "Blocked requires short_error_code".toList
  | .shortErrorCodeForbidden k => k.debug ++ " does not carry short_error_code".toList

def WorkflowError.code : WorkflowError → Text
  | .invalidSignal _ => "INVALID_SIGNAL".toList
  | .workflowMismatch .. => "WORKFLOW_MISMATCH".toList
  | .assignmentMismatch .. => "ASSIGNMENT_MISMATCH".toList
  | .attemptMismatch .. => "ATTEMPT_MISMATCH".toList
  | .roleMismatch .. => "ROLE_MISMATCH".toList
  | .revisionMismatch .. => "REVISION_MISMATCH".toList
  | .candidateDigestMismatch .. => "CANDIDATE_DIGEST_MISMATCH".toList
  | .eventConflict _ => "EVENT_CONFLICT".toList

def mismatchText (what expected actual : Text) : Text :=
  what ++ " mismatch: expected ".toList ++ expected ++ ", got ".toList ++ actual

def WorkflowError.text : WorkflowError → Text
  | .invalidSignal r => "invalid signal: ".toList ++ r.text
  | .workflowMismatch e a => mismatchText "workflow".toList e.value a.value
  | .assignmentMismatch e a => mismatchText "assignment".toList e.value a.value
  | .attemptMismatch e a => mismatchText "attempt".toList e.value a.value
  | .roleMismatch e a => mismatchText "role".toList e.debug a.debug
  | .revisionMismatch e a => mismatchText "revision".toList e.value a.value
  | .candidateDigestMismatch e a => mismatchText "candidate digest".toList e.text a.text
  | .eventConflict i => "event ".toList ++ i.value ++ " was already accepted with different content".toList

/-! ## Signals -/

def checkRole (kind : SignalKind) (role : Role) : Except InvalidSignal Unit :=
  match kind.requiredRole with
  | some r => if r ≠ role then .error (.kindRequiresRole kind r) else .ok ()
  | none => .ok ()

def checkFindingCount : SignalKind → Option UInt32 → Except InvalidSignal Unit
  | .reviewFindings, some n => if n = 0 then .error (.findingCountMustBePositive .reviewFindings) else .ok ()
  | .repairSubmitted, some n => if n = 0 then .error (.findingCountMustBePositive .repairSubmitted) else .ok ()
  | .reviewPassed, some n => if n = 0 then .ok () else .error .findingCountMustBeZero
  | .reviewFindings, none => .error (.findingCountRequired .reviewFindings)
  | .reviewPassed, none => .error (.findingCountRequired .reviewPassed)
  | .repairSubmitted, none => .error (.findingCountRequired .repairSubmitted)
  | .implementationReady, some _ => .error (.findingCountForbidden .implementationReady)
  | .blocked, some _ => .error (.findingCountForbidden .blocked)
  | _, none => .ok ()

def checkArtifactRef : SignalKind → Bool → Except InvalidSignal Unit
  | .repairSubmitted, false => .error (.artifactRefRequired .repairSubmitted)
  | .implementationReady, true => .error (.artifactRefForbidden .implementationReady)
  | .reviewPassed, true => .error (.artifactRefForbidden .reviewPassed)
  | .blocked, true => .error (.artifactRefForbidden .blocked)
  | _, _ => .ok ()

def checkShortErrorCode (kind : SignalKind) (present : Bool) : Except InvalidSignal Unit :=
  if kind = .blocked then (if present then .ok () else .error .shortErrorCodeRequired)
  else if present then .error (.shortErrorCodeForbidden kind) else .ok ()

/-- The kind-specific rules, in the order `WorkflowSignal::validate` checks them. -/
def signalRules (p : SignalParts) : Except InvalidSignal Unit := do
  checkRole p.kind p.role
  checkFindingCount p.kind p.findingCount
  checkArtifactRef p.kind p.artifactRef.isSome
  checkShortErrorCode p.kind p.shortErrorCode.isSome

structure WorkflowSignal where
  parts : SignalParts
  ok : signalRules parts = .ok ()
  deriving DecidableEq

def WorkflowSignal.validate (parts : SignalParts) : Except WorkflowError WorkflowSignal :=
  match h : signalRules parts with
  | .ok () => .ok ⟨parts, h⟩
  | .error e => .error (.invalidSignal e)

def WorkflowSignal.eventId (s : WorkflowSignal) : EventId := s.parts.eventId

def WorkflowSignal.checkExpected (s : WorkflowSignal) (e : ExpectedAssignment) : Except WorkflowError Unit := do
  if s.parts.workflowId ≠ e.workflowId then throw (.workflowMismatch e.workflowId s.parts.workflowId)
  if s.parts.assignmentId ≠ e.assignmentId then throw (.assignmentMismatch e.assignmentId s.parts.assignmentId)
  if s.parts.attemptId ≠ e.attemptId then throw (.attemptMismatch e.attemptId s.parts.attemptId)
  if s.parts.role ≠ e.role then throw (.roleMismatch e.role s.parts.role)
  if s.parts.artifactRevision ≠ e.artifactRevision then
    throw (.revisionMismatch e.artifactRevision s.parts.artifactRevision)
  if s.parts.candidateDigest ≠ e.candidateDigest then
    throw (.candidateDigestMismatch e.candidateDigest s.parts.candidateDigest)

/-! ## State -/

inductive WorkflowEvent
  | signalAccepted (signal : WorkflowSignal)
  deriving DecidableEq

def WorkflowEvent.signal : WorkflowEvent → WorkflowSignal
  | .signalAccepted s => s

def WorkflowEvent.eventId (e : WorkflowEvent) : EventId := e.signal.eventId

inductive ApplyError
  | duplicateEvent (eventId : EventId)
  deriving DecidableEq

def ApplyError.text : ApplyError → Text
  | .duplicateEvent i => "event ".toList ++ i.value ++ " appears more than once".toList

/-- Accepted signals by event id, in the order of the ids. -/
structure WorkflowState where
  entries : List (EventId × WorkflowSignal)
  deriving DecidableEq

def WorkflowState.new : WorkflowState := ⟨[]⟩

def WorkflowState.accepted (s : WorkflowState) (i : EventId) : Option WorkflowSignal :=
  (s.entries.find? fun e => e.1 = i).map Prod.snd

def insertEntry (i : EventId) (s : WorkflowSignal) : List (EventId × WorkflowSignal) → List (EventId × WorkflowSignal)
  | [] => [(i, s)]
  | e :: es =>
    match compare i e.1 with
    | .lt => (i, s) :: e :: es
    | .eq => (i, s) :: es
    | .gt => e :: insertEntry i s es

def WorkflowState.apply (s : WorkflowState) : WorkflowEvent → Except ApplyError WorkflowState
  | .signalAccepted signal =>
    if (s.accepted signal.eventId).isSome then .error (.duplicateEvent signal.eventId)
    else .ok ⟨insertEntry signal.eventId signal s.entries⟩

def WorkflowState.replay (events : List WorkflowEvent) : Except ApplyError WorkflowState :=
  events.foldlM WorkflowState.apply WorkflowState.new

/-! ## Decisions -/

inductive Command
  | submitSignal (signal : WorkflowSignal) (expected : ExpectedAssignment)
  deriving DecidableEq

inductive Decision
  | accepted (event : WorkflowEvent)
  | duplicate (eventId : EventId)
  | rejected (error : WorkflowError)
  deriving DecidableEq

def decideCommand (state : WorkflowState) : Command → Decision
  | .submitSignal signal expected =>
    match signal.checkExpected expected with
    | .error e => .rejected e
    | .ok () =>
      match state.accepted signal.eventId with
      | some existing =>
        if existing = signal then .duplicate signal.eventId else .rejected (.eventConflict signal.eventId)
      | none => .accepted (.signalAccepted signal)

inductive SignalReconciliation
  | accepted
  | conflict
  | absent
  deriving DecidableEq

def reconcileWorkflowSignal (state : WorkflowState) (signal : WorkflowSignal) : SignalReconciliation :=
  match state.accepted signal.eventId with
  | some a => if a = signal then .accepted else .conflict
  | none => .absent

/-! ## Replay keeps exactly the events -/

theorem WorkflowSignal.validate_eq_ok {p : SignalParts} {s : WorkflowSignal} :
    WorkflowSignal.validate p = .ok s ↔ s.parts = p := by
  unfold WorkflowSignal.validate
  constructor
  · intro h
    split at h
    · simp only [Except.ok.injEq] at h; rw [← h]
    · cases h
  · intro h
    subst h
    split
    · rfl
    · rename_i e he; rw [s.ok] at he; cases he

theorem find_insertEntry (i j : EventId) (s : WorkflowSignal) (es : List (EventId × WorkflowSignal))
    (hi : (es.find? fun e => e.1 = i) = none) :
    ((insertEntry i s es).find? fun e => e.1 = j) =
      if i = j then some (i, s) else es.find? fun e => e.1 = j := by
  induction es with
  | nil => by_cases h : i = j <;> simp [insertEntry, h]
  | cons e es ih =>
    rw [List.find?_cons] at hi
    by_cases he : e.1 = i
    · simp [he] at hi
    · simp only [he, decide_false] at hi
      have ih := ih hi
      rw [insertEntry]
      cases hc : compare i e.1 with
      | lt =>
        simp only
        by_cases h : i = j <;> simp [h]
      | eq =>
        have : i.value = e.1.value := Std.LawfulEqOrd.eq_of_compare hc
        have : i = e.1 := by
          obtain ⟨v, hv⟩ := i
          obtain ⟨⟨w, hw⟩, x⟩ := e
          simp only at this
          subst this; rfl
        exact absurd this.symm he
      | gt =>
        simp only [List.find?_cons]
        by_cases hj : e.1 = j
        · have : i ≠ j := fun h => he (hj.trans h.symm)
          simp [hj, this]
        · simp [hj, ih]

theorem WorkflowState.accepted_apply {s s' : WorkflowState} {e : WorkflowEvent} (h : s.apply e = .ok s') (i : EventId) :
    s'.accepted i = if e.eventId = i then some e.signal else s.accepted i := by
  obtain ⟨signal⟩ := e
  simp only [WorkflowState.apply] at h
  split at h
  · cases h
  · rename_i hn
    simp only [Except.ok.injEq] at h
    subst h
    have hn' : (s.entries.find? fun e => e.1 = signal.eventId) = none := by
      rw [WorkflowState.accepted, Option.isSome_map] at hn
      cases hf : s.entries.find? fun e => e.1 = signal.eventId with
      | none => rfl
      | some x => rw [hf] at hn; exact absurd rfl hn
    simp only [WorkflowState.accepted, find_insertEntry _ _ _ _ hn']
    by_cases hi : signal.eventId = i
    · simp [hi, WorkflowEvent.eventId, WorkflowEvent.signal]
    · simp [hi, WorkflowEvent.eventId, WorkflowEvent.signal]

theorem WorkflowState.apply_ok_iff (s : WorkflowState) (e : WorkflowEvent) :
    (∃ s', s.apply e = .ok s') ↔ s.accepted e.eventId = none := by
  obtain ⟨signal⟩ := e
  simp only [WorkflowState.apply, WorkflowEvent.eventId, WorkflowEvent.signal]
  split
  · rename_i h
    constructor
    · rintro ⟨s', h'⟩; cases h'
    · intro h'; rw [h'] at h; cases h
  · rename_i h; simpa using h

/-- The state after a list of events: an id is accepted with the signal of the event that carries it. -/
structure Replayed (s : WorkflowState) (events : List WorkflowEvent) : Prop where
  nodup : (events.map WorkflowEvent.eventId).Nodup
  accepted : ∀ i signal, s.accepted i = some signal ↔ ∃ e ∈ events, e.eventId = i ∧ e.signal = signal

theorem replayed_new : Replayed WorkflowState.new [] where
  nodup := by simp
  accepted := by simp [WorkflowState.new, WorkflowState.accepted]

theorem Replayed.accepted_none {s : WorkflowState} {events : List WorkflowEvent} (h : Replayed s events) {i : EventId} :
    s.accepted i = none ↔ i ∉ events.map WorkflowEvent.eventId := by
  rw [← not_iff_not, not_not]
  constructor
  · intro hn
    obtain ⟨x, hx⟩ := Option.ne_none_iff_exists'.mp hn
    obtain ⟨e, he, hi, -⟩ := (h.accepted i x).mp hx
    exact List.mem_map.mpr ⟨e, he, hi⟩
  · intro hm hn
    obtain ⟨e, he, hi⟩ := List.mem_map.mp hm
    rw [(h.accepted i e.signal).mpr ⟨e, he, hi, rfl⟩] at hn
    cases hn

theorem Replayed.apply {s s' : WorkflowState} {events : List WorkflowEvent} (h : Replayed s events)
    {e : WorkflowEvent} (he : s.apply e = .ok s') : Replayed s' (events ++ [e]) := by
  have hnew : e.eventId ∉ events.map WorkflowEvent.eventId :=
    h.accepted_none.mp ((s.apply_ok_iff e).mp ⟨s', he⟩)
  constructor
  · rw [List.map_append]
    refine List.nodup_append.mpr ⟨h.nodup, by simp, ?_⟩
    intro i hi j hj hij
    simp only [List.map_cons, List.map_nil, List.mem_singleton] at hj
    exact hnew (hj ▸ hij ▸ hi)
  · intro i signal
    rw [WorkflowState.accepted_apply he i]
    by_cases hi : e.eventId = i
    · subst hi
      simp only [ite_true, Option.some.injEq, List.mem_append, List.mem_singleton]
      constructor
      · intro hs; exact ⟨e, Or.inr rfl, rfl, hs⟩
      · rintro ⟨x, hx | rfl, hxi, hxs⟩
        · exact absurd (List.mem_map.mpr ⟨x, hx, hxi⟩) hnew
        · exact hxs
    · simp only [hi, ite_false, h.accepted, List.mem_append, List.mem_singleton]
      constructor
      · rintro ⟨x, hx, hxi, hxs⟩; exact ⟨x, Or.inl hx, hxi, hxs⟩
      · rintro ⟨x, hx | rfl, hxi, hxs⟩
        · exact ⟨x, hx, hxi, hxs⟩
        · exact absurd hxi hi

theorem replayed_foldlM {s s' : WorkflowState} {before events : List WorkflowEvent} (h : Replayed s before)
    (hf : events.foldlM WorkflowState.apply s = .ok s') : Replayed s' (before ++ events) := by
  induction events generalizing s before with
  | nil =>
    simp only [List.foldlM_nil, pure, Except.pure, Except.ok.injEq] at hf
    subst hf; simpa using h
  | cons e events ih =>
    rw [List.foldlM_cons] at hf
    cases he : s.apply e with
    | error x => rw [he] at hf; cases hf
    | ok s₁ =>
      rw [he] at hf
      have := ih (h.apply he) hf
      simpa using this

/-- A state that `replay` returns is the one its events describe. -/
theorem replayed_of_replay {events : List WorkflowEvent} {s : WorkflowState}
    (h : WorkflowState.replay events = .ok s) : Replayed s events := by
  simpa using replayed_foldlM replayed_new h

theorem foldlM_ok_of_nodup {s : WorkflowState} {before events : List WorkflowEvent} (h : Replayed s before)
    (hn : ((before ++ events).map WorkflowEvent.eventId).Nodup) :
    ∃ s', events.foldlM WorkflowState.apply s = .ok s' := by
  induction events generalizing s before with
  | nil => exact ⟨s, rfl⟩
  | cons e events ih =>
    have he : e.eventId ∉ before.map WorkflowEvent.eventId := by
      intro hm
      rw [List.map_append, List.map_cons] at hn
      exact (List.nodup_append.mp hn).2.2 _ hm _ (List.mem_cons_self ..) rfl
    obtain ⟨s₁, h₁⟩ := (s.apply_ok_iff e).mpr (h.accepted_none.mpr he)
    rw [List.foldlM_cons, h₁]
    exact ih (h.apply h₁) (by simpa using hn)

/-- Replay succeeds exactly on events with distinct ids. -/
theorem replay_ok_iff {events : List WorkflowEvent} :
    (∃ s, WorkflowState.replay events = .ok s) ↔ (events.map WorkflowEvent.eventId).Nodup := by
  constructor
  · rintro ⟨s, hs⟩; exact (replayed_of_replay hs).nodup
  · intro hn; exact foldlM_ok_of_nodup replayed_new (by simpa using hn)

end Aizign
