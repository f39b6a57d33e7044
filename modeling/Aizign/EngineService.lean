import Aizign.EngineHandle
import Mathlib.Data.List.Nodup

/-!
# What the engine is for

A journal is a list that only grows, by one entry at a time. Over any journal
that keeps this contract, every answer of the engine is true of the entries at
that moment, an answer that is no answer leaves at most the one entry it was
asked for, and over a whole history, from whatever entries it starts, no signal
is stored twice: what was reported accepted is a part of the entries that were
added, and these are a part of what may have been accepted.
-/

namespace Aizign

/-! ## The contract of a journal -/

section
variable {σ : Type} (step : (o : EngineOp) → σ → o.Res → σ → Prop) (entries : σ → List JournalEntry)

def nextEntry (es : List JournalEntry) (event : WorkflowEvent) (time : BoundedTimestamp) : JournalEntry :=
  ⟨es.length + 1, time, event⟩

/-- What the engine relies on, of the entries that are published in a state. -/
structure JournalContract : Prop where
  load : ∀ {s es s'}, step .loadCommitted s (.ok es) s' → es = entries s
  load_keeps : ∀ {s r s'}, step .loadCommitted s r s' → entries s' = entries s
  now_keeps : ∀ {s r s'}, step .now s r s' → entries s' = entries s
  notify_keeps : ∀ {n s r s'}, step (.notify n) s r s' → entries s' = entries s
  append : ∀ {event time s entry s'}, step (.append event time) s (.ok entry) s' →
    entry = nextEntry (entries s) event time ∧ entries s' = entries s ++ [entry]
  append_known : ∀ {event time s e s'}, step (.append event time) s (.error e) s' → e.isOutcomeUnknown = false →
    entries s' = entries s
  append_unknown : ∀ {event time s e s'}, step (.append event time) s (.error e) s' →
    entries s' = entries s ∨ entries s' = entries s ++ [nextEntry (entries s) event time]

def appendStep (es : List JournalEntry) (event : WorkflowEvent) (time : BoundedTimestamp) :
    Except JournalError JournalEntry → List JournalEntry → Prop
  | .ok entry, es' => entry = nextEntry es event time ∧ es' = es ++ [entry]
  | .error e, es' => (e.isOutcomeUnknown = false → es' = es) ∧ (es' = es ∨ es' = es ++ [nextEntry es event time])

def contractStep : (o : EngineOp) → σ → o.Res → σ → Prop
  | .loadCommitted, s, r, s' => entries s' = entries s ∧ ∀ es, r = .ok es → es = entries s
  | .now, s, _, s' => entries s' = entries s
  | .notify _, s, _, s' => entries s' = entries s
  | .append event time, s, r, s' => appendStep (entries s) event time r (entries s')

theorem contractStep_contract : JournalContract (contractStep entries) entries where
  load h := h.2 _ rfl
  load_keeps h := h.1
  now_keeps h := h
  notify_keeps h := h
  append h := h
  append_known h := h.1
  append_unknown h := h.2

end

/-! ## Answers -/

inductive Query
  | submit (command : Command)
  | reconcile (signal : WorkflowSignal)

def Command.signal : Command → WorkflowSignal
  | .submitSignal signal _ => signal

/-- The first field in which the signal is not the one that the command expects. -/
def Command.mismatch : Command → Except WorkflowError Unit
  | .submitSignal signal expected => signal.checkExpected expected

inductive Answer
  | submitted (result : Except HandleError SignalOutcome)
  | reconciled (result : Except ReconcileError SignalReconciliation)
  /-- The process ended before it answered. -/
  | died

def eventsOf (es : List JournalEntry) : List WorkflowEvent := es.map JournalEntry.event

def Fresh (es : List JournalEntry) (signal : WorkflowSignal) : Prop := ∀ e ∈ es, e.event.eventId ≠ signal.eventId

def InConflict (es : List JournalEntry) (signal : WorkflowSignal) : Prop :=
  ∃ other, other ≠ signal ∧ other.eventId = signal.eventId ∧ .signalAccepted other ∈ eventsOf es

/-- One more entry, for a signal of the expected assignment that was not there. -/
def Stored (es : List JournalEntry) (command : Command) (entry : JournalEntry) (es' : List JournalEntry) : Prop :=
  command.mismatch = .ok () ∧ Fresh es command.signal ∧ entry.seq = es.length + 1 ∧
    entry.event = .signalAccepted command.signal ∧ es' = es ++ [entry]

def MaybeStored (es : List JournalEntry) (command : Command) (es' : List JournalEntry) : Prop :=
  es' = es ∨ ∃ entry, Stored es command entry es'

/-- A rejection names the first field that does not match, or the id under which another signal stands. -/
def Rejected (es : List JournalEntry) (command : Command) (e : WorkflowError) : Prop :=
  command.mismatch = .error e ∨
    command.mismatch = .ok () ∧ e = .eventConflict command.signal.eventId ∧ InConflict es command.signal

/-- A submission's answer against the entries before and after it. -/
def SubmitTruthful (es : List JournalEntry) (command : Command) (es' : List JournalEntry) :
    Except HandleError SignalOutcome → Prop
  | .ok (.accepted entry) => Stored es command entry es'
  | .ok (.duplicate eventId) => command.mismatch = .ok () ∧ eventId = command.signal.eventId ∧
      .signalAccepted command.signal ∈ eventsOf es ∧ es' = es
  | .error (.journal e) => MaybeStored es command es' ∧ (e.isOutcomeUnknown = false → es' = es)
  | .error (.replay e) => WorkflowState.replay (eventsOf es) = .error e ∧ es' = es
  | .error (.rejected e) => Rejected es command e ∧ es' = es
  | .error (.clock _) => command.mismatch = .ok () ∧ Fresh es command.signal ∧ es' = es

def ReconcileTruthful (es : List JournalEntry) (signal : WorkflowSignal) :
    Except ReconcileError SignalReconciliation → Prop
  | .ok .accepted => .signalAccepted signal ∈ eventsOf es
  | .ok .conflict => InConflict es signal
  | .ok .absent => Fresh es signal
  | .error (.replay e) => WorkflowState.replay (eventsOf es) = .error e
  | .error (.journal _) => True

def Truthful (es : List JournalEntry) (es' : List JournalEntry) : Query → Answer → Prop
  | .submit command, .submitted r => SubmitTruthful es command es' r
  | .submit command, .died => MaybeStored es command es'
  | .reconcile signal, .reconciled r => ReconcileTruthful es signal r ∧ es' = es
  | .reconcile _, .died => es' = es
  | _, _ => False

/-! ## One use case -/

section
variable {state : WorkflowState} {es : List JournalEntry}

theorem fresh_of_replay (h : WorkflowState.replay (eventsOf es) = .ok state) {signal : WorkflowSignal}
    (hn : state.accepted signal.eventId = none) : Fresh es signal := by
  intro e he hid
  have hmem := (replayed_of_replay h).accepted_none.mp hn
  exact hmem (List.mem_map.mpr ⟨e.event, List.mem_map.mpr ⟨e, he, rfl⟩, hid⟩)

theorem mem_of_replay (h : WorkflowState.replay (eventsOf es) = .ok state) {i : EventId} {signal : WorkflowSignal}
    (hs : state.accepted i = some signal) : signal.eventId = i ∧ .signalAccepted signal ∈ eventsOf es := by
  obtain ⟨e, he, hid, hsig⟩ := ((replayed_of_replay h).accepted i signal).mp hs
  cases e with
  | signalAccepted s =>
    cases hsig
    exact ⟨hid, he⟩

theorem reconcile_truthful (h : WorkflowState.replay (eventsOf es) = .ok state) (signal : WorkflowSignal) :
    ReconcileTruthful es signal (.ok (reconcileWorkflowSignal state signal)) := by
  unfold reconcileWorkflowSignal
  cases hs : state.accepted signal.eventId with
  | none => exact fresh_of_replay h hs
  | some other =>
    obtain ⟨hid, hmem⟩ := mem_of_replay h hs
    by_cases ho : other = signal
    · subst ho
      simpa [ReconcileTruthful] using hmem
    · simp only [ho, ite_false]
      exact ⟨other, ho, hid, hmem⟩

/-- A decision that appends nothing is true of the entries it was made on. -/
theorem decide_truthful (h : WorkflowState.replay (eventsOf es) = .ok state) (command : Command) :
    match decideCommand state command with
    | .accepted event => command.mismatch = .ok () ∧ event = .signalAccepted command.signal ∧ Fresh es command.signal
    | .duplicate eventId => SubmitTruthful es command es (.ok (.duplicate eventId))
    | .rejected error => SubmitTruthful es command es (.error (.rejected error)) := by
  obtain ⟨signal, expected⟩ := command
  cases hc : signal.checkExpected expected with
  | error e =>
    simp only [decideCommand, hc]
    exact ⟨.inl hc, rfl⟩
  | ok u =>
    rw [decide_matching state hc]
    have ht := reconcile_truthful h signal
    cases hr : reconcileWorkflowSignal state signal with
    | accepted => rw [hr] at ht; exact ⟨hc, rfl, ht, rfl⟩
    | conflict => rw [hr] at ht; exact ⟨.inr ⟨hc, rfl, ht⟩, rfl⟩
    | absent => rw [hr] at ht; exact ⟨hc, rfl, ht⟩

end

def submitLoaded (command : Command) : Except JournalError (List JournalEntry) →
    EngineProg (Except HandleError SignalOutcome)
  | .error e => pure (.error (.journal e))
  | .ok es =>
    match WorkflowState.replay (eventsOf es) with
    | .error e => pure (.error (.replay e))
    | .ok state =>
      match decideCommand state command with
      | .duplicate eventId => pure (.ok (.duplicate eventId))
      | .rejected error => pure (.error (.rejected error))
      | .accepted event => do
        match ← clockPort with
        | .error e => return .error (.clock e)
        | .ok time =>
          match ← appendPort event time with
          | .error e => return .error (.journal e)
          | .ok entry => return .ok (.accepted entry)

def reconcileLoaded (signal : WorkflowSignal) : Except JournalError (List JournalEntry) →
    Except ReconcileError SignalReconciliation
  | .error e => .error (.journal e)
  | .ok es =>
    match WorkflowState.replay (eventsOf es) with
    | .error e => .error (.replay e)
    | .ok state => .ok (reconcileWorkflowSignal state signal)

theorem stage_plain {α : Type} (stage : EngineStage) (entries : α → Option Nat) (p : EngineProg α) :
    Mode.plain.stage stage entries p = p >>= fun a => pure (a, .plain) := rfl

theorem handleWorkflowSignal_eq (command : Command) :
    handleWorkflowSignal command = loadPort >>= submitLoaded command := by
  unfold handleWorkflowSignal executeWorkflowSignal Mode.loadCommitted
  rw [stage_plain, Prog.bind_assoc]
  refine congrArg (loadPort >>= ·) (funext fun loaded => ?_)
  cases loaded with
  | error e => rfl
  | ok es =>
    simp only [Prog.pure_eq, Prog.ret_bind, Mode.replay, stage_plain, submitLoaded, eventsOf]
    cases WorkflowState.replay (es.map JournalEntry.event) with
    | error e => rfl
    | ok state =>
      simp only [Prog.pure_eq, Prog.ret_bind, Mode.decide, stage_plain]
      cases decideCommand state command with
      | duplicate eventId => rfl
      | rejected error => rfl
      | accepted event => rfl

theorem reconcileSignal_eq (signal : WorkflowSignal) :
    reconcileSignal signal = loadPort >>= fun loaded => pure (reconcileLoaded signal loaded) := by
  unfold reconcileSignal executeReconciliation Mode.loadCommitted
  rw [stage_plain, Prog.bind_assoc]
  refine congrArg (loadPort >>= ·) (funext fun loaded => ?_)
  cases loaded with
  | error e => rfl
  | ok es =>
    simp only [Prog.pure_eq, Prog.ret_bind, Mode.replay, stage_plain, reconcileLoaded, eventsOf]
    cases WorkflowState.replay (es.map JournalEntry.event) with
    | error e => rfl
    | ok state => rfl

section
variable {σ : Type} {step : (o : EngineOp) → σ → o.Res → σ → Prop} {entries : σ → List JournalEntry}
variable (contract : JournalContract step entries)
include contract

/-- A submission under the contract: what it answers is true, and wherever it is cut off at most its own entry is there. -/
theorem submit_truthful (command : Command) (s : σ) :
    (handleWorkflowSignal command).wp step (fun t => MaybeStored (entries s) command (entries t))
      (fun r t => SubmitTruthful (entries s) command (entries t) r) s := by
  rw [handleWorkflowSignal_eq]
  refine ⟨.inl rfl, fun loaded s₁ h₁ => ?_⟩
  have hs₁ := contract.load_keeps h₁
  cases loaded with
  | error e => exact ⟨.inl hs₁, .inl hs₁, fun _ => hs₁⟩
  | ok es =>
    have hes := contract.load h₁
    subst hes
    show (submitLoaded command (.ok (entries s))).wp step _ _ s₁
    simp only [submitLoaded]
    cases hr : WorkflowState.replay (eventsOf (entries s)) with
    | error e => exact ⟨.inl hs₁, hr, hs₁⟩
    | ok state =>
      have hd := decide_truthful hr command
      cases hc : decideCommand state command with
      | duplicate eventId =>
        rw [hc] at hd
        simp only [hc]
        exact ⟨.inl hs₁, hd.1, hd.2.1, hd.2.2.1, hs₁⟩
      | rejected error =>
        rw [hc] at hd
        simp only [hc]
        exact ⟨.inl hs₁, hd.1, hs₁⟩
      | accepted event =>
        rw [hc] at hd
        obtain ⟨hmatch, rfl, hfresh⟩ := hd
        simp only [hc]
        refine ⟨.inl hs₁, fun now s₂ h₂ => ?_⟩
        have hs₂ := (contract.now_keeps h₂).trans hs₁
        cases now with
        | error e => exact ⟨.inl hs₂, hmatch, hfresh, hs₂⟩
        | ok time =>
          refine ⟨.inl hs₂, fun appended s₃ h₃ => ?_⟩
          have hstored : entries s₃ = entries s ++ [nextEntry (entries s) (.signalAccepted command.signal) time] →
              Stored (entries s) command (nextEntry (entries s) (.signalAccepted command.signal) time) (entries s₃) :=
            fun h => ⟨hmatch, hfresh, rfl, rfl, h⟩
          cases appended with
          | error e =>
            have hm : MaybeStored (entries s) command (entries s₃) := by
              rcases contract.append_unknown h₃ with h | h
              · exact .inl (h.trans hs₂)
              · rw [hs₂] at h
                exact .inr ⟨_, hstored h⟩
            exact ⟨hm, hm, fun hk => (contract.append_known h₃ hk).trans hs₂⟩
          | ok entry =>
            obtain ⟨rfl, h⟩ := contract.append h₃
            rw [hs₂] at h
            rw [hs₂]
            exact ⟨.inr ⟨_, hstored h⟩, hstored h⟩

/-- A reconciliation under the contract: what it answers is true, and it changes nothing. -/
theorem reconcile_truthful_run (signal : WorkflowSignal) (s : σ) :
    (reconcileSignal signal).wp step (fun t => entries t = entries s)
      (fun r t => ReconcileTruthful (entries s) signal r ∧ entries t = entries s) s := by
  rw [reconcileSignal_eq]
  refine ⟨rfl, fun loaded s₁ h₁ => ?_⟩
  have hs₁ := contract.load_keeps h₁
  refine ⟨hs₁, ?_, hs₁⟩
  cases loaded with
  | error e => trivial
  | ok es =>
    have hes := contract.load h₁
    subst hes
    simp only [reconcileLoaded]
    cases hr : WorkflowState.replay (eventsOf (entries s)) with
    | error e => exact hr
    | ok state => exact reconcile_truthful hr signal

end

/-! ## Histories -/

/-- Queries with their answers, oldest first, from the entries `first` to those they leave. -/
inductive Chronicle (first : List JournalEntry) : List (Query × Answer) → List JournalEntry → Prop
  | nil : Chronicle first [] first
  | snoc {history : List (Query × Answer)} {es es' : List JournalEntry} {q : Query} {a : Answer} :
      Chronicle first history es → Truthful es es' q a → Chronicle first (history ++ [(q, a)]) es'

def acceptedEntry : Query × Answer → Option JournalEntry
  | (_, .submitted (.ok (.accepted entry))) => some entry
  | _ => none

/-- The event that was accepted, or of which that cannot be told. -/
def possibleEvent : Query × Answer → Option WorkflowEvent
  | (.submit command, .submitted (.ok (.accepted _))) => some (.signalAccepted command.signal)
  | (.submit command, .submitted (.error (.journal (.outcomeUnknown _)))) => some (.signalAccepted command.signal)
  | (.submit command, .died) => some (.signalAccepted command.signal)
  | _ => none

def idsOf (es : List JournalEntry) : List EventId := (eventsOf es).map WorkflowEvent.eventId

/-- The entries that a history has added are numbered on from the first ones, no event id stands twice in them or in
both, all that was reported accepted is among them in its order, and nothing is that nobody submitted and was told
accepted or not told about. -/
structure AtMostOnce (first : List JournalEntry) (history : List (Query × Answer)) (added : List JournalEntry) : Prop where
  numbered : added.map JournalEntry.seq = List.range' (first.length + 1) added.length
  distinct : (idsOf added).Nodup
  new : (idsOf first).Disjoint (idsOf added)
  reported : (history.filterMap acceptedEntry).Sublist added
  possible : (eventsOf added).Sublist (history.filterMap possibleEvent)

section
variable {first added : List JournalEntry} {history : List (Query × Answer)} {es es' : List JournalEntry} {q : Query}
  {a : Answer}

theorem idsOf_append (es es' : List JournalEntry) : idsOf (es ++ es') = idsOf es ++ idsOf es' := by
  unfold idsOf eventsOf
  rw [List.map_append, List.map_append]

theorem fresh_iff {signal : WorkflowSignal} : Fresh es signal ↔ signal.eventId ∉ idsOf es := by
  simp [Fresh, idsOf, eventsOf]

theorem replay_of_distinct (h : (idsOf es).Nodup) : ∃ state, WorkflowState.replay (eventsOf es) = .ok state :=
  replay_ok_iff.mpr h

theorem AtMostOnce.keep (h : AtMostOnce first history added) (ha : acceptedEntry (q, a) = none) :
    AtMostOnce first (history ++ [(q, a)]) added where
  numbered := h.numbered
  distinct := h.distinct
  new := h.new
  reported := by
    rw [List.filterMap_append, List.filterMap_cons_none ha, List.filterMap_nil, List.append_nil]
    exact h.reported
  possible := by
    rw [List.filterMap_append]
    exact h.possible.trans (List.sublist_append_left _ _)

theorem AtMostOnce.store {command : Command} {entry : JournalEntry} (h : AtMostOnce first history added)
    (hs : Stored (first ++ added) command entry es') (ha : acceptedEntry (q, a) = none ∨ acceptedEntry (q, a) = some entry)
    (hp : possibleEvent (q, a) = some (.signalAccepted command.signal)) :
    AtMostOnce first (history ++ [(q, a)]) (added ++ [entry]) := by
  obtain ⟨-, hfresh, hseq, hevent, -⟩ := hs
  rw [fresh_iff, idsOf_append, List.mem_append, not_or] at hfresh
  have hid : idsOf [entry] = [command.signal.eventId] := by
    unfold idsOf eventsOf
    rw [List.map_singleton, List.map_singleton, hevent]
    rfl
  refine ⟨?_, ?_, ?_, ?_, ?_⟩
  · rw [List.map_append, h.numbered, List.length_append, List.length_singleton, List.range'_1_concat, List.map_singleton,
      hseq, List.length_append, Nat.add_right_comm]
  · rw [idsOf_append, hid]
    exact h.distinct.append (List.nodup_singleton _) (List.disjoint_singleton.mpr hfresh.2)
  · rw [idsOf_append, hid, List.disjoint_append_right]
    exact ⟨h.new, List.disjoint_singleton.mpr hfresh.1⟩
  · rw [List.filterMap_append]
    rcases ha with ha | ha
    · rw [List.filterMap_cons_none ha]
      simpa using h.reported.trans (List.sublist_append_left _ _)
    · rw [List.filterMap_cons_some ha]
      exact h.reported.append (List.Sublist.refl _)
  · unfold eventsOf
    rw [List.map_append, List.filterMap_append, List.filterMap_cons_some hp]
    refine h.possible.append ?_
    simp [hevent]

/-- One more answer: it added nothing, or the entry of its own submission. -/
theorem AtMostOnce.step (h : AtMostOnce first history added) (ht : Truthful (first ++ added) es' q a) :
    ∃ added', es' = first ++ added' ∧ AtMostOnce first (history ++ [(q, a)]) added' := by
  have hkeep : es' = first ++ added → acceptedEntry (q, a) = none →
      ∃ added', es' = first ++ added' ∧ AtMostOnce first (history ++ [(q, a)]) added' :=
    fun he ha => ⟨added, he, h.keep ha⟩
  have hstore : ∀ {command entry}, Stored (first ++ added) command entry es' →
      (acceptedEntry (q, a) = none ∨ acceptedEntry (q, a) = some entry) →
      possibleEvent (q, a) = some (.signalAccepted command.signal) →
      ∃ added', es' = first ++ added' ∧ AtMostOnce first (history ++ [(q, a)]) added' := by
    intro command entry hs ha hp
    refine ⟨added ++ [entry], ?_, h.store hs ha hp⟩
    rw [hs.2.2.2.2, List.append_assoc]
  cases q with
  | reconcile signal =>
    cases a with
    | submitted r => exact absurd ht id
    | reconciled r => exact hkeep ht.2 rfl
    | died => exact hkeep ht rfl
  | submit command =>
    cases a with
    | reconciled r => exact absurd ht id
    | died =>
      rcases ht with he | ⟨entry, hs⟩
      · exact hkeep he rfl
      · exact hstore hs (.inl rfl) rfl
    | submitted r =>
      cases r with
      | ok outcome =>
        cases outcome with
        | accepted entry => exact hstore ht (.inr rfl) rfl
        | duplicate eventId => exact hkeep ht.2.2.2 rfl
      | error e =>
        cases e with
        | rejected e => exact hkeep ht.2 rfl
        | replay e => exact hkeep ht.2 rfl
        | clock e => exact hkeep ht.2.2 rfl
        | journal e =>
          obtain ⟨hm, hk⟩ := ht
          cases e with
          | outcomeUnknown d =>
            rcases hm with he | ⟨entry, hs⟩
            · exact hkeep he rfl
            · exact hstore hs (.inl rfl) rfl
          | _ => exact hkeep (hk rfl) rfl

/-- Whatever was asked and answered, died or failed: every signal is added at most once. -/
theorem Chronicle.atMostOnce (h : Chronicle first history es) :
    ∃ added, es = first ++ added ∧ AtMostOnce first history added := by
  induction h with
  | nil =>
    exact ⟨[], (List.append_nil _).symm, rfl, List.nodup_nil, List.disjoint_nil_right _, List.Sublist.refl _,
      List.Sublist.refl _⟩
  | snoc _ ht ih =>
    obtain ⟨added, rfl, h⟩ := ih
    exact h.step ht

theorem Chronicle.distinct (h : Chronicle first history es) (hd : (idsOf first).Nodup) : (idsOf es).Nodup := by
  obtain ⟨added, rfl, honce⟩ := h.atMostOnce
  rw [idsOf_append]
  exact hd.append honce.distinct honce.new

theorem MaybeStored.grows {command : Command} (h : MaybeStored es command es') : es <+: es' := by
  rcases h with rfl | ⟨entry, -, -, -, -, rfl⟩
  · exact List.prefix_refl _
  · exact List.prefix_append _ _

theorem Truthful.grows (h : Truthful es es' q a) : es <+: es' := by
  have he : es' = es → es <+: es' := fun h => h ▸ List.prefix_refl _
  cases q with
  | reconcile signal =>
    cases a with
    | submitted r => exact absurd h id
    | reconciled r => exact he h.2
    | died => exact he h
  | submit command =>
    cases a with
    | reconciled r => exact absurd h id
    | died => exact MaybeStored.grows h
    | submitted r =>
      cases r with
      | ok outcome =>
        cases outcome with
        | accepted entry => exact MaybeStored.grows (.inr ⟨entry, h⟩)
        | duplicate eventId => exact he h.2.2.2
      | error e =>
        cases e with
        | rejected e => exact he h.2
        | replay e => exact he h.2
        | clock e => exact he h.2.2
        | journal e => exact h.1.grows

/-- An answer was true when it was given, after the answers `earlier`, and what it left is still in `es`. -/
def Answered (first : List JournalEntry) (earlier : List (Query × Answer)) (es : List JournalEntry) (q : Query)
    (a : Answer) : Prop :=
  ∃ before after, Chronicle first earlier before ∧ Truthful before after q a ∧ after <+: es

/-- Every answer of a history was true at its place. -/
theorem Chronicle.answered {earlier later : List (Query × Answer)} (h : Chronicle first (earlier ++ (q, a) :: later) es) :
    Answered first earlier es q a := by
  generalize hh : earlier ++ (q, a) :: later = history at h
  induction h generalizing later with
  | nil => simp at hh
  | @snoc history es es' q' a' hc ht ih =>
    rcases List.eq_nil_or_concat later with rfl | ⟨later', x, rfl⟩
    · obtain ⟨rfl, hx⟩ := List.append_inj' hh rfl
      cases hx
      exact ⟨es, es', hc, ht, List.prefix_refl _⟩
    · rw [List.concat_eq_append, ← List.cons_append, ← List.append_assoc] at hh
      obtain ⟨hhistory, -⟩ := List.append_inj' hh rfl
      obtain ⟨before, after, hb, htrue, hp⟩ := ih hhistory
      exact ⟨before, after, hb, htrue, hp.trans ht.grows⟩

def Answer.saysCorrupt : Answer → Prop
  | .submitted (.error (.replay _)) | .reconciled (.error (.replay _)) => True
  | _ => False

/-- From entries with distinct ids on, no answer says that they cannot be replayed. -/
theorem Chronicle.readable (h : Chronicle first history es) (hd : (idsOf first).Nodup) (hm : (q, a) ∈ history) :
    ¬a.saysCorrupt := by
  obtain ⟨earlier, later, rfl⟩ := List.append_of_mem hm
  obtain ⟨before, after, hb, ht, -⟩ := h.answered
  obtain ⟨state, hstate⟩ := replay_of_distinct (hb.distinct hd)
  intro hs
  have hfails : ∀ e, WorkflowState.replay (eventsOf before) = .error e → False := by
    intro e he
    rw [hstate] at he
    cases he
  cases q with
  | submit command =>
    cases a with
    | submitted r =>
      rcases r with ⟨_ | _ | e | _⟩ | _
      all_goals first | exact hs | exact hfails _ ht.1
    | reconciled r => exact ht
    | died => exact hs
  | reconcile signal =>
    cases a with
    | submitted r => exact ht
    | reconciled r =>
      rcases r with ⟨_ | e⟩ | _
      all_goals first | exact hs | exact hfails _ ht.1
    | died => exact hs

end

end Aizign
