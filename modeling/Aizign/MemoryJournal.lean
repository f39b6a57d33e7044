import Aizign.EngineService
import Aizign.RecordStream

/-!
# The in-memory journal

The test double of the journal port, with the faults it can be told to make. It
keeps the contract of a journal under every fault, so every run of the engine
on it is a history without lost or doubled signals.
-/

namespace Aizign

inductive AppendFault
  | reject (error : JournalError)
  | storeThenUnknown
  deriving DecidableEq

structure MemoryJournal where
  entries : List JournalEntry
  loadFaults : List JournalError
  appendFaults : List AppendFault

namespace MemoryJournal

def new : MemoryJournal := ⟨[], [], []⟩

def failNextLoad (j : MemoryJournal) (error : JournalError) : MemoryJournal :=
  { j with loadFaults := j.loadFaults ++ [error] }

def failNextAppend (j : MemoryJournal) (error : JournalError) : MemoryJournal :=
  { j with appendFaults := j.appendFaults ++ [.reject error] }

def loseNextAppendAcknowledgement (j : MemoryJournal) : MemoryJournal :=
  { j with appendFaults := j.appendFaults ++ [.storeThenUnknown] }

def loadCommitted (j : MemoryJournal) : Except JournalError (List JournalEntry) × MemoryJournal :=
  match j.loadFaults with
  | error :: faults => (.error error, { j with loadFaults := faults })
  | [] =>
    if maxJournalEntries < j.entries.length then (.error (.boundExceeded maxJournalEntries), j)
    else (.ok j.entries, j)

/-- The append that is not rejected by a fault. -/
def store (j : MemoryJournal) (event : WorkflowEvent) (time : BoundedTimestamp) (lost : Bool) :
    Except JournalError JournalEntry × MemoryJournal :=
  if maxJournalEntries ≤ j.entries.length then (.error (.boundExceeded maxJournalEntries), j)
  else
    let entry : JournalEntry := ⟨j.entries.length + 1, time, event⟩
    let j := { j with entries := j.entries ++ [entry] }
    if lost then (.error (.outcomeUnknown "acknowledgement lost after the write".toList), j)
    else (.ok entry, j)

def append (j : MemoryJournal) (event : WorkflowEvent) (time : BoundedTimestamp) :
    Except JournalError JournalEntry × MemoryJournal :=
  match j.appendFaults with
  | [] => j.store event time false
  | .reject error :: faults => (.error error, { j with appendFaults := faults })
  | .storeThenUnknown :: faults => { j with appendFaults := faults }.store event time true

def world (clock : Except ClockError BoundedTimestamp) : JournalWorld MemoryJournal where
  load := loadCommitted
  append event time j := j.append event time
  now j := (clock, j)

/-! ## The contract -/

theorem loadCommitted_entries (j : MemoryJournal) : j.loadCommitted.2.entries = j.entries := by
  unfold loadCommitted
  split
  · rfl
  · split <;> rfl

theorem loadCommitted_ok {j : MemoryJournal} {es : List JournalEntry} (h : j.loadCommitted.1 = .ok es) :
    es = j.entries := by
  unfold loadCommitted at h
  split at h
  · cases h
  · split at h
    · cases h
    · cases h; rfl

/-- What an append can do to the entries. -/
theorem append_cases (j : MemoryJournal) (event : WorkflowEvent) (time : BoundedTimestamp) :
    (∃ e, (j.append event time).1 = .error e ∧ (j.append event time).2.entries = j.entries) ∨
    ((j.append event time).1 = .ok (nextEntry j.entries event time) ∨
        ∃ d, (j.append event time).1 = .error (.outcomeUnknown d)) ∧
      (j.append event time).2.entries = j.entries ++ [nextEntry j.entries event time] := by
  have hstore : ∀ (k : MemoryJournal) (lost : Bool), k.entries = j.entries →
      (∃ e, (k.store event time lost).1 = .error e ∧ (k.store event time lost).2.entries = j.entries) ∨
      ((k.store event time lost).1 = .ok (nextEntry j.entries event time) ∨
        ∃ d, (k.store event time lost).1 = .error (.outcomeUnknown d)) ∧
      (k.store event time lost).2.entries = j.entries ++ [nextEntry j.entries event time] := by
    intro k lost hk
    unfold store nextEntry
    rw [hk]
    by_cases hfull : maxJournalEntries ≤ j.entries.length
    · rw [if_pos hfull]
      exact .inl ⟨_, rfl, hk⟩
    · rw [if_neg hfull]
      cases lost with
      | false => exact .inr ⟨.inl rfl, rfl⟩
      | true => exact .inr ⟨.inr ⟨_, rfl⟩, rfl⟩
  unfold append
  cases hf : j.appendFaults with
  | nil => exact hstore j false rfl
  | cons f faults =>
    cases f with
    | reject error => exact .inl ⟨_, rfl, rfl⟩
    | storeThenUnknown => exact hstore _ true rfl

theorem contract (clock : Except ClockError BoundedTimestamp) :
    JournalContract (fun o j r j' => (world clock).run o j = (r, j')) MemoryJournal.entries where
  load h := loadCommitted_ok (congrArg Prod.fst h)
  load_keeps {s _ _} h := (congrArg (·.2.entries) h).symm.trans s.loadCommitted_entries
  now_keeps h := (congrArg (·.2.entries) h).symm
  notify_keeps h := (congrArg (·.2.entries) h).symm
  append {event time s entry s'} h := by
    replace h : s.append event time = (.ok entry, s') := h
    have hc := append_cases s event time
    rw [h] at hc
    obtain ⟨e, he, -⟩ | ⟨he | ⟨d, hd⟩, hs⟩ := hc
    · cases he
    · cases he
      exact ⟨rfl, hs⟩
    · cases hd
  append_known {event time s e s'} h hk := by
    replace h : s.append event time = (.error e, s') := h
    have hc := append_cases s event time
    rw [h] at hc
    obtain ⟨_, -, hs⟩ | ⟨he | ⟨d, hd⟩, hs⟩ := hc
    · exact hs
    · cases he
    · cases hd
      cases hk
  append_unknown {event time s e s'} h := by
    replace h : s.append event time = (.error e, s') := h
    have hc := append_cases s event time
    rw [h] at hc
    obtain ⟨_, -, hs⟩ | ⟨-, hs⟩ := hc
    · exact .inl hs
    · exact .inr hs

/-! ## Runs -/

/-- What a test does with a journal: inject a fault, or run a use case of the engine. -/
inductive Act
  | failNextLoad (error : JournalError)
  | failNextAppend (error : JournalError)
  | loseNextAppendAcknowledgement
  | submit (command : Command) (clock : Except ClockError BoundedTimestamp)
  | reconcile (signal : WorkflowSignal)

structure Session where
  journal : MemoryJournal
  history : List (Query × Answer)

def Session.act (s : Session) : Act → Session
  | .failNextLoad error => { s with journal := s.journal.failNextLoad error }
  | .failNextAppend error => { s with journal := s.journal.failNextAppend error }
  | .loseNextAppendAcknowledgement => { s with journal := s.journal.loseNextAppendAcknowledgement }
  | .submit command clock =>
    let r := (handleWorkflowSignal command).exec (world clock).run s.journal
    ⟨r.2, s.history ++ [(.submit command, .submitted r.1)]⟩
  | .reconcile signal =>
    let r := (reconcileSignal signal).exec (world (.error .outOfRange)).run s.journal
    ⟨r.2, s.history ++ [(.reconcile signal, .reconciled r.1)]⟩

def Session.run (acts : List Act) : Session := acts.foldl Session.act ⟨new, []⟩

/-- An act leaves the entries and the history alone, or adds one answer that is true. -/
theorem Session.act_cases (s : Session) (act : Act) :
    (s.act act).history = s.history ∧ (s.act act).journal.entries = s.journal.entries ∨
    ∃ q a, (s.act act).history = s.history ++ [(q, a)] ∧
      Truthful s.journal.entries (s.act act).journal.entries q a := by
  cases act with
  | failNextLoad error => exact .inl ⟨rfl, rfl⟩
  | failNextAppend error => exact .inl ⟨rfl, rfl⟩
  | loseNextAppendAcknowledgement => exact .inl ⟨rfl, rfl⟩
  | submit command clock =>
    have ht := Prog.wp_result (submit_truthful (contract clock) command s.journal) (Prog.steps_exec _ s.journal)
    exact .inr ⟨_, _, rfl, ht⟩
  | reconcile signal =>
    have ht := Prog.wp_result (reconcile_truthful_run (contract (.error .outOfRange)) signal s.journal)
      (Prog.steps_exec _ s.journal)
    exact .inr ⟨_, _, rfl, ht⟩

/-- Nothing the ports do takes the journal over its bound. -/
theorem run_bounded (clock : Except ClockError BoundedTimestamp) (o : EngineOp) (j : MemoryJournal)
    (h : j.entries.length ≤ maxJournalEntries) : ((world clock).run o j).2.entries.length ≤ maxJournalEntries := by
  have hstore : ∀ (k : MemoryJournal) (event : WorkflowEvent) (time : BoundedTimestamp) (lost : Bool),
      k.entries = j.entries → (k.store event time lost).2.entries.length ≤ maxJournalEntries := by
    intro k event time lost hk
    unfold store
    by_cases hfull : maxJournalEntries ≤ k.entries.length
    · rw [if_pos hfull, hk]
      exact h
    · rw [if_neg hfull]
      have : (k.entries ++ [(⟨k.entries.length + 1, time, event⟩ : JournalEntry)]).length ≤ maxJournalEntries := by
        rw [List.length_append, List.length_singleton]
        omega
      cases lost <;> exact this
  cases o with
  | loadCommitted => exact (congrArg List.length j.loadCommitted_entries).trans_le h
  | now => exact h
  | notify n => exact h
  | append event time =>
    show (j.append event time).2.entries.length ≤ maxJournalEntries
    unfold append
    cases hf : j.appendFaults with
    | nil => exact hstore j event time false rfl
    | cons f faults =>
      cases f with
      | reject error => exact h
      | storeThenUnknown => exact hstore _ event time true rfl

theorem Session.act_bounded {s : Session} (h : s.journal.entries.length ≤ maxJournalEntries) (act : Act) :
    (s.act act).journal.entries.length ≤ maxJournalEntries := by
  cases act with
  | failNextLoad error => exact h
  | failNextAppend error => exact h
  | loseNextAppendAcknowledgement => exact h
  | submit command clock =>
    exact Prog.exec_invariant (fun o _ j => run_bounded clock o j) (Prog.uses_all _) h
  | reconcile signal =>
    exact Prog.exec_invariant (fun o _ j => run_bounded _ o j) (Prog.uses_all _) h

structure Session.Sound (s : Session) : Prop where
  chronicle : Chronicle [] s.history s.journal.entries
  bounded : s.journal.entries.length ≤ maxJournalEntries

theorem Session.Sound.act {s : Session} (h : s.Sound) (act : Act) :
    (s.act act).Sound ∧ s.journal.entries <+: (s.act act).journal.entries := by
  refine ⟨⟨?_, act_bounded h.bounded act⟩, ?_⟩
  · rcases s.act_cases act with ⟨hh, he⟩ | ⟨q, a, hh, ht⟩
    · rw [hh, he]
      exact h.chronicle
    · rw [hh]
      exact h.chronicle.snoc ht
  · rcases s.act_cases act with ⟨-, he⟩ | ⟨q, a, -, ht⟩
    · exact he ▸ List.prefix_refl _
    · exact ht.grows

theorem Session.Sound.foldl {s : Session} (h : s.Sound) (acts : List Act) :
    (acts.foldl Session.act s).Sound ∧ s.journal.entries <+: (acts.foldl Session.act s).journal.entries := by
  induction acts generalizing s with
  | nil => exact ⟨h, List.prefix_refl _⟩
  | cons act acts ih =>
    obtain ⟨h₁, hp⟩ := h.act act
    obtain ⟨h₂, hp'⟩ := ih h₁
    exact ⟨h₂, hp.trans hp'⟩

/-- Every session, with any faults in any order: each answer was true when it was given, entries are only added, no
signal is stored twice, what was reported accepted is stored and what is stored was submitted, and the journal stays
readable. -/
theorem sessions_store_at_most_once (acts more : List Act) :
    Chronicle [] (Session.run acts).history (Session.run acts).journal.entries ∧
      AtMostOnce [] (Session.run acts).history (Session.run acts).journal.entries ∧
      (Session.run acts).journal.entries.length ≤ maxJournalEntries ∧
      (∃ state, WorkflowState.replay (eventsOf (Session.run acts).journal.entries) = .ok state) ∧
      (∀ q a, (q, a) ∈ (Session.run acts).history → ¬a.saysCorrupt) ∧
      (Session.run acts).journal.entries <+: (Session.run (acts ++ more)).journal.entries := by
  have hnew : Session.Sound ⟨new, []⟩ := ⟨.nil, Nat.zero_le _⟩
  have h := (hnew.foldl acts).1
  have hdistinct := h.chronicle.distinct List.nodup_nil
  obtain ⟨added, he, honce⟩ := h.chronicle.atMostOnce
  rw [List.nil_append] at he
  refine ⟨h.chronicle, he ▸ honce, h.bounded, replay_of_distinct hdistinct,
    fun q a hm => h.chronicle.readable List.nodup_nil hm, ?_⟩
  unfold Session.run
  rw [List.foldl_append]
  exact (h.foldl more).2

def sampleActs : List Act :=
  [.submit sampleCommand (.ok sampleTime), .submit sampleCommand (.ok sampleTime), .loseNextAppendAcknowledgement,
    .submit otherCommand (.ok sampleTime), .reconcile otherCommand.signal]

theorem sessions_sample : (Session.run sampleActs).history =
      [(.submit sampleCommand, .submitted (.ok (.accepted sampleEntry))),
        (.submit sampleCommand, .submitted (.ok (.duplicate sampleSubmission.eventId))),
        (.submit otherCommand, .submitted (.error (.journal (.outcomeUnknown "acknowledgement lost after the write".toList)))),
        (.reconcile otherCommand.signal, .reconciled (.ok .accepted))] ∧
    (Session.run sampleActs).journal.entries = [sampleEntry, repeatedEntry] ∧
    AtMostOnce [] (Session.run sampleActs).history [sampleEntry, repeatedEntry] :=
  ⟨rfl, rfl, (sessions_store_at_most_once sampleActs []).2.1⟩

end MemoryJournal

end Aizign
