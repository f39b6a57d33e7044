import Aizign.StoreMemory

/-!
# The store is a bounded list

Without failures, any number of writer and reader objects opened, used and
closed one after the other on a state path that names nothing at first: they
answer as one bounded list of timed events that a writer has open alone. Each
object has its own open lock file, so each is an owner of locks of its own.
-/

namespace Aizign

open Store

/-! ## Calls -/

inductive JournalCall
  | openJournal
  | openReader
  | load (object : Nat)
  | append (object : Nat) (event : WorkflowEvent) (time : BoundedTimestamp)
  | close (object : Nat)

inductive JournalAnswer
  | opened (object : Except JournalError Nat)
  | loaded (entries : Except JournalError (List JournalEntry))
  | appended (entry : Except JournalError JournalEntry)
  | closed
  | noSuchObject

/-- The files, and the objects that are open with the lock each of them holds. -/
structure OpenStore where
  fs : Fs
  opens : Nat
  objects : List Lock

def OpenStore.openWith (ω : OpenStore) (program : Store Nat) (exclusive : Bool) : JournalAnswer × OpenStore :=
  match program.run.exec (Op.run ω.opens) ω.fs with
  | (.ok lock, fs) => (.opened (.ok ω.opens), ⟨fs, ω.opens + 1, ⟨ω.opens, lock, exclusive⟩ :: ω.objects⟩)
  | (.error e, fs) => (.opened (.error e), ⟨fs.release ω.opens, ω.opens + 1, ω.objects⟩)

def OpenStore.load [SerdeJson] (ω : OpenStore) (object : Nat) : JournalAnswer × OpenStore :=
  match ω.objects.find? fun o => o.owner = object with
  | some o =>
    let r := (loadCommitted o.inode).run.exec (Op.run object) ω.fs
    (.loaded r.1, { ω with fs := r.2 })
  | none => (.noSuchObject, ω)

def OpenStore.append [SerdeJson] (ω : OpenStore) (object : Nat) (event : WorkflowEvent) (time : BoundedTimestamp) :
    JournalAnswer × OpenStore :=
  match ω.objects.find? fun o => o.owner = object && o.exclusive with
  | some o =>
    let r := (appendWithOps o.inode event time).run.exec (Op.run object) ω.fs
    (.appended r.1, { ω with fs := r.2 })
  | none => (.noSuchObject, ω)

def OpenStore.close (ω : OpenStore) (object : Nat) : JournalAnswer × OpenStore :=
  (.closed, { ω with fs := ω.fs.release object, objects := ω.objects.filter fun o => o.owner ≠ object })

def OpenStore.call [SerdeJson] : JournalCall → OpenStore → JournalAnswer × OpenStore
  | .openJournal, ω => ω.openWith openWriter true
  | .openReader, ω => ω.openWith openReader false
  | .load object, ω => ω.load object
  | .append object event time, ω => ω.append object event time
  | .close object, ω => ω.close object

/-! ## The list -/

/-- A list that is made when it is first opened for writing, and who has it open (`true` for a writer). -/
structure BoundedList where
  made : Bool
  items : List (BoundedTimestamp × WorkflowEvent)
  opens : Nat
  objects : List (Nat × Bool)

def BoundedList.entries (β : BoundedList) : List JournalEntry :=
  β.items.mapIdx fun i item => ⟨i + 1, item.1, item.2⟩

def BoundedList.opened (β : BoundedList) (exclusive : Bool) : JournalAnswer × BoundedList :=
  (.opened (.ok β.opens), ⟨true, β.items, β.opens + 1, (β.opens, exclusive) :: β.objects⟩)

def BoundedList.refused (β : BoundedList) (e : JournalError) : JournalAnswer × BoundedList :=
  (.opened (.error e), { β with opens := β.opens + 1 })

def BoundedList.openJournal (β : BoundedList) : JournalAnswer × BoundedList :=
  if β.objects.isEmpty then β.opened true else β.refused .locked

def BoundedList.openReader (β : BoundedList) : JournalAnswer × BoundedList :=
  if β.made = false then β.refused missingState
  else if β.objects.any fun o => o.2 then β.refused .locked
  else β.opened false

def BoundedList.load (β : BoundedList) (object : Nat) : JournalAnswer × BoundedList :=
  if β.objects.any fun o => o.1 = object then (.loaded (.ok β.entries), β) else (.noSuchObject, β)

def BoundedList.append (β : BoundedList) (object : Nat) (event : WorkflowEvent) (time : BoundedTimestamp) :
    JournalAnswer × BoundedList :=
  if β.objects.any fun o => o.1 = object && o.2 then
    if β.items.length < maxJournalEntries then
      (.appended (.ok ⟨β.items.length + 1, time, event⟩), { β with items := β.items ++ [(time, event)] })
    else (.appended (.error (.boundExceeded maxJournalEntries)), β)
  else (.noSuchObject, β)

def BoundedList.close (β : BoundedList) (object : Nat) : JournalAnswer × BoundedList :=
  (.closed, { β with objects := β.objects.filter fun o => o.1 ≠ object })

def BoundedList.call : JournalCall → BoundedList → JournalAnswer × BoundedList
  | .openJournal, β => β.openJournal
  | .openReader, β => β.openReader
  | .load object, β => β.load object
  | .append object event time, β => β.append object event time
  | .close object, β => β.close object

def BoundedList.journal (β : BoundedList) : MemoryJournal := ⟨β.entries, [], []⟩

theorem BoundedList.entries_length (β : BoundedList) : β.entries.length = β.items.length := List.length_mapIdx

theorem BoundedList.entries_snoc (β : BoundedList) (event : WorkflowEvent) (time : BoundedTimestamp) :
    { β with items := β.items ++ [(time, event)] : BoundedList }.entries = β.entries ++ [nextEntry β.entries event time] := by
  rw [nextEntry, β.entries_length, entries, List.mapIdx_concat]
  rfl

theorem BoundedList.append_full {β : BoundedList} (h : maxJournalEntries ≤ β.items.length) (event : WorkflowEvent)
    (time : BoundedTimestamp) : β.journal.append event time = (.error (.boundExceeded maxJournalEntries), β.journal) := by
  show β.journal.store event time false = _
  unfold MemoryJournal.store
  exact if_pos (by rwa [journal, β.entries_length])

theorem BoundedList.append_room {β : BoundedList} (h : β.items.length < maxJournalEntries) (event : WorkflowEvent)
    (time : BoundedTimestamp) :
    β.journal.append event time = (.ok ⟨β.items.length + 1, time, event⟩,
      { β with items := β.items ++ [(time, event)] : BoundedList }.journal) := by
  show β.journal.store event time false = _
  unfold MemoryJournal.store
  have hroom : ¬maxJournalEntries ≤ β.journal.entries.length := by
    rw [journal, β.entries_length]
    omega
  rw [if_neg hroom, journal, journal, β.entries_snoc, nextEntry, β.entries_length]
  rfl

/-! ## Locks -/

section
variable {me l : Nat} {s : Fs} {exclusive : Bool}

/-- Among the objects of one store, only readers tolerate each other. -/
theorem lockConflict_fresh (hl : ∀ o ∈ s.locks, o.inode = l) (hnew : ∀ o ∈ s.locks, o.owner ≠ me) :
    s.lockConflict me l exclusive = s.locks.any fun o => exclusive || o.exclusive := by
  rw [Fs.lockConflict, Bool.eq_iff_iff, List.any_eq_true, List.any_eq_true]
  refine exists_congr fun o => and_congr_right fun ho => ?_
  simp [hl o ho, hnew o ho]

theorem run_tryLock_fresh (hfree : s.lockConflict me l exclusive = false) (hnew : ∀ o ∈ s.locks, o.owner ≠ me) :
    ((Op.tryLock l exclusive).run me s).2 = s.withLocks (⟨me, l, exclusive⟩ :: s.locks) := by
  have hkeep : (s.locks.filter fun o => ¬(o.owner = me ∧ o.inode = l)) = s.locks := by
    rw [List.filter_eq_self]
    intro o ho
    simp [hnew o ho]
  simp only [Op.run]
  rw [if_neg (by simp [hfree]), hkeep]

theorem release_fresh (hnew : ∀ o ∈ s.locks, o.owner ≠ me) : s.release me = s := by
  have hkeep : (s.locks.filter fun o => o.owner ≠ me) = s.locks := by
    rw [List.filter_eq_self]
    intro o ho
    simp [hnew o ho]
  rw [Fs.release, hkeep]
  rfl

end

/-! ## One call -/

section
variable [SerdeJson]

/-- The files hold the list, or nothing yet, and the objects are those of the list, each with its lock. -/
structure OpenStore.Serves (ω : OpenStore) (β : BoundedList) : Prop where
  opens : β.opens = ω.opens
  objects : β.objects = ω.objects.map fun o => (o.owner, o.exclusive)
  locks : ω.fs.locks = ω.objects
  earlier : ∀ o ∈ ω.objects, o.owner < ω.opens
  files : (β.made = false ∧ β.items = [] ∧ Vacant ω.fs) ∨
    β.made = true ∧ ∃ l, Mirrors l ω.fs β.journal ∧ ∀ o ∈ ω.objects, o.inode = l

section
variable {ω : OpenStore} {β : BoundedList}

theorem OpenStore.Serves.fresh (h : ω.Serves β) : ∀ o ∈ ω.fs.locks, o.owner ≠ ω.opens := by
  intro o ho
  rw [h.locks] at ho
  exact Nat.ne_of_lt (h.earlier o ho)

omit [SerdeJson] in
theorem OpenStore.openWith_ok {program : Store Nat} {lock : Nat} {t : Fs} {exclusive : Bool}
    (h : program.run.exec (Op.run ω.opens) ω.fs = (.ok lock, t)) :
    ω.openWith program exclusive =
      (.opened (.ok ω.opens), ⟨t, ω.opens + 1, ⟨ω.opens, lock, exclusive⟩ :: ω.objects⟩) := by
  unfold OpenStore.openWith
  rw [h]

/-- An open that is refused leaves the files as they are. -/
theorem OpenStore.Serves.refused (h : ω.Serves β) {program : Store Nat} {e : JournalError} {exclusive : Bool}
    (he : program.run.exec (Op.run ω.opens) ω.fs = (.error e, ω.fs)) :
    (ω.openWith program exclusive).1 = (β.refused e).1 ∧
      (ω.openWith program exclusive).2.Serves (β.refused e).2 := by
  have hr : ω.openWith program exclusive = (.opened (.error e), ⟨ω.fs, ω.opens + 1, ω.objects⟩) := by
    unfold OpenStore.openWith
    rw [he]
    show (JournalAnswer.opened (.error e), OpenStore.mk (ω.fs.release ω.opens) _ _) = _
    rw [release_fresh h.fresh]
  rw [hr]
  exact ⟨rfl, congrArg (· + 1) h.opens, h.objects, h.locks, fun o ho => Nat.lt_succ_of_lt (h.earlier o ho), h.files⟩

/-- An open that gets its lock adds one object. -/
theorem OpenStore.Serves.opened (h : ω.Serves β) {program : Store Nat} {l : Nat} {t : Fs} {exclusive : Bool}
    (ho : program.run.exec (Op.run ω.opens) ω.fs = (.ok l, t)) (hm : Mirrors l t β.journal)
    (hlocks : t.locks = ⟨ω.opens, l, exclusive⟩ :: ω.objects) (hl : ∀ o ∈ ω.objects, o.inode = l) :
    (ω.openWith program exclusive).1 = (β.opened exclusive).1 ∧
      (ω.openWith program exclusive).2.Serves (β.opened exclusive).2 := by
  rw [OpenStore.openWith_ok ho, BoundedList.opened, h.opens]
  refine ⟨rfl, rfl, ?_, hlocks, fun o hmem => ?_, .inr ⟨rfl, l, hm, fun o hmem => ?_⟩⟩
  · rw [h.objects]
    rfl
  · rcases List.mem_cons.1 hmem with rfl | hmem
    · exact Nat.lt_succ_self _
    · exact Nat.lt_succ_of_lt (h.earlier o hmem)
  · rcases List.mem_cons.1 hmem with rfl | hmem
    · rfl
    · exact hl o hmem

theorem OpenStore.Serves.conflict (h : ω.Serves β) {l : Nat} (hl : ∀ o ∈ ω.objects, o.inode = l) (exclusive : Bool) :
    ω.fs.lockConflict ω.opens l exclusive = ω.objects.any fun o => exclusive || o.exclusive := by
  rw [lockConflict_fresh (fun o ho => hl o (h.locks ▸ ho)) h.fresh, h.locks]

/-- Taking the lock of a store that is there. -/
theorem OpenStore.Serves.locked (h : ω.Serves β) {program : Store Nat} {l : Nat} {exclusive : Bool}
    (hfree : ω.fs.lockConflict ω.opens l exclusive = false) (hm : Mirrors l ω.fs β.journal)
    (hl : ∀ o ∈ ω.objects, o.inode = l)
    (ho : program.run.exec (Op.run ω.opens) ω.fs = (.ok l, ((Op.tryLock l exclusive).run ω.opens ω.fs).2)) :
    (ω.openWith program exclusive).1 = (β.opened exclusive).1 ∧
      (ω.openWith program exclusive).2.Serves (β.opened exclusive).2 := by
  rw [run_tryLock_fresh hfree h.fresh] at ho
  exact h.opened ho (hm.withLocks _) (congrArg _ h.locks) hl

theorem OpenStore.Serves.openJournal (h : ω.Serves β) :
    (ω.openWith openWriter true).1 = β.openJournal.1 ∧ (ω.openWith openWriter true).2.Serves β.openJournal.2 := by
  have hempty : β.objects.isEmpty = ω.objects.isEmpty := by
    rw [h.objects, List.isEmpty_map]
  unfold BoundedList.openJournal
  rcases h.files with ⟨hmade, hitems, hv⟩ | ⟨hmade, l, hm, hl⟩
  · have hnone : ω.objects = [] := h.locks.symm.trans hv.locks
    obtain ⟨hnew, hlocks⟩ := hv.opened ω.opens
    have hjournal : β.journal = .new := by
      rw [BoundedList.journal, BoundedList.entries, hitems]
      rfl
    rw [hempty, hnone, List.isEmpty_nil, if_pos rfl]
    refine h.opened (exec_openWriter_vacant hv) (hjournal ▸ hnew) ?_ ?_
    · rw [hlocks, hnone]
    · rw [hnone]
      exact fun o ho => absurd ho List.not_mem_nil
  · have hconflict := h.conflict hl true
    rw [hempty]
    by_cases hnone : ω.objects = []
    · rw [hnone, List.isEmpty_nil, if_pos rfl]
      rw [hnone] at hconflict
      exact h.locked hconflict hm hl (hm.exec_openWriter_free hconflict)
    · have hbusy : ω.fs.lockConflict ω.opens l true = true := by
        rw [hconflict]
        obtain ⟨o, ho⟩ := List.exists_mem_of_ne_nil _ hnone
        exact List.any_eq_true.2 ⟨o, ho, rfl⟩
      rw [if_neg (by simp [hnone])]
      obtain ⟨owner, point, ⟨hready, hlock, J, C, W, hs, -⟩, -⟩ := hm.store
      exact h.refused (exec_openWriter_locked hready hs hlock hbusy)

theorem OpenStore.Serves.openReader (h : ω.Serves β) :
    (ω.openWith Aizign.openReader false).1 = β.openReader.1 ∧
      (ω.openWith Aizign.openReader false).2.Serves β.openReader.2 := by
  have hany : (β.objects.any fun o => o.2) = ω.objects.any fun o => o.exclusive := by
    rw [h.objects, List.any_map]
    rfl
  unfold BoundedList.openReader
  rcases h.files with ⟨hmade, hitems, hv⟩ | ⟨hmade, l, hm, hl⟩
  · rw [if_pos hmade]
    exact h.refused (exec_openReader_vacant hv)
  · have hconflict := h.conflict hl false
    simp only [Bool.false_or] at hconflict
    rw [if_neg (by rw [hmade]; decide), hany]
    by_cases hbusy : (ω.objects.any fun o => o.exclusive) = true
    · rw [if_pos hbusy]
      obtain ⟨owner, point, ⟨hready, hlock, J, C, W, hs, hc⟩, -⟩ := hm.store
      exact h.refused (exec_openReader_locked hready hs hlock (hconflict.trans hbusy) hc.commit)
    · rw [if_neg hbusy]
      have hfree := hconflict.trans (Bool.eq_false_iff.2 hbusy)
      exact h.locked hfree hm hl (hm.exec_openReader_free hfree)

/-- The store of an object that is open. -/
theorem OpenStore.Serves.holds (h : ω.Serves β) {o : Lock} (ho : o ∈ ω.objects) :
    β.made = true ∧ Mirrors o.inode ω.fs β.journal ∧ ∀ o' ∈ ω.objects, o'.inode = o.inode := by
  rcases h.files with ⟨-, -, hv⟩ | ⟨hmade, l, hm, hl⟩
  · rw [← h.locks, hv.locks] at ho
    exact absurd ho List.not_mem_nil
  · rw [hl o ho]
    exact ⟨hmade, hm, hl⟩

theorem OpenStore.Serves.load (h : ω.Serves β) (object : Nat) :
    (ω.load object).1 = (β.load object).1 ∧ (ω.load object).2.Serves (β.load object).2 := by
  have hany : (β.objects.any fun o => o.1 = object) = (ω.objects.find? fun o => o.owner = object).isSome := by
    rw [h.objects, List.any_map, List.isSome_find?]
    rfl
  unfold OpenStore.load BoundedList.load
  rw [hany]
  cases hf : ω.objects.find? fun o => o.owner = object with
  | none => exact ⟨rfl, h⟩
  | some o =>
    obtain ⟨-, hm, -⟩ := h.holds (List.mem_of_find?_eq_some hf)
    have hr : (loadCommitted o.inode).run.exec (Op.run object) ω.fs = (.ok β.entries, ω.fs) := hm.runs_load
    simp only [hr]
    exact ⟨rfl, h⟩

theorem OpenStore.Serves.append (h : ω.Serves β) (object : Nat) (event : WorkflowEvent) (time : BoundedTimestamp) :
    (ω.append object event time).1 = (β.append object event time).1 ∧
      (ω.append object event time).2.Serves (β.append object event time).2 := by
  have hany : (β.objects.any fun o => o.1 = object && o.2) =
      (ω.objects.find? fun o => o.owner = object && o.exclusive).isSome := by
    rw [h.objects, List.any_map, List.isSome_find?]
    rfl
  unfold OpenStore.append BoundedList.append
  rw [hany]
  cases hf : ω.objects.find? fun o => o.owner = object && o.exclusive with
  | none => exact ⟨rfl, h⟩
  | some o =>
    obtain ⟨hmade, hm, hl⟩ := h.holds (List.mem_of_find?_eq_some hf)
    obtain ⟨t, ht, hlocks, hm'⟩ := hm.exec_append object event time
    simp only [ht]
    rw [Option.isSome_some, if_pos rfl]
    by_cases hroom : β.items.length < maxJournalEntries
    · rw [if_pos hroom]
      rw [BoundedList.append_room hroom] at hm' ⊢
      exact ⟨rfl, h.opens, h.objects, hlocks.trans h.locks, h.earlier, .inr ⟨hmade, _, hm', hl⟩⟩
    · rw [if_neg hroom]
      rw [BoundedList.append_full (Nat.le_of_not_lt hroom)] at hm' ⊢
      exact ⟨rfl, h.opens, h.objects, hlocks.trans h.locks, h.earlier, .inr ⟨hmade, _, hm', hl⟩⟩

theorem OpenStore.Serves.close (h : ω.Serves β) (object : Nat) : (ω.close object).2.Serves (β.close object).2 where
  opens := h.opens
  objects := by
    show β.objects.filter _ = _
    rw [h.objects, List.filter_map]
    rfl
  locks := by
    show ω.fs.locks.filter _ = _
    rw [h.locks]
    rfl
  earlier o ho := h.earlier o (List.mem_of_mem_filter ho)
  files := by
    rcases h.files with ⟨hmade, hitems, hv⟩ | ⟨hmade, l, hm, hl⟩
    · refine .inl ⟨hmade, hitems, ?_⟩
      show Vacant (ω.fs.release object)
      rw [hv.release]
      exact hv.withLocks
    · exact .inr ⟨hmade, l, hm.withLocks _, fun o ho => hl o (List.mem_of_mem_filter ho)⟩

theorem OpenStore.Serves.call (h : ω.Serves β) (c : JournalCall) :
    (ω.call c).1 = (β.call c).1 ∧ (ω.call c).2.Serves (β.call c).2 := by
  cases c with
  | openJournal => exact h.openJournal
  | openReader => exact h.openReader
  | load object => exact h.load object
  | append object event time => exact h.append object event time
  | close object => exact ⟨rfl, h.close object⟩

end

/-! ## Every sequence of calls -/

/-- The three artifacts of a store with the entries `es`, and what the next process reads of them. -/
structure Settled (s : Fs) (es : List JournalEntry) : Prop where
  artifacts : ∃ J C W, Shows s J C W ∧ PublishWitness.decode W = .ok ⟨es.length + 1, es.length + 1⟩ ∧
    CommitPoint.decode C maxJournalBytes = .ok ⟨es.length + 1, J.length, es.length, sha256 J⟩
  bound : es.length ≤ maxJournalEntries
  read : ∀ me, (coldRead.run.exec (Op.run me) (s.withLocks [])).1 = .ok es

theorem Mirrors.settled {l : Nat} {s : Fs} {j : MemoryJournal} (h : Mirrors l s j) : Settled s j.entries := by
  obtain ⟨owner, point, ⟨-, -, J, C, W, hs, hc⟩, -⟩ := h.store
  have hpoint : point = CommitPoint.forPrefix J j.entries.length := hc.point
  have hgen : point.generation = j.entries.length + 1 := hc.generation
  refine ⟨⟨J, C, W, hs, ?_, ?_⟩, hc.entries_le, fun me => ?_⟩
  · rw [← hgen]
    exact hc.witness
  · rw [hc.commit, hpoint]
    rfl
  · have ho : openReader.run.exec (Op.run me) _ = _ := (h.withLocks []).exec_openReader rfl
    unfold coldRead
    rw [exec_bind_ok ho]
    exact congrArg Prod.fst ((h.withLocks []).withLocks _).runs_load

def OpenStore.on (s : Fs) : OpenStore := ⟨s, 0, []⟩
def BoundedList.unmade : BoundedList := ⟨false, [], 0, []⟩

theorem Vacant.serves {s : Fs} (h : Vacant s) : (OpenStore.on s).Serves .unmade :=
  ⟨rfl, rfl, h.locks, fun _ ho => absurd ho List.not_mem_nil, .inl ⟨rfl, rfl, h⟩⟩

/-- On a path that names nothing, every sequence of opens, appends, loads and closes is answered as by the bounded list;
after each of them the artifacts are those of a clean store with exactly the entries of the list. -/
theorem store_refines_list {s : Fs} (h : Vacant s) (calls : List JournalCall) :
    (feed OpenStore.call calls (.on s)).1 = (feed BoundedList.call calls .unmade).1 ∧
      if (feed BoundedList.call calls .unmade).2.made then
        Settled (feed OpenStore.call calls (.on s)).2.fs (feed BoundedList.call calls .unmade).2.entries
      else Vacant (feed OpenStore.call calls (.on s)).2.fs := by
  obtain ⟨hanswers, hserves⟩ :=
    feed_simulates (R := OpenStore.Serves) (fun c _ _ hr => hr.call c) calls h.serves
  refine ⟨hanswers, ?_⟩
  rcases hserves.files with ⟨hmade, -, hv⟩ | ⟨hmade, l, hm, -⟩
  · rw [hmade]
    exact hv
  · rw [hmade]
    exact hm.settled

def sampleCalls : List JournalCall :=
  [.openReader, .openJournal, .append 1 sampleEntry.event sampleTime, .load 1, .openReader, .close 1, .openReader,
    .load 3]

end

open Sample in
theorem store_refines_list_sample :
    (feed OpenStore.call sampleCalls (.on emptyFs)).1 =
        [.opened (.error missingState), .opened (.ok 1), .appended (.ok sampleEntry), .loaded (.ok [sampleEntry]),
          .opened (.error .locked), .closed, .opened (.ok 3), .loaded (.ok [sampleEntry])] ∧
      Settled (feed OpenStore.call sampleCalls (.on emptyFs)).2.fs [sampleEntry] :=
  store_refines_list emptyFs_vacant sampleCalls

end Aizign
