import Aizign.StoreFresh
import Aizign.StoreCommitted
import Aizign.Cli
import Aizign.MemoryJournal

/-!
# The store is a journal in memory

Without failures, one process after another on a state path, each opening the
files anew: their responses are those of one journal kept in memory, which is
there from the first submission on.
-/

namespace Aizign

open Store

section
variable [SerdeJson]

/-! ## Requests one after the other -/

structure Job where
  pid : Nat
  clock : Except ClockError BoundedTimestamp
  kind : RequestKind

def Job.onFs (job : Job) (s : Fs) : ResponseBody × Fs :=
  let r := (executeRequest true job.clock job.kind).exec (Op.run job.pid) s
  (r.1, r.2.release job.pid)

def Job.onJournal (job : Job) (j : MemoryJournal) : ResponseBody × MemoryJournal :=
  match job.kind with
  | .hello => (.hello (helloInfo true), j)
  | .submitWorkflowSignal command =>
    let r := (handleWorkflowSignal command).exec (MemoryJournal.world job.clock).run j
    (submitBody r.1, r.2)
  | .reconcileWorkflowSignal signal =>
    let r := (reconcileSignal signal).exec (MemoryJournal.world (.error .outOfRange)).run j
    (reconcileBody signal r.1, r.2)

/-- What a reader finds of a state path that names nothing. -/
def missingState : JournalError := unavailableAt "cannot stat state directory: " notFound

/-- A store is made by the first submission, also by one that is then rejected. -/
def Job.onStore (job : Job) : Option MemoryJournal → ResponseBody × Option MemoryJournal
  | some j => ((job.onJournal j).1, some (job.onJournal j).2)
  | none =>
    match job.kind with
    | .hello => (.hello (helloInfo true), none)
    | .submitWorkflowSignal _ => ((job.onJournal .new).1, some (job.onJournal .new).2)
    | .reconcileWorkflowSignal signal => (reconcileBody signal (.error (.journal missingState)), none)

/-! ## A store and a journal -/

/-- The files of a store in which nothing is left unfinished hold the entries of `j`. -/
structure Mirrors (l : Nat) (s : Fs) (j : MemoryJournal) : Prop where
  store : ∃ owner point, CleanStore s owner l ⟨point, utf8 (streamText j.entries), j.entries⟩
  numbered : Numbered j.entries
  loads : j.loadFaults = []
  appends : j.appendFaults = []

theorem CleanStore.withLocks {s : Fs} {owner l : Nat} {snap : Snapshot} (h : CleanStore s owner l snap)
    (locks : List Lock) : CleanStore (s.withLocks locks) owner l snap := by
  obtain ⟨J, C, W, hs, hc⟩ := h.image
  refine ⟨⟨h.healthy.withLocks locks, h.lock, J, C, W, hs.withLocks locks, hc⟩, fun i hi => ?_⟩
  obtain ⟨hk, hu, hn, hm⟩ := h.temp i hi
  exact ⟨hk, hu, hn, hm⟩

section
variable {me l : Nat} {s : Fs} {j : MemoryJournal}

theorem Mirrors.withLocks (h : Mirrors l s j) (locks : List Lock) : Mirrors l (s.withLocks locks) j := by
  obtain ⟨owner, point, hc⟩ := h.store
  exact ⟨⟨owner, point, hc.withLocks locks⟩, h.numbered, h.loads, h.appends⟩

theorem CleanStore.published {owner : Nat} {point : CommitPoint} {es : List JournalEntry} (hn : Numbered es)
    (h : CleanStore s owner l ⟨point, utf8 (streamText es), es⟩) : Published s es := by
  obtain ⟨J, C, W, hs, hc⟩ := h.image
  have hJ : utf8 (streamText es) = J := hc.bytes
  have hpoint : point = CommitPoint.forPrefix (utf8 (streamText es)) es.length := by
    rw [hJ]
    exact hc.point
  refine ⟨hn, ⟨[], ?_⟩, C, hs.commit, ?_⟩
  · rw [List.append_nil, hJ]
    exact hs.journal
  · rw [← hpoint]
    exact hc.commit

theorem Mirrors.published (h : Mirrors l s j) : Published s j.entries := by
  obtain ⟨owner, point, hc⟩ := h.store
  exact hc.published h.numbered

theorem Mirrors.load_ok (h : Mirrors l s j) : j.loadCommitted.1 = .ok j.entries := by
  obtain ⟨owner, point, ⟨⟨-, -, J, C, W, -, hc⟩, -⟩⟩ := h.store
  have hle : j.entries.length ≤ maxJournalEntries := hc.entries_le
  unfold MemoryJournal.loadCommitted
  simp only [h.loads]
  rw [if_neg (by omega)]

theorem Mirrors.runs_load (h : Mirrors l s j) : Runs me (loadCommitted l) s (.ok j.entries) := by
  obtain ⟨owner, point, ⟨hready, hl, J, C, W, hs, hc⟩, -⟩ := h.store
  have hr : Runs me (loadCommitted l) s _ := runs_loadCommitted hready hs hl
  have hread : readerResult J C W = .ok j.entries := by
    rw [readerResult, hc.reads]
    rfl
  rwa [hread] at hr

theorem Mirrors.load_same (h : Mirrors l s j) : j.loadCommitted.2 = j := by
  unfold MemoryJournal.loadCommitted
  simp only [h.loads]
  split <;> rfl

theorem Mirrors.exec_append (h : Mirrors l s j) (me : Nat) (event : WorkflowEvent) (time : BoundedTimestamp) :
    ∃ t, (appendWithOps l event time).run.exec (Op.run me) s = ((j.append event time).1, t) ∧ t.locks = s.locks ∧
      Mirrors l t (j.append event time).2 := by
  have hpub := h.published
  obtain ⟨owner, point, hstore⟩ := h.store
  have himage := hstore.image
  obtain ⟨J, C, W, -, hc⟩ := himage
  have hgen : point.generation = j.entries.length + 1 := hc.generation
  have hle : j.entries.length ≤ maxJournalEntries := hc.entries_le
  unfold MemoryJournal.append
  simp only [h.appends]
  unfold MemoryJournal.store
  by_cases hfull : maxJournalEntries ≤ j.entries.length
  · rw [if_pos hfull]
    have hm : point.generation = maxJournalEntries + 1 := by omega
    exact ⟨s, exec_appendWithOps_full hstore hm, rfl, h⟩
  · rw [if_neg hfull]
    have hm : point.generation ≤ maxJournalEntries := by omega
    obtain ⟨t, ht, hlocks, hclean⟩ : ∃ t, (appendWithOps l event time).run.exec (Op.run me) s = _ ∧ t.locks = s.locks ∧
        CleanStore t owner l _ := exec_appendWithOps hstore hm rfl (hpub.fits (by omega) event time)
    rw [← streamText_snoc] at hclean
    exact ⟨t, ht, hlocks, ⟨owner, _, hclean⟩, h.numbered.snoc event time, h.loads, h.appends⟩

/-- The ports over the files answer as those over the journal. -/
theorem storePort_simulates (clock : Except ClockError BoundedTimestamp) (locks : List Lock) :
    Prog.Simulates (fun o s => (storePort clock l o).exec (Op.run me) s) (MemoryJournal.world clock).run (fun _ => True)
      fun s j => Mirrors l s j ∧ s.locks = locks := by
  rintro o - s j ⟨h, hlocks⟩
  cases o with
  | loadCommitted =>
    have hr : (storePort clock l .loadCommitted).exec (Op.run me) s = (j.loadCommitted.1, s) := by
      rw [h.load_ok]
      exact h.runs_load
    have hw : (MemoryJournal.world clock).run .loadCommitted j = (j.loadCommitted.1, j) := by
      show j.loadCommitted = _
      rw [Prod.ext_iff]
      exact ⟨rfl, h.load_same⟩
    beta_reduce
    rw [hr, hw]
    exact ⟨rfl, h, hlocks⟩
  | now => exact ⟨rfl, h, hlocks⟩
  | notify n => exact ⟨rfl, h, hlocks⟩
  | append event time =>
    obtain ⟨t, ht, hl, hm⟩ := h.exec_append me event time
    have hr : (storePort clock l (.append event time)).exec (Op.run me) s = ((j.append event time).1, t) := ht
    beta_reduce
    rw [hr]
    exact ⟨rfl, hm, hl.trans hlocks⟩

/-- A use case over the files answers as over the journal. -/
theorem Mirrors.exec_via (h : Mirrors l s j) (me : Nat) (clock : Except ClockError BoundedTimestamp) {α : Type}
    (p : EngineProg α) :
    ∃ t, (p.via (storePort clock l)).exec (Op.run me) s = ((p.exec (MemoryJournal.world clock).run j).1, t) ∧
      t.locks = s.locks ∧ Mirrors l t (p.exec (MemoryJournal.world clock).run j).2 := by
  obtain ⟨hr, hm, hl⟩ := (storePort_simulates clock s.locks).exec (Prog.uses_all p) ⟨h, rfl⟩
  rw [Prog.exec_via]
  exact ⟨_, Prod.ext hr rfl, hl, hm⟩

/-! ## Opens -/

omit [SerdeJson] in
theorem lockConflict_alone (h : s.locks = []) (exclusive : Bool) : s.lockConflict me l exclusive = false := by
  rw [Fs.lockConflict, h]
  rfl

omit [SerdeJson] in
theorem run_tryLock_alone (h : s.locks = []) (exclusive : Bool) :
    ((Op.tryLock l exclusive).run me s).2 = s.withLocks [⟨me, l, exclusive⟩] := by
  simp only [Op.run]
  rw [if_neg (by simp [lockConflict_alone h]), h]
  rfl

theorem Mirrors.exec_openWriter_free (h : Mirrors l s j) (hfree : s.lockConflict me l true = false) :
    openWriter.run.exec (Op.run me) s = (.ok l, ((Op.tryLock l true).run me s).2) := by
  obtain ⟨owner, point, ⟨hready, hlock, J, C, W, hs, hc⟩, -⟩ := h.store
  have hi : ∀ w, PublishWitness.decode W = .ok w → w.isInitializing = false := by
    intro w hw
    rw [hc.witness] at hw
    cases hw
    exact PublishWitness.clean_isInitializing _
  exact exec_openWriter_ok hready hs hlock hfree hc.readsAs.2 hi

theorem Mirrors.exec_openReader_free (h : Mirrors l s j) (hfree : s.lockConflict me l false = false) :
    openReader.run.exec (Op.run me) s = (.ok l, ((Op.tryLock l false).run me s).2) := by
  obtain ⟨owner, point, ⟨hready, hlock, J, C, W, hs, hc⟩, -⟩ := h.store
  exact Aizign.exec_openReader hready hs hlock hfree hc.commit

theorem Mirrors.exec_openWriter (h : Mirrors l s j) (hl : s.locks = []) :
    openWriter.run.exec (Op.run me) s = (.ok l, s.withLocks [⟨me, l, true⟩]) := by
  rw [← run_tryLock_alone hl true]
  exact h.exec_openWriter_free (lockConflict_alone hl true)

theorem Mirrors.exec_openReader (h : Mirrors l s j) (hl : s.locks = []) :
    openReader.run.exec (Op.run me) s = (.ok l, s.withLocks [⟨me, l, false⟩]) := by
  rw [← run_tryLock_alone hl false]
  exact h.exec_openReader_free (lockConflict_alone hl false)

theorem exec_openReader_vacant (h : Vacant s) : Runs me openReader s (.error missingState) := by
  have hdir : Runs me openExistingPrivateDir s (.error missingState) := by
    refine runs_bind (a := none) (runs_io ?_) runs_fail
    simp [Op.run, Fs.dirInfo, h.dir]
  exact runs_bind_error (runs_bind_error hdir)

omit [SerdeJson] in
/-- A process that took one lock leaves none. -/
theorem release_own {t : Fs} {exclusive : Bool} (h : t.locks = [⟨me, l, exclusive⟩]) :
    t.release me = t.withLocks [] := by
  rw [Fs.release, h]
  simp

theorem Healthy.opened (h : Healthy s s.uid) (hnone : ∀ n, s.entries n = none) (me : Nat) :
    Mirrors s.next (s.furnished me) .new ∧ (s.furnished me).locks = [⟨me, s.next, true⟩] := by
  have hf : CleanStore (s.furnished me) s.uid _ _ ∧ _ := Fs.furnished_clean h hnone
  obtain ⟨hclean, hlocks⟩ := hf
  refine ⟨⟨⟨s.uid, _, hclean⟩, fun i hi => ?_, rfl, rfl⟩, hlocks⟩
  exact absurd hi (Nat.not_lt_zero i)

theorem Vacant.opened (h : Vacant s) (me : Nat) :
    Mirrors (s.next + 1) (s.founded me) .new ∧ (s.founded me).locks = [⟨me, s.next + 1, true⟩] :=
  h.healthy.opened s.withDirectory_entries me

/-! ## One job -/

theorem Job.onFs_eq {t : Fs} {clock : Except ClockError BoundedTimestamp} {kind : RequestKind} {r : ResponseBody}
    (h : (executeRequest true clock kind).exec (Op.run me) s = (r, t)) :
    Job.onFs ⟨me, clock, kind⟩ s = (r, t.release me) := by
  unfold Job.onFs
  rw [h]

/-- A submission whose open went well. -/
theorem exec_submitStored {t : Fs} (clock : Except ClockError BoundedTimestamp) (command : Command)
    (ho : openWriter.run.exec (Op.run me) s = (.ok l, t)) (h : Mirrors l t j) :
    ∃ u, (submitStored clock command).exec (Op.run me) s =
        (((handleWorkflowSignal command).exec (MemoryJournal.world clock).run j).1, u) ∧ u.locks = t.locks ∧
      Mirrors l u ((handleWorkflowSignal command).exec (MemoryJournal.world clock).run j).2 := by
  obtain ⟨u, hu, hlocks, hm⟩ := h.exec_via me clock (handleWorkflowSignal command)
  refine ⟨u, ?_, hlocks, hm⟩
  unfold submitStored
  rw [Prog.exec_bind, ho]
  exact hu

theorem exec_submitRequest {t : Fs} (clock : Except ClockError BoundedTimestamp) (command : Command)
    (ho : openWriter.run.exec (Op.run me) s = (.ok l, t)) (h : Mirrors l t j) :
    ∃ u, (executeRequest true clock (.submitWorkflowSignal command)).exec (Op.run me) s =
        (submitBody ((handleWorkflowSignal command).exec (MemoryJournal.world clock).run j).1, u) ∧ u.locks = t.locks ∧
      Mirrors l u ((handleWorkflowSignal command).exec (MemoryJournal.world clock).run j).2 := by
  obtain ⟨u, hstored, hlocks, hm⟩ := exec_submitStored clock command ho h
  refine ⟨u, ?_, hlocks, hm⟩
  show (submitResponse clock command).exec (Op.run me) s = _
  unfold submitResponse
  rw [Prog.exec_bind, hstored]
  rfl

theorem exec_submitResponse {t : Fs} (clock : Except ClockError BoundedTimestamp) (command : Command)
    (ho : openWriter.run.exec (Op.run me) s = (.ok l, t)) (h : Mirrors l t j) (hl : t.locks = [⟨me, l, true⟩]) :
    (Job.onFs ⟨me, clock, .submitWorkflowSignal command⟩ s).1 =
        (Job.onJournal ⟨me, clock, .submitWorkflowSignal command⟩ j).1 ∧
      Mirrors l (Job.onFs ⟨me, clock, .submitWorkflowSignal command⟩ s).2
        (Job.onJournal ⟨me, clock, .submitWorkflowSignal command⟩ j).2 ∧
      (Job.onFs ⟨me, clock, .submitWorkflowSignal command⟩ s).2.locks = [] := by
  obtain ⟨u, hexec, hlocks, hm⟩ := exec_submitRequest clock command ho h
  rw [Job.onFs_eq hexec, release_own (hlocks.trans hl)]
  exact ⟨rfl, hm.withLocks [], rfl⟩

theorem Mirrors.job (h : Mirrors l s j) (hl : s.locks = []) (job : Job) :
    (job.onFs s).1 = (job.onJournal j).1 ∧ Mirrors l (job.onFs s).2 (job.onJournal j).2 ∧
      (job.onFs s).2.locks = [] := by
  obtain ⟨me, clock, kind⟩ := job
  cases kind with
  | hello =>
    have hrelease : s.release me = s.withLocks [] := by rw [Fs.release, hl]; rfl
    show _ ∧ Mirrors l (s.release me) j ∧ (s.release me).locks = []
    rw [hrelease]
    exact ⟨rfl, h.withLocks [], rfl⟩
  | submitWorkflowSignal command =>
    exact exec_submitResponse clock command (h.exec_openWriter hl) (h.withLocks _) rfl
  | reconcileWorkflowSignal signal =>
    obtain ⟨u, hu, hlocks, hm⟩ := (h.withLocks [⟨me, l, false⟩]).exec_via me (.error .outOfRange)
      (reconcileSignal signal)
    have hstored : (reconcileStored signal).exec (Op.run me) s =
        (((reconcileSignal signal).exec (MemoryJournal.world (.error .outOfRange)).run j).1, u) := by
      unfold reconcileStored
      rw [Prog.exec_bind, h.exec_openReader hl]
      exact hu
    have hexec : (executeRequest true clock (.reconcileWorkflowSignal signal)).exec (Op.run me) s =
        (reconcileBody signal ((reconcileSignal signal).exec (MemoryJournal.world (.error .outOfRange)).run j).1, u) := by
      show (reconcileResponse signal).exec (Op.run me) s = _
      unfold reconcileResponse
      rw [Prog.exec_bind, hstored]
      rfl
    rw [Job.onFs_eq hexec, release_own hlocks]
    exact ⟨rfl, hm.withLocks [], rfl⟩

def AtRest (s : Fs) : Option MemoryJournal → Prop
  | none => Vacant s
  | some j => (∃ l, Mirrors l s j) ∧ s.locks = []

omit [SerdeJson] in
theorem Vacant.release (h : Vacant s) (me : Nat) : s.release me = s.withLocks [] := by
  rw [Fs.release, h.locks]
  rfl

omit [SerdeJson] in
theorem Vacant.withLocks (h : Vacant s) : Vacant (s.withLocks []) := ⟨h.dir, h.parent, h.profile, rfl⟩

theorem AtRest.job {store : Option MemoryJournal} (h : AtRest s store) (job : Job) :
    (job.onFs s).1 = (job.onStore store).1 ∧ AtRest (job.onFs s).2 (job.onStore store).2 := by
  cases store with
  | some j =>
    obtain ⟨⟨l, hm⟩, hl⟩ := h
    obtain ⟨hr, hm', hl'⟩ := hm.job hl job
    exact ⟨hr, ⟨l, hm'⟩, hl'⟩
  | none =>
    replace h : Vacant s := h
    obtain ⟨me, clock, kind⟩ := job
    cases kind with
    | hello =>
      refine ⟨rfl, ?_⟩
      show Vacant (s.release me)
      rw [h.release]
      exact h.withLocks
    | submitWorkflowSignal command =>
      obtain ⟨hm, hlocks⟩ := h.opened me
      obtain ⟨hr, hm', hl'⟩ := exec_submitResponse clock command (exec_openWriter_vacant h) hm hlocks
      exact ⟨hr, ⟨_, hm'⟩, hl'⟩
    | reconcileWorkflowSignal signal =>
      have ho : openReader.run.exec (Op.run me) s = (.error missingState, s) := exec_openReader_vacant h
      have hexec : (executeRequest true clock (.reconcileWorkflowSignal signal)).exec (Op.run me) s =
          (reconcileBody signal (.error (.journal missingState)), s) := by
        show (reconcileResponse signal).exec (Op.run me) s = _
        unfold reconcileResponse reconcileStored
        rw [Prog.exec_bind, Prog.exec_bind, ho]
        rfl
      rw [Job.onFs_eq hexec, h.release]
      exact ⟨rfl, h.withLocks⟩

/-- On a path that names nothing, any sequence of requests without failures: the responses are those of a journal in
memory that is made by the first submission, and at the end the files hold that journal. -/
theorem fresh_path_serves_journal (h : Vacant s) (jobs : List Job) :
    (feed Job.onFs jobs s).1 = (feed Job.onStore jobs none).1 ∧
      AtRest (feed Job.onFs jobs s).2 (feed Job.onStore jobs none).2 :=
  feed_simulates (fun job _ _ hr => hr.job job) jobs (R := AtRest) (t := none) h

end

def emptyFs : Fs where
  dir := none
  parents := [some ⟨.directory, 0, 0o700, 1, 99⟩]
  entries _ := none
  inodes _ := artifactOf []
  next := 4
  locks := []
  device := 1
  profile := cleanProfile
  uid := 0
  umask := 0o022
  fresh := by
    intro n i h
    cases h

theorem newStore_mirrors : Mirrors 0 newStore .new :=
  ⟨⟨0, _, newStore_clean⟩, fun i hi => absurd hi (Nat.not_lt_zero i), rfl, rfl⟩

omit [SerdeJson] in
theorem emptyFs_vacant : Vacant emptyFs := ⟨rfl, ⟨_, rfl, rfl⟩, rfl, rfl⟩

def sampleJobs : List Job :=
  [⟨1, .error .outOfRange, .reconcileWorkflowSignal sampleSubmission⟩,
    ⟨2, .ok sampleTime, .submitWorkflowSignal sampleCommand⟩,
    ⟨3, .ok sampleTime, .submitWorkflowSignal sampleCommand⟩,
    ⟨4, .error .outOfRange, .reconcileWorkflowSignal sampleSubmission⟩]

end

open Sample in
theorem fresh_path_serves_sample :
    (feed Job.onFs sampleJobs emptyFs).1 =
      [reconcileBody sampleSubmission (.error (.journal missingState)),
        .workflowSignal ⟨.accepted, sampleSubmission.eventId⟩, .workflowSignal ⟨.duplicate, sampleSubmission.eventId⟩,
        .workflowSignalReconciliation ⟨.accepted, sampleSubmission.eventId⟩] ∧
      AtRest (feed Job.onFs sampleJobs emptyFs).2 (some ⟨[sampleEntry], [], []⟩) := by
  have h := fresh_path_serves_journal emptyFs_vacant sampleJobs
  have hstore : feed Job.onStore sampleJobs none =
      ([reconcileBody sampleSubmission (.error (.journal missingState)),
        .workflowSignal ⟨.accepted, sampleSubmission.eventId⟩, .workflowSignal ⟨.duplicate, sampleSubmission.eventId⟩,
        .workflowSignalReconciliation ⟨.accepted, sampleSubmission.eventId⟩], some ⟨[sampleEntry], [], []⟩) := by
    rfl
  rwa [hstore] at h

end Aizign
