import Aizign.StoreClassify
import Aizign.StoreRuns

/-!
# Store operations without failures

Cold reads, appends and opens on healthy files: metadata in order, the process
owns the state directory, the storage profile qualifies.
-/

namespace Aizign

open Store

structure Healthy (s : Fs) (owner : Nat) : Prop extends Orderly s owner where
  owned : s.uid = owner
  profile : validateObservation s.profile = .ok ()

theorem Healthy.withLocks {s : Fs} {owner : Nat} (h : Healthy s owner) (l : List Lock) : Healthy (s.withLocks l) owner :=
  ⟨h.toOrderly.withLocks l, h.owned, h.profile⟩

theorem Shows.inodes {s : Fs} {J C W : Bytes} (h : Shows s J C W) :
    ∃ j c p, s.entries .journal = some j ∧ s.entries .commit = some c ∧ s.entries .publish = some p ∧
      s.content j = J ∧ s.content c = C ∧ s.content p = W := by
  obtain ⟨j, hj, hJ⟩ := Option.map_eq_some_iff.mp h.journal
  obtain ⟨c, hc, hC⟩ := Option.map_eq_some_iff.mp h.commit
  obtain ⟨p, hp, hW⟩ := Option.map_eq_some_iff.mp h.publish
  exact ⟨j, c, p, hj, hc, hp, hJ, hC, hW⟩

section
variable {me : Nat} {s : Fs} {owner l : Nat} {J C W : Bytes}

/-! ## Reading -/

theorem runs_revalidateLock (hv : validateObservation s.profile = .ok ()) (hl : PrivateFile s .lock l) :
    Runs me (revalidateLock l s.profile) s (.ok ()) := by
  refine runs_bind (runs_openPrivateReadFile hl) (runs_bind (runs_requireSameProfile hv _) ?_)
  refine runs_bind (runs_requireSameProfile hv _) (runs_bind (runs_openedIdentity _) ?_)
  exact runs_bind (runs_openedIdentity _) (runs_ite_neg (by simp) runs_pure)

theorem runs_readSnapshot_shows [SerdeJson] (h : Healthy s owner) (hs : Shows s J C W) :
    Runs me (readSnapshot s.profile) s (readImage J C W) := by
  obtain ⟨j, c, p, hj, hc, hp, rfl, rfl, rfl⟩ := hs.inodes
  exact runs_readSnapshot h.profile (h.privateFile (by decide) hj) (h.privateFile (by decide) hc)
    (h.privateFile (by decide) hp)

theorem runs_loadCommitted [SerdeJson] (h : Healthy s owner) (hs : Shows s J C W) (hl : s.entries .lock = some l) :
    Runs me (loadCommitted l) s (readerResult J C W) := by
  refine runs_bind (runs_openExistingPrivateDir h.dir) (runs_bind (runs_qualifyDirectory h.profile _) ?_)
  refine runs_bind (runs_revalidateLock h.profile (h.privateFile (by decide) hl)) ?_
  have hr : Runs me _ s _ := runs_readSnapshot_shows h hs
  unfold readerResult
  cases hi : readImage J C W with
  | error e => rw [hi] at hr; exact runs_bind_error hr
  | ok snap => rw [hi] at hr; exact runs_bind hr runs_pure

theorem exec_acquireShared (h : s.lockConflict me l false = false) :
    (acquireShared l).run.exec (Op.run me) s = (.ok (), ((Op.tryLock l false).run me s).2) := by
  refine (exec_bind_ok (a := true) (exec_io_ok (t := ((Op.tryLock l false).run me s).2) ?_)).trans rfl
  simp [Op.run, h]

theorem exec_acquireExclusive (h : s.lockConflict me l true = false) :
    (acquireExclusive l).run.exec (Op.run me) s = (.ok (), ((Op.tryLock l true).run me s).2) := by
  refine (exec_bind_ok (a := true) (exec_io_ok (t := ((Op.tryLock l true).run me s).2) ?_)).trans rfl
  simp [Op.run, h]

theorem runs_acquireExclusive_locked (h : s.lockConflict me l true = true) :
    Runs me (acquireExclusive l) s (.error .locked) := by
  refine runs_bind (a := false) (runs_io ?_) runs_fail
  simp [Op.run, h]

theorem runs_acquireShared_locked (h : s.lockConflict me l false = true) :
    Runs me (acquireShared l) s (.error .locked) := by
  refine runs_bind (a := false) (runs_io ?_) runs_fail
  simp [Op.run, h]

theorem tryLock_withLocks (me l : Nat) (ex : Bool) (s : Fs) :
    ∃ k, ((Op.tryLock l ex).run me s).2 = s.withLocks k := by
  simp only [Op.run]
  split
  · exact ⟨s.locks, rfl⟩
  · exact ⟨_, rfl⟩

/-- What a reader does before it takes the lock ends with the lock file, or with the commit's error. -/
theorem runs_openReaderUnlocked [SerdeJson] (h : Healthy s owner) (hs : Shows s J C W) (hl : s.entries .lock = some l) :
    Runs me openReaderUnlocked s ((CommitPoint.decode C maxJournalBytes).map fun _ => l) := by
  obtain ⟨j, c, p, hj, hc, hp, rfl, rfl, rfl⟩ := hs.inodes
  have hprofile := fun t => (runs_requireSameProfile h.profile t : Runs me _ s _)
  refine runs_bind (runs_openExistingPrivateDir h.dir) (runs_bind (runs_qualifyDirectory h.profile _) ?_)
  refine runs_bind (runs_requireExistingPath h.dir hl _) (runs_bind (runs_requireExistingPath h.dir hj _) ?_)
  refine runs_bind (runs_requireExistingPath h.dir hc _) ?_
  refine runs_bind (runs_openPrivateReadFile (h.privateFile (by decide) hl)) (runs_bind (hprofile _) ?_)
  refine runs_bind (runs_openPrivateReadFile (h.privateFile (by decide) hj)) (runs_bind (hprofile _) ?_)
  refine runs_bind (runs_openPrivateReadFile (h.privateFile (by decide) hc)) (runs_bind (hprofile _) ?_)
  have hr : Runs me _ s _ := runs_readCommitPoint c
  cases hd : CommitPoint.decode (s.content c) maxJournalBytes with
  | error e => rw [hd] at hr; exact runs_bind_error hr
  | ok point =>
    rw [hd] at hr
    refine runs_bind hr (runs_bind (runs_requireExistingPath h.dir hp _) ?_)
    exact runs_bind (runs_openPrivateReadFile (h.privateFile (by decide) hp)) (runs_bind (hprofile _) runs_pure)

def coldRead [SerdeJson] : Store (List JournalEntry) := openReader >>= loadCommitted

def coldWriterRead [SerdeJson] : Store (List JournalEntry) := openWriter >>= loadCommitted

theorem readerResult_commit [SerdeJson] {e : JournalError} (h : CommitPoint.decode C maxJournalBytes = .error e) :
    readerResult J C W = .error e := by
  simp [readerResult, readImage, h, bind, Except.bind, Except.map]

theorem exec_openReader [SerdeJson] (h : Healthy s owner) (hs : Shows s J C W) (hl : s.entries .lock = some l)
    (hfree : s.lockConflict me l false = false) {point : CommitPoint}
    (hd : CommitPoint.decode C maxJournalBytes = .ok point) :
    openReader.run.exec (Op.run me) s = (.ok l, ((Op.tryLock l false).run me s).2) := by
  have hr : Runs me _ s _ := runs_openReaderUnlocked h hs hl
  rw [hd] at hr
  exact (exec_bind_ok hr).trans (exec_bind_ok (exec_acquireShared hfree))

theorem exec_openReader_locked [SerdeJson] (h : Healthy s owner) (hs : Shows s J C W) (hl : s.entries .lock = some l)
    (hbusy : s.lockConflict me l false = true) {point : CommitPoint}
    (hd : CommitPoint.decode C maxJournalBytes = .ok point) :
    openReader.run.exec (Op.run me) s = (.error .locked, s) := by
  have hr : Runs me _ s _ := runs_openReaderUnlocked h hs hl
  rw [hd] at hr
  exact (exec_bind_ok hr).trans (exec_bind_error (runs_acquireShared_locked hbusy))

/-- Without failures a cold read is the image it finds. -/
theorem exec_coldRead [SerdeJson] (h : Healthy s owner) (hs : Shows s J C W) (hl : s.entries .lock = some l)
    (hfree : s.lockConflict me l false = false) : (coldRead.run.exec (Op.run me) s).1 = readerResult J C W := by
  cases hd : CommitPoint.decode C maxJournalBytes with
  | error e =>
    have hr : Runs me _ s _ := runs_openReaderUnlocked h hs hl
    rw [hd] at hr
    rw [readerResult_commit hd]
    exact congrArg Prod.fst (exec_bind_error (exec_bind_error hr))
  | ok point =>
    obtain ⟨k, hk⟩ := tryLock_withLocks me l false s
    have ho := exec_openReader h hs hl hfree hd
    rw [hk] at ho
    exact congrArg Prod.fst ((exec_bind_ok ho).trans (runs_loadCommitted (h.withLocks k) (hs.withLocks k) hl))

/-! ## Opening an existing store -/

theorem runs_ensureStateDirectory (h : Healthy s owner) : Runs me ensureStateDirectory s (.ok s.profile) := by
  obtain ⟨d, hd, -⟩ := h.dir.dir
  refine runs_bind (a := some d) (runs_io (by simp [Op.run, Fs.dirInfo, hd])) (runs_ite_pos rfl ?_)
  exact runs_bind (runs_openExistingPrivateDir h.dir) (runs_qualifyDirectory h.profile _)

theorem runs_seenArtifacts (hd : PrivateDir s owner) :
    Runs me seenArtifacts s (.ok ⟨(s.entries .lock).isSome, (s.entries .journal).isSome, (s.entries .commit).isSome,
      (s.entries .publish).isSome⟩) :=
  runs_bind (runs_pathEntryExists hd _) (runs_bind (runs_pathEntryExists hd _) (runs_bind (runs_pathEntryExists hd _)
    (runs_bind (runs_pathEntryExists hd _) runs_pure)))

theorem runs_resumeOrValidateExisting [SerdeJson] (h : Healthy s owner) (hs : Shows s J C W)
    (hi : ∀ w, PublishWitness.decode W = .ok w → w.isInitializing = false) :
    Runs me (resumeOrValidateExisting s.profile) s (validateImage J C W) := by
  obtain ⟨j, c, p, hj, hc, hp, rfl, rfl, rfl⟩ := id hs.inodes
  have hprofile := fun t => (runs_requireSameProfile h.profile t : Runs me _ s _)
  unfold validateImage
  refine runs_bind (runs_openPrivateReadFile (h.privateFile (by decide) hc)) (runs_bind (hprofile _) ?_)
  have hr : Runs me _ s _ := runs_readCommitPoint c
  cases hd : CommitPoint.decode (s.content c) maxJournalBytes with
  | error e => rw [hd] at hr; exact runs_bind_error hr
  | ok point =>
    rw [hd] at hr
    refine runs_bind hr ?_
    refine runs_bind (runs_openPrivateWritableFile (h.privateFile (by decide) hp) _) (runs_bind (hprofile _) ?_)
    have hrw : Runs me _ s _ := runs_readPublishWitness p
    cases hw : PublishWitness.decode (s.content p) with
    | error e => rw [hw] at hrw; exact runs_bind_error hrw
    | ok w =>
      rw [hw] at hrw
      refine runs_bind hrw (runs_ite_neg (by simp [hi w hw]) ?_)
      show Runs me _ s (if w.isPreparedSuccessor = true then _ else _)
      by_cases hp : w.isPreparedSuccessor = true
      · rw [if_pos hp, if_pos hp]
        cases hrel : requirePreparedCommitRelation w point with
        | error e => exact runs_bind_error runs_fromExcept
        | ok u =>
          refine runs_bind (a := ()) runs_fromExcept ?_
          refine runs_bind (runs_mapErr (runs_openPrivateReadFile (h.privateFile (by decide) hj))) ?_
          refine runs_bind (runs_mapErr (hprofile _)) ?_
          have hvp : Runs me _ s _ := runs_validatePreparedCommitPrefix j point w
          cases hcp : checkPreparedImage (s.content j) point w with
          | error e => rw [hcp] at hvp; exact runs_bind_error hvp
          | ok u => rw [hcp] at hvp; exact runs_bind hvp runs_fail
      · rw [if_neg hp, if_neg hp]
        have hsnap : Runs me _ s _ := runs_readSnapshot_shows h hs
        cases hi : readImage (s.content j) (s.content c) (s.content p) with
        | error e => rw [hi] at hsnap; exact runs_bind_error hsnap
        | ok snap => rw [hi] at hsnap; exact runs_bind hsnap runs_pure

theorem runs_openLocked [SerdeJson] (h : Healthy s owner) (hs : Shows s J C W)
    (hi : ∀ w, PublishWitness.decode W = .ok w → w.isInitializing = false) :
    Runs me (openLocked ⟨true, true, true, true⟩ s.profile l) s (validateImage J C W) := by
  obtain ⟨j, c, p, hj, hc, hp, rfl, rfl, rfl⟩ := id hs.inodes
  have hprofile := fun t => (runs_requireSameProfile h.profile t : Runs me _ s _)
  refine runs_bind (a := ()) (runs_io rfl) ?_
  refine runs_bind (runs_openPrivateWritableFile (h.privateFile (by decide) hj) _) (runs_bind (hprofile _) ?_)
  refine runs_ite_pos rfl ?_
  refine runs_bind (runs_openPrivateReadFile (h.privateFile (by decide) hc)) (runs_bind (hprofile _) ?_)
  have hr : Runs me _ s _ := runs_readCommitPoint c
  cases hd : CommitPoint.decode (s.content c) maxJournalBytes with
  | error e =>
    rw [hd] at hr
    rw [show validateImage (s.content j) (s.content c) (s.content p) = .error e by
      simp [validateImage, hd, bind, Except.bind]]
    exact runs_bind_error hr
  | ok point =>
    rw [hd] at hr
    exact runs_bind hr (runs_ite_pos rfl (runs_resumeOrValidateExisting h hs hi))

theorem exec_holding_ok {α : Type} {p : Store α} {s s' : Fs} {a : α}
    (hp : p.run.exec (Op.run me) s = (.ok a, s')) : (holding l p).run.exec (Op.run me) s = (.ok a, s') := by
  have h : (holding l p).run.exec (Op.run me) s = _ := Prog.exec_bind p.run _ s
  rw [hp] at h
  exact h

theorem exec_holding_error {α : Type} {p : Store α} {s s' : Fs} {e : JournalError}
    (hp : p.run.exec (Op.run me) s = (.error e, s')) :
    (holding l p).run.exec (Op.run me) s = (.error e, ((Op.unlock l).run me s').2) := by
  have h : (holding l p).run.exec (Op.run me) s = _ := Prog.exec_bind p.run _ s
  rw [hp] at h
  exact h

/-- What a writer open does before it takes the lock of an existing store. -/
theorem exec_openWriter_existing [SerdeJson] (h : Healthy s owner) (hs : Shows s J C W) (hl : s.entries .lock = some l)
    {r : Except JournalError Nat × Fs}
    (hr : (acquireExclusive l >>= fun _ => holding l (openLocked ⟨true, true, true, true⟩ s.profile l) >>=
      fun _ => pure l : Store Nat).run.exec (Op.run me) s = r) : openWriter.run.exec (Op.run me) s = r := by
  obtain ⟨j, c, p, hj, hc, hp, -, -, -⟩ := hs.inodes
  have hseen : Runs me seenArtifacts s (.ok ⟨true, true, true, true⟩) := by
    have : Runs me _ s _ := runs_seenArtifacts h.dir
    rwa [hl, hj, hc, hp] at this
  refine (exec_bind_ok (runs_ensureStateDirectory h)).trans ((exec_bind_ok hseen).trans ?_)
  refine (exec_bind_ok (runs_openPrivateWritableFile (h.privateFile (by decide) hl) _)).trans ?_
  exact (exec_bind_ok (runs_requireSameProfile h.profile _)).trans hr

theorem exec_openWriter_locked [SerdeJson] (h : Healthy s owner) (hs : Shows s J C W) (hl : s.entries .lock = some l)
    (hbusy : s.lockConflict me l true = true) : openWriter.run.exec (Op.run me) s = (.error .locked, s) :=
  exec_openWriter_existing h hs hl (exec_bind_error (runs_acquireExclusive_locked hbusy))

theorem exec_openWriter_ok [SerdeJson] (h : Healthy s owner) (hs : Shows s J C W) (hl : s.entries .lock = some l)
    (hfree : s.lockConflict me l true = false) (hv : validateImage J C W = .ok ())
    (hi : ∀ w, PublishWitness.decode W = .ok w → w.isInitializing = false) :
    openWriter.run.exec (Op.run me) s = (.ok l, ((Op.tryLock l true).run me s).2) := by
  refine exec_openWriter_existing h hs hl ((exec_bind_ok (exec_acquireExclusive hfree)).trans ?_)
  obtain ⟨k, hk⟩ := tryLock_withLocks me l true s
  rw [hk]
  have hr : Runs me _ _ _ := runs_openLocked (l := l) (h.withLocks k) (hs.withLocks k) hi
  rw [hv] at hr
  exact exec_bind_ok (exec_holding_ok hr)

/-- Without failures a writer open and a load are the image they find, unless that is (1,0). -/
theorem exec_coldWriterRead [SerdeJson] (h : Healthy s owner) (hs : Shows s J C W) (hl : s.entries .lock = some l)
    (hfree : s.lockConflict me l true = false) (hi : ∀ w, PublishWitness.decode W = .ok w → w.isInitializing = false) :
    (coldWriterRead.run.exec (Op.run me) s).1 = writerResult J C W := by
  unfold writerResult
  cases hv : validateImage J C W with
  | error e =>
    obtain ⟨k, hk⟩ := tryLock_withLocks me l true s
    have hr : Runs me _ _ _ := runs_openLocked (l := l) (h.withLocks k) (hs.withLocks k) hi
    rw [hv] at hr
    have hlock := exec_acquireExclusive hfree
    rw [hk] at hlock
    have ho : openWriter.run.exec (Op.run me) s = _ := exec_openWriter_existing h hs hl
      ((exec_bind_ok hlock).trans (exec_bind_error (exec_holding_error hr)))
    exact congrArg Prod.fst (exec_bind_error ho)
  | ok u =>
    obtain ⟨k, hk⟩ := tryLock_withLocks me l true s
    have ho := exec_openWriter_ok h hs hl hfree hv hi
    rw [hk] at ho
    exact congrArg Prod.fst ((exec_bind_ok ho).trans (runs_loadCommitted (h.withLocks k) (hs.withLocks k) hl))

end

end Aizign
