import Aizign.StoreExecOpen

/-!
# Opening a store that is not there

Without failures the first open of a state path makes the directory, the lock,
an empty journal, the empty commit point and the clean witness of generation 1.
-/

namespace Aizign

open Store

/-- A state path that names nothing, in a directory of a supported file system; nobody holds a lock. -/
structure Vacant (s : Fs) : Prop where
  dir : s.dir = none
  parent : ∃ p, s.dirInfo (.parent 0) = some p ∧ p.kind = .directory
  profile : validateObservation s.profile = .ok ()
  locks : s.locks = []

def Fs.withDirectory (s : Fs) : Fs := { s.mkdir with dir := some ⟨.directory, s.uid, 0o700, s.device, s.next⟩ }

section
variable {me : Nat} {s : Fs}

theorem Fs.withDirectory_entries (s : Fs) (n : Name) : s.withDirectory.entries n = none := rfl

theorem Vacant.healthy (h : Vacant s) : Healthy s.withDirectory s.uid where
  dir := ⟨_, rfl, rfl, show 0o700 &&& 0o7777 = 0o700 by decide, rfl⟩
  tidy := fun m n i hm _ => by cases hm
  plain := fun n i _ hi => by cases hi
  owned := rfl
  profile := h.profile

theorem runs_nearestExistingParent {p : DirInfo} (hp : s.dirInfo (.parent 0) = some p) (hk : p.kind = .directory) :
    Runs me (nearestExistingParent maxPathDepth 0) s (.ok (.parent 0)) := by
  unfold maxPathDepth nearestExistingParent
  refine runs_bind (a := some p) (runs_io (by simp [Op.run, hp])) ?_
  exact runs_ite_pos hk runs_pure

theorem exec_createStateDirectory (h : Vacant s) :
    createStateDirectory.run.exec (Op.run me) s = (.ok s.profile, s.withDirectory) := by
  obtain ⟨p, hp, hk⟩ := h.parent
  refine (exec_bind_ok (runs_nearestExistingParent hp hk)).trans ((exec_bind_ok (runs_openDirectoryNoFollow hp hk)).trans ?_)
  refine (exec_bind_ok (runs_qualifyDirectory h.profile _)).trans ?_
  have hmkdir : (Op.mkdir).run me s = (.ok (), s.mkdir) := by
    simp [Op.run, h.dir, hp, hk]
  refine (exec_bind_ok (exec_io_ok hmkdir)).trans ?_
  refine (exec_bind_ok (a := ()) (t := s.withDirectory) (exec_io_run rfl rfl)).trans ?_
  refine (exec_bind_ok (runs_openExistingPrivateDir h.healthy.dir)).trans ?_
  refine (exec_bind_ok (runs_qualifyDirectory (s := s.withDirectory) h.profile _)).trans ?_
  refine (exec_bind_ok (runs_requireSameProfile (s := s.withDirectory) h.profile _)).trans ?_
  refine (exec_bind_ok (a := ()) (exec_io_run rfl rfl)).trans ?_
  exact exec_bind_ok (a := ()) (exec_io_run rfl rfl)

theorem exec_ensureStateDirectory_vacant (h : Vacant s) :
    ensureStateDirectory.run.exec (Op.run me) s = (.ok s.profile, s.withDirectory) := by
  refine (exec_bind_ok (a := none) (t := s) (exec_io_ok (by simp [Op.run, Fs.dirInfo, h.dir]))).trans ?_
  exact exec_createStateDirectory h

/-- The files after a first open in an empty directory. -/
def Fs.furnished (s : Fs) (me : Nat) : Fs :=
  (((s.created .lock).withLocks [⟨me, s.next, true⟩]).created .journal).initialized

def Fs.founded (s : Fs) (me : Nat) : Fs := s.withDirectory.furnished me

theorem leads_holding {α : Type} {p q : Store α} {s t : Fs} (h : Leads me p s q t) (l : Nat) :
    Leads me (holding l p) s (holding l q) t := Prog.Steps.bind h _

/-- The files of a first open before the witness is made. -/
def Fs.unwitnessed (s : Fs) (me : Nat) : Fs :=
  (((s.created .lock).withLocks [⟨me, s.next, true⟩]).created .journal).published CommitPoint.empty

theorem leads_openArtifacts_bare [SerdeJson] (h : Healthy s s.uid) (hnone : ∀ n, s.entries n = none) (hl : s.locks = []) :
    Leads me (openArtifacts s.profile) s (holding s.next (initializeWitness s.profile) >>= fun _ => pure s.next)
      (s.unwitnessed me) := by
  have h₁ := h.created .lock
  have hseen : Runs me seenArtifacts s (.ok ⟨false, false, false, false⟩) := by
    have hr : Runs me _ _ _ := runs_seenArtifacts h.dir
    rwa [hnone, hnone, hnone, hnone] at hr
  refine (leads_bind hseen).trans ?_
  refine (leads_bind (exec_openPrivateWritableFile_new h (hnone .lock) (by decide) false)).trans ?_
  refine (leads_bind (runs_requireSameProfile h₁.profile _)).trans ?_
  have hlocks : (s.created .lock).locks = [] := hl
  have hfree : (s.created .lock).lockConflict me s.next true = false := by
    rw [Fs.lockConflict, hlocks]
    rfl
  have hlock : ((Op.tryLock s.next true).run me (s.created .lock)).2 =
      (s.created .lock).withLocks [⟨me, s.next, true⟩] := by
    simp [Op.run, hfree, hlocks]
  refine (leads_bind (exec_acquireExclusive hfree)).trans ?_
  rw [hlock]
  refine (leads_holding ?_ s.next).bind _
  have h₂ := h₁.withLocks [⟨me, s.next, true⟩]
  have hnew (n : Name) (hn : n ≠ .lock) : ((s.created .lock).withLocks [⟨me, s.next, true⟩]).entries n = none := by
    show (s.created .lock).entries n = none
    rw [Fs.created_entries, if_neg hn, hnone]
  refine (leads_bind (a := ()) (exec_io_run rfl rfl)).trans ?_
  refine (leads_bind (exec_openPrivateWritableFile_new h₂ (hnew .journal (by decide)) (by decide) true)).trans ?_
  have h₃ := h₂.created .journal
  refine (leads_bind (runs_requireSameProfile h₃.profile _)).trans ?_
  have htemp : (((s.created .lock).withLocks [⟨me, s.next, true⟩]).created .journal).entries .commitTemp = none := by
    rw [Fs.created_entries, if_neg (by decide), hnew .commitTemp (by decide)]
  exact leads_initializeFreshStore (h₃.ready htemp) _ _

theorem exec_openArtifacts_bare [SerdeJson] (h : Healthy s s.uid) (hnone : ∀ n, s.entries n = none) (hl : s.locks = []) :
    (openArtifacts s.profile).run.exec (Op.run me) s = (.ok s.next, s.furnished me) := by
  refine (leads_openArtifacts_bare h hnone hl).exec.trans (exec_bind_ok (a := ()) (exec_holding_ok ?_))
  have hmade := ((h.created .lock).withLocks [⟨me, s.next, true⟩]).created .journal
  exact exec_initializeWitness_published hmade (hnone .publish)

theorem exec_openWriter_bare [SerdeJson] (h : Healthy s s.uid) (hnone : ∀ n, s.entries n = none) (hl : s.locks = []) :
    openWriter.run.exec (Op.run me) s = (.ok s.next, s.furnished me) := by
  obtain ⟨info, hdir, -⟩ := h.dir.dir
  have hensure : Runs me ensureStateDirectory s (.ok s.profile) := by
    refine runs_bind (a := some info) (runs_io (by simp [Op.run, Fs.dirInfo, hdir])) ?_
    exact runs_bind (runs_openExistingPrivateDir h.dir) (runs_qualifyDirectory h.profile _)
  exact (exec_bind_ok hensure).trans (exec_openArtifacts_bare h hnone hl)

theorem exec_openWriter_vacant [SerdeJson] (h : Vacant s) :
    openWriter.run.exec (Op.run me) s = (.ok (s.next + 1), s.founded me) :=
  (exec_bind_ok (exec_ensureStateDirectory_vacant h)).trans
    (exec_openArtifacts_bare h.healthy s.withDirectory_entries h.locks)

/-- Initialization of a directory with a lock and an empty journal makes a clean store without entries. -/
theorem Fs.initialized_clean [SerdeJson] {owner l : Nat} (h : Ready s owner) (hj : s.image .journal = some [])
    (hl : s.entries .lock = some l) : CleanStore s.initialized owner l ⟨CommitPoint.empty, [], []⟩ := by
  have hpub : Healthy (s.published CommitPoint.empty) owner := h.toHealthy.renamed _
  have hmade := hpub.created .publish
  have hp : ((s.published CommitPoint.empty).created .publish).entries .publish =
      some (s.published CommitPoint.empty).next := rfl
  -- the witness is a new file, the other names keep theirs
  have hold : ∀ n, n ≠ .publish → s.initialized.image n = (s.published CommitPoint.empty).image n := by
    intro n hn
    rw [Fs.initialized, Fs.image_setContent_ne (hmade.tidy.ne hp hn), Fs.image_created_ne hn]
  refine ⟨⟨hmade.setContent _ _, ?_, _, _, _, ⟨?_, ?_, Fs.image_setContent_same hp _⟩, cleanImage_empty⟩, fun i hi => ?_⟩
  · exact (Fs.renamed_entries CommitPoint.empty.encode (by decide) (by decide)).trans hl
  · rw [hold _ (by decide), Fs.published, Fs.image_rename (by decide), if_neg (by decide),
      Fs.image_withTemp (by decide), hj]
  · obtain ⟨he, hc⟩ := s.published_commit CommitPoint.empty
    rw [hold _ (by decide), Fs.image, he, Option.map_some, hc]
  · cases hi

/-- A new store is clean, empty and locked by its maker. -/
theorem Fs.furnished_clean [SerdeJson] (h : Healthy s s.uid) (hnone : ∀ n, s.entries n = none) :
    CleanStore (s.furnished me) s.uid s.next ⟨CommitPoint.empty, [], []⟩ ∧
      (s.furnished me).locks = [⟨me, s.next, true⟩] := by
  have hmade := ((h.created .lock).withLocks [⟨me, s.next, true⟩]).created .journal
  have htemp : (((s.created .lock).withLocks [⟨me, s.next, true⟩]).created .journal).entries .commitTemp = none :=
    hnone .commitTemp
  refine ⟨Fs.initialized_clean (hmade.ready htemp) (Fs.image_created _) rfl, ?_⟩
  show Fs.locks (Fs.withoutTemp _) = _
  unfold Fs.withoutTemp
  split <;> rfl

end

end Aizign
