import Aizign.StoreExecAppend

/-!
# A first open without failures

Where there is no state directory, a writer open creates it with its artifacts
and initializes them; without failures it ends with a clean store that has no
entries and with the lock held.
-/

namespace Aizign

open Store

def Fs.created (s : Fs) (n : Name) : Fs := (s.create n).private_ s.next

section
variable {me : Nat} {s : Fs} {owner : Nat}

theorem Fs.created_entries (s : Fs) (n m : Name) :
    (s.created n).entries m = if m = n then some s.next else s.entries m := rfl

theorem Fs.created_content (s : Fs) (n : Name) : (s.created n).content s.next = [] := by
  simp [Fs.created, Fs.content_create]

theorem Fs.image_created_ne {m n : Name} (h : n ≠ m) : (s.created m).image n = s.image n := by
  rw [Fs.created, Fs.image_private, Fs.image_create_ne h]

theorem Fs.image_created (n : Name) : (s.created n).image n = some [] := by
  rw [Fs.created, Fs.image_private, Fs.image_create_same]

theorem Fs.inodes_created (s : Fs) (n : Name) (i : Nat) :
    (s.created n).inodes i = if i = s.next then ⟨.file, [], s.uid, 0o600, 0⟩ else s.inodes i := by
  by_cases hi : i = s.next <;> simp [Fs.created, Fs.private_, Fs.setInode, Fs.create, hi]

theorem Healthy.created (h : Healthy s owner) (n : Name) : Healthy (s.created n) owner := by
  refine ⟨⟨⟨h.dir.dir⟩, (h.tidy.create n).private_ s.next, fun m i hm hi => ?_⟩, h.owned, h.profile⟩
  rw [Fs.created_entries] at hi
  by_cases hmn : m = n
  · rw [if_pos hmn] at hi
    constructor <;> rw [Fs.inodes_created, if_pos (Option.some.inj hi).symm]
    · exact h.owned
    · show 0o600 &&& 0o7777 = 0o600
      decide
  · rw [if_neg hmn] at hi
    have hp := h.plain m i hm hi
    have hne : i ≠ s.next := Nat.ne_of_lt (s.fresh m i hi)
    constructor <;> rw [Fs.inodes_created, if_neg hne]
    · exact hp.kind
    · exact hp.uid
    · exact hp.mode
    · exact hp.links

theorem Healthy.ready (h : Healthy s owner) (ht : s.entries .commitTemp = none) : Ready s owner :=
  ⟨h, fun i hi => by rw [ht] at hi; cases hi⟩

theorem exec_openPrivateWritableFile_new (h : Healthy s owner) {n : Name} (hn : s.entries n = none)
    (ht : n ≠ .commitTemp) (append : Bool) :
    (openPrivateWritableFile n true append).run.exec (Op.run me) s = (.ok s.next, s.created n) := by
  have hpath : Runs me (pathEntryExists n) s (.ok false) := by
    have hr : Runs me (pathEntryExists n) s _ := runs_pathEntryExists h.dir n
    rwa [hn] at hr
  have hopen : (Op.openWritable n true append).run me s = (.ok s.next, s.create n) := by
    obtain ⟨d, hd, -⟩ := h.dir.dir
    simp [Op.run, hn, hd]
  have hfile := (h.created n).privateFile ht (s.created_entries n n ▸ if_pos rfl)
  obtain ⟨-, o, hd, hi⟩ := hfile
  obtain rfl := hd.unique (h.created n).dir
  refine (exec_bind_ok (runs_privateParentOwner h.dir)).trans ((exec_bind_ok hpath).trans ?_)
  refine (exec_bind_ok (exec_io_ok hopen)).trans ?_
  refine (exec_bind_ok (a := ()) (exec_io_run rfl rfl)).trans ?_
  refine (exec_bind_ok (a := ()) (t := s.created n) (exec_io_run rfl rfl)).trans ?_
  exact exec_bind_ok (runs_checkOpenedPrivateFile hi (by simp))

theorem runs_barrierDirectoryUntracked (h : Healthy s owner) (unknown : Bool) :
    Runs me (barrierDirectoryUntracked unknown) s (.ok ()) := by
  obtain ⟨d, hd, hk, -⟩ := h.dir.dir
  refine runs_bind (runs_mapErr (runs_openDirectoryNoFollow (d := .state) hd hk)) ?_
  exact runs_io rfl

/-! ## Initialization -/

theorem exec_completeWitness [SerdeJson] (h : Healthy s owner) {i : Nat} (hi : s.entries .publish = some i)
    (hc : s.content i = PublishWitness.initializing.encode) (changed : String) :
    (completeWitness ⟨s.device, i⟩ s.profile changed).run.exec (Op.run me) s =
      (.ok (), s.setContent i (PublishWitness.clean 1).encode) := by
  refine (exec_bind_ok (runs_barrierDirectoryUntracked h _)).trans ?_
  refine (exec_bind_ok (runs_openPrivateWritableFile (h.privateFile (by decide) hi) _)).trans ?_
  refine (exec_bind_ok (runs_requireSameProfile h.profile _)).trans ?_
  refine (exec_bind_ok (runs_openedIdentity i)).trans ?_
  rw [if_neg (by simp)]
  refine (exec_bind_ok (runs_verifyOpenedWitness ?_)).trans ?_
  · rw [hc]
    exact PublishWitness.decode_encode PublishWitness.initializing_valid
  refine (exec_bind_ok exec_rewriteWitness).trans ?_
  refine runs_verifyOpenedWitness ?_
  rw [Fs.content_setContent_same]
  exact PublishWitness.decode_encode (PublishWitness.clean_valid (by decide) (by decide))

theorem exec_initializeWitness [SerdeJson] (h : Healthy s owner) (hp : s.entries .publish = none) :
    (initializeWitness s.profile).run.exec (Op.run me) s =
      (.ok (), (s.created .publish).setContent s.next (PublishWitness.clean 1).encode) := by
  have h₁ := h.created .publish
  have hprofile : Runs me (requireSameProfile (.file s.next) s.profile) (s.created .publish) (.ok ()) :=
    runs_requireSameProfile h₁.profile _
  refine (exec_bind_ok (exec_openPrivateWritableFile_new h hp (by decide) _)).trans ?_
  refine (exec_bind_ok hprofile).trans ((exec_bind_ok (runs_openedIdentity _)).trans ?_)
  refine (exec_bind_ok exec_rewriteWitness).trans ?_
  refine (exec_bind_ok (runs_verifyOpenedWitness ?_)).trans ?_
  · rw [Fs.content_setContent_same]
    exact PublishWitness.decode_encode PublishWitness.initializing_valid
  refine (exec_completeWitness (h₁.setContent s.next _) (i := s.next) ?_ (Fs.content_setContent_same _ _ _) _).trans ?_
  · rw [Fs.setContent_entries, Fs.created_entries, if_pos rfl]
  · rw [Fs.setContent_setContent]

/-- The files after the initialization of a directory that has a lock and an empty journal. -/
def Fs.initialized (s : Fs) : Fs :=
  ((s.published CommitPoint.empty).created .publish).setContent (s.published CommitPoint.empty).next
    (PublishWitness.clean 1).encode

theorem leads_initializeFreshStore [SerdeJson] (h : Ready s owner) (lock journal : Nat) :
    Leads me (initializeFreshStore s.profile lock journal) s (initializeWitness s.profile) (s.published CommitPoint.empty) := by
  obtain ⟨d, hd, hk, -⟩ := h.dir.dir
  refine (leads_bind (a := ()) (exec_io_run rfl rfl)).trans ?_
  refine (leads_bind (a := ()) (exec_io_run rfl rfl)).trans ?_
  refine (leads_bind (runs_barrierDirectoryUntracked h.toHealthy _)).trans ?_
  refine (leads_bind (runs_openDirectoryNoFollow (d := .state) hd hk)).trans ?_
  exact leads_bind (exec_publishCommit h rfl CommitPoint.decode_empty)

theorem exec_initializeWitness_published [SerdeJson] (h : Healthy s owner) (hp : s.entries .publish = none) :
    (initializeWitness s.profile).run.exec (Op.run me) (s.published CommitPoint.empty) = (.ok (), s.initialized) := by
  have hprof : (s.published CommitPoint.empty).profile = s.profile := s.withoutTemp_profile
  rw [← hprof]
  exact exec_initializeWitness (h.renamed _) ((Fs.renamed_entries _ (by decide) (by decide)).trans hp)

end

end Aizign
