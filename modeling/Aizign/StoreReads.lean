import Aizign.StoreLogic

/-!
# What the store's reading functions answer

Each function that opens, checks or reads comes with three facts: it only looks;
what any of its answers, failures included, says about the file system; and
what it answers when nothing fails. `readImage` is the whole snapshot as a
function of the three files' contents.
-/

namespace Aizign

open Store

section
variable {me : Nat} {allow : OpError → Prop}

/-- The errors of opening and checking: unavailable, or what a profile observation returned. -/
def ReadError (allow : OpError → Prop) (e : JournalError) : Prop :=
  (∃ d, e = .unavailable d) ∨ allow (.profile e)

theorem readError_unavailable (d : Text) : ReadError allow (.unavailable d) := Or.inl ⟨d, rfl⟩

/-! ## Looking -/

theorem looks_pathEntryExists (n : Name) : Looks (pathEntryExists n) := by
  simp [pathEntryExists, Op.looks, Op.mutates]

theorem looks_requireExistingPath (n : Name) (label : String) : Looks (requireExistingPath n label) :=
  looks_bind (looks_pathEntryExists n) fun _ => looks_ite (fun _ => looks_pure ()) fun _ => looks_fail _

theorem looks_openDirectoryNoFollow (d : DirRef) : Looks (openDirectoryNoFollow d) := by
  refine looks_bind (looks_io rfl _) fun m => ?_
  cases m with
  | none => exact looks_fail _
  | some m =>
    refine looks_ite (fun _ => looks_fail _) fun _ => ?_
    exact looks_bind (looks_io rfl _) fun _ => looks_bind (looks_io rfl _) fun _ =>
      looks_ite (fun _ => looks_fail _) fun _ => looks_pure ()

theorem looks_openExistingPrivateDir : Looks openExistingPrivateDir := by
  refine looks_bind (looks_io rfl _) fun m => ?_
  cases m with
  | none => exact looks_fail _
  | some m =>
    exact looks_ite (fun _ => looks_fail _) fun _ => looks_ite (fun _ => looks_fail _) fun _ =>
      looks_openDirectoryNoFollow _

theorem looks_privateParentOwner : Looks privateParentOwner :=
  looks_bind looks_openExistingPrivateDir fun _ => looks_bind (looks_io rfl _) fun _ => looks_pure _

theorem looks_inspectPrivateFile (n : Name) (owner : Nat) : Looks (inspectPrivateFile n owner) := by
  refine looks_bind (looks_io rfl _) fun m => ?_
  cases m with
  | none => exact looks_fail _
  | some m =>
    exact looks_ite (fun _ => looks_fail _) fun _ => looks_bind (looks_fromExcept _) fun _ => looks_pure _

theorem looks_checkOpenedPrivateFile (i owner : Nat) (expected : Option FileIdentity) :
    Looks (checkOpenedPrivateFile i owner expected) := by
  refine looks_bind (looks_io rfl _) fun m => looks_ite (fun _ => looks_fail _) fun _ =>
    looks_bind (looks_fromExcept _) fun _ => ?_
  cases expected with
  | none => exact looks_pure ()
  | some e => exact looks_ite (fun _ => looks_fail _) fun _ => looks_pure ()

theorem looks_openedIdentity (i : Nat) : Looks (openedIdentity i) := looks_bind (looks_io rfl _) fun _ => looks_pure _

theorem looks_openPrivateReadFile (n : Name) : Looks (openPrivateReadFile n) :=
  looks_bind looks_privateParentOwner fun _ => looks_bind (looks_inspectPrivateFile n _) fun _ =>
    looks_bind (looks_io rfl _) fun _ => looks_bind (looks_checkOpenedPrivateFile _ _ _) fun _ => looks_pure _

theorem looks_openExistingWritable (n : Name) (append : Bool) (owner : Nat) :
    Looks (openExistingWritable n append owner) :=
  looks_bind (looks_inspectPrivateFile n _) fun _ => looks_bind (looks_io rfl _) fun _ =>
    looks_bind (looks_checkOpenedPrivateFile _ _ _) fun _ => looks_pure _

theorem looks_openPrivateWritableFile (n : Name) (append : Bool) : Looks (openPrivateWritableFile n false append) :=
  looks_bind looks_privateParentOwner fun _ => looks_openExistingWritable n append _

theorem looks_observe (t : Target) : Looks (observe t) := by
  refine ⟨rfl, fun r => ?_⟩
  cases r <;> trivial

theorem looks_qualifyDirectory (d : DirRef) : Looks (qualifyDirectory d) :=
  looks_bind (looks_observe _) fun _ => looks_bind (looks_fromExcept _) fun _ => looks_pure _

theorem looks_requireSameProfile (t : Target) (p : ProfileObservation) : Looks (requireSameProfile t p) :=
  looks_bind (looks_observe _) fun _ => looks_bind (looks_fromExcept _) fun _ =>
    looks_ite (fun _ => looks_fail _) fun _ => looks_pure ()

theorem looks_fileLen (i : Nat) : Looks (fileLen i) := looks_bind (looks_io rfl _) fun _ => looks_pure _

theorem looks_fileLenPath (n : Name) : Looks (fileLenPath n) :=
  looks_bind (looks_openPrivateReadFile n) fun i => looks_fileLen i

theorem looks_readBoundedFile (i maximum : Nat) (label : Text) : Looks (readBoundedFile i maximum label) :=
  looks_bind (looks_io rfl _) fun _ => looks_ite (fun _ => looks_fail _) fun _ =>
    looks_bind (looks_io rfl _) fun _ => looks_ite (fun _ => looks_fail _) fun _ => looks_pure _

theorem looks_readCommitPoint [SerdeJson] (i : Nat) : Looks (readCommitPoint i) :=
  looks_bind (looks_readBoundedFile _ _ _) fun _ => looks_fromExcept _

theorem looks_readPublishWitness [SerdeJson] (i : Nat) : Looks (readPublishWitness i) :=
  looks_bind (looks_readBoundedFile _ _ _) fun _ => looks_fromExcept _

theorem looks_verifyOpenedWitness [SerdeJson] (i : Nat) (w : PublishWitness) : Looks (verifyOpenedWitness i w) :=
  looks_bind (looks_readPublishWitness i) fun _ => looks_ite (fun _ => looks_fail _) fun _ => looks_pure ()

theorem looks_validatePreparedCommitPrefix [SerdeJson] (j : Nat) (point : CommitPoint) (w : PublishWitness) :
    Looks (validatePreparedCommitPrefix j point w) :=
  looks_bind (looks_mapErr (looks_fileLen j)) fun _ => looks_ite (fun _ => looks_fail _) fun _ =>
    looks_ite (fun _ => looks_fail _) fun _ => looks_bind (looks_io rfl _) fun _ => looks_fromExcept _

theorem looks_readCommittedPrefix (j : Nat) (point : CommitPoint) : Looks (readCommittedPrefix j point) :=
  looks_bind (looks_fileLen j) fun _ => looks_ite (fun _ => looks_fail _) fun _ =>
    looks_ite (fun _ => looks_fail _) fun _ => looks_bind (looks_io rfl _) fun _ =>
      looks_ite (fun _ => looks_fail _) fun _ => looks_pure _

theorem looks_readSnapshot [SerdeJson] (p : ProfileObservation) : Looks (readSnapshot p) := by
  unfold readSnapshot
  refine looks_bind (looks_openPrivateReadFile _) fun journal => looks_bind (looks_requireSameProfile _ _) fun _ =>
    looks_bind (looks_openPrivateReadFile _) fun commit => looks_bind (looks_requireSameProfile _ _) fun _ =>
    looks_bind (looks_readCommitPoint _) fun point => looks_bind (looks_openPrivateReadFile _) fun publish =>
    looks_bind (looks_requireSameProfile _ _) fun _ => looks_bind (looks_readPublishWitness _) fun w => ?_
  refine looks_ite (fun _ => ?_) fun _ => looks_ite (fun _ => ?_) fun _ => looks_ite (fun _ => looks_fail _) fun _ => ?_
  · exact looks_ite (fun _ => looks_fail _) fun _ => looks_bind (looks_fileLen _) fun _ =>
      looks_ite (fun _ => looks_fail _) fun _ => looks_fail _
  · exact looks_bind (looks_fromExcept _) fun _ => looks_bind (looks_validatePreparedCommitPrefix _ _ _) fun _ =>
      looks_fail _
  · exact looks_bind (looks_readCommittedPrefix _ _) fun _ => looks_fromExcept _

theorem looks_revalidateLock (lock : Nat) (p : ProfileObservation) : Looks (revalidateLock lock p) :=
  looks_bind (looks_openPrivateReadFile _) fun _ => looks_bind (looks_requireSameProfile _ _) fun _ =>
    looks_bind (looks_requireSameProfile _ _) fun _ => looks_bind (looks_openedIdentity _) fun _ =>
    looks_bind (looks_openedIdentity _) fun _ => looks_ite (fun _ => looks_fail _) fun _ => looks_pure ()

theorem looks_loadCommitted [SerdeJson] (lock : Nat) : Looks (loadCommitted lock) :=
  looks_bind looks_openExistingPrivateDir fun _ => looks_bind (looks_qualifyDirectory _) fun _ =>
    looks_bind (looks_revalidateLock _ _) fun _ => looks_bind (looks_readSnapshot _) fun _ => looks_pure _

theorem looks_seenArtifacts : Looks seenArtifacts :=
  looks_bind (looks_pathEntryExists _) fun _ => looks_bind (looks_pathEntryExists _) fun _ =>
    looks_bind (looks_pathEntryExists _) fun _ => looks_bind (looks_pathEntryExists _) fun _ => looks_pure _

/-! ## Private files -/

structure PrivateDir (s : Fs) (owner : Nat) : Prop where
  dir : ∃ d, s.dir = some d ∧ d.kind = .directory ∧ d.mode &&& 0o7777 = 0o700 ∧ d.uid = owner

structure PrivateInode (s : Fs) (owner i : Nat) : Prop where
  kind : (s.inodes i).kind = .file
  uid : (s.inodes i).uid = owner
  nlink : s.nlink i = 1
  mode : (s.inodes i).mode &&& 0o7777 = 0o600

structure PrivateFile (s : Fs) (n : Name) (i : Nat) : Prop where
  entry : s.entries n = some i
  inode : ∃ owner, PrivateDir s owner ∧ PrivateInode s owner i

theorem gives_openDirectoryNoFollow {s : Fs} (d : DirRef) :
    Gives me allow (openDirectoryNoFollow d) s (ReadError allow) fun _ => True := by
  refine gives_bind (P := fun _ => True) (gives_io (by simp) (fun _ _ => trivial) fun t => readError_unavailable _) ?_
  intro m _
  cases m with
  | none => exact gives_fail (readError_unavailable _)
  | some m =>
    refine gives_ite (fun _ => gives_fail (readError_unavailable _)) fun _ => ?_
    refine gives_bind (P := fun _ => True) (gives_io (by simp) (fun _ _ => trivial) fun t => readError_unavailable _) ?_
    intro _ _
    refine gives_bind (P := fun _ => True) (gives_io (by simp) (fun _ _ => trivial) fun t => readError_unavailable _) ?_
    intro _ _
    exact gives_ite (fun _ => gives_fail (readError_unavailable _)) fun _ => gives_pure trivial

theorem gives_openExistingPrivateDir {s : Fs} :
    Gives me allow openExistingPrivateDir s (ReadError allow) fun _ => ∃ owner, PrivateDir s owner := by
  refine gives_bind (P := fun d => s.dir = d) (gives_io (by simp) ?_ fun t => readError_unavailable _) ?_
  · intro v hv
    exact Except.ok.inj hv
  · intro m hm
    cases m with
    | none => exact gives_fail (readError_unavailable _)
    | some m =>
      refine gives_ite (fun _ => gives_fail (readError_unavailable _)) fun hk => ?_
      refine gives_ite (fun _ => gives_fail (readError_unavailable _)) fun hmode => ?_
      exact gives_mono (gives_openDirectoryNoFollow _) (fun _ h => h) fun _ _ =>
        ⟨m.uid, ⟨m, hm, not_not.mp hk, not_not.mp hmode, rfl⟩⟩

theorem gives_privateParentOwner {s : Fs} :
    Gives me allow privateParentOwner s (ReadError allow) fun owner => PrivateDir s owner := by
  refine gives_bind gives_openExistingPrivateDir ?_
  rintro - ⟨owner, ⟨m, hm, hk, hmode, rfl⟩⟩
  refine gives_bind (P := fun d => d = m) (gives_io (by simp) ?_ fun t => readError_unavailable _) ?_
  · intro v hv
    simp only [Op.run, Fs.dirInfo, hm] at hv
    exact (Except.ok.inj hv).symm
  · rintro d rfl
    exact gives_pure ⟨d, hm, hk, hmode, rfl⟩

theorem checkPrivateMetadata_ok {m : Metadata} {owner : Nat} {u : Unit} (h : checkPrivateMetadata m owner = .ok u) :
    m.uid = owner ∧ m.nlink = 1 ∧ m.mode &&& 0o7777 = 0o600 := by
  unfold checkPrivateMetadata at h
  split at h
  · cases h
  split at h
  · cases h
  split at h
  · cases h
  · rename_i h₁ h₂ h₃
    exact ⟨not_not.mp h₁, not_not.mp h₂, not_not.mp h₃⟩

theorem checkPrivateMetadata_error {m : Metadata} {owner : Nat} {e : JournalError}
    (h : checkPrivateMetadata m owner = .error e) : ReadError allow e := by
  unfold checkPrivateMetadata at h
  split at h
  · cases h; exact readError_unavailable _
  split at h
  · cases h; exact readError_unavailable _
  split at h
  · cases h; exact readError_unavailable _
  · cases h

theorem run_lstat_dir {s : Fs} {owner : Nat} (hd : PrivateDir s owner) (n : Name) :
    (Op.lstat n).run me s = (.ok ((s.entries n).map s.metadata), s) := by
  obtain ⟨d, hd, hk, -⟩ := hd.dir
  simp [Op.run, hd, hk]

theorem gives_inspectPrivateFile {s : Fs} {owner : Nat} (hd : PrivateDir s owner) (n : Name) :
    Gives me allow (inspectPrivateFile n owner) s (ReadError allow) fun x =>
      ∃ i, s.entries n = some i ∧ x = ⟨s.device, i⟩ ∧ PrivateInode s owner i := by
  refine gives_bind (P := fun m => m = (s.entries n).map s.metadata)
    (gives_io (by simp) ?_ fun t => readError_unavailable _) ?_
  · intro v hv
    rw [run_lstat_dir hd] at hv
    exact (Except.ok.inj hv).symm
  · rintro m rfl
    cases he : s.entries n with
    | none => exact gives_fail (readError_unavailable _)
    | some i =>
      refine gives_ite (fun _ => gives_fail (readError_unavailable _)) fun hk => ?_
      refine gives_bind (P := fun _ => PrivateInode s owner i) (gives_fromExcept ?_ fun e he => ?_) ?_
      · intro u hu
        obtain ⟨h₁, h₂, h₃⟩ := checkPrivateMetadata_ok hu
        exact ⟨not_not.mp hk, h₁, h₂, h₃⟩
      · exact checkPrivateMetadata_error he
      · intro _ hp
        exact gives_pure ⟨i, rfl, rfl, hp⟩

theorem gives_checkOpenedPrivateFile {s : Fs} (i owner : Nat) (expected : Option FileIdentity) :
    Gives me allow (checkOpenedPrivateFile i owner expected) s (ReadError allow) fun _ =>
      PrivateInode s owner i ∧ ∀ x ∈ expected, x = ⟨s.device, i⟩ := by
  refine gives_bind (P := fun m => m = s.metadata i) (gives_io (by simp) ?_ fun t => readError_unavailable _) ?_
  · intro v hv; exact (Except.ok.inj hv).symm
  · rintro m rfl
    refine gives_ite (fun _ => gives_fail (readError_unavailable _)) fun hk => ?_
    refine gives_bind (P := fun _ => PrivateInode s owner i) (gives_fromExcept ?_ fun e he => ?_) ?_
    · intro u hu
      obtain ⟨h₁, h₂, h₃⟩ := checkPrivateMetadata_ok hu
      exact ⟨not_not.mp hk, h₁, h₂, h₃⟩
    · exact checkPrivateMetadata_error he
    · intro _ hp
      cases expected with
      | none => exact gives_pure ⟨hp, by simp⟩
      | some x =>
        refine gives_ite (fun _ => gives_fail (readError_unavailable _)) fun hx => gives_pure ⟨hp, ?_⟩
        intro y hy
        rw [← Option.mem_some.mp hy]
        exact (not_not.mp hx).symm

theorem gives_openPrivateReadFile {s : Fs} (n : Name) :
    Gives me allow (openPrivateReadFile n) s (ReadError allow) fun i => PrivateFile s n i := by
  refine gives_bind gives_privateParentOwner fun owner hd => ?_
  refine gives_bind (gives_inspectPrivateFile hd n) ?_
  rintro x ⟨i, he, rfl, hp⟩
  refine gives_bind (P := fun j => j = i) (gives_io (by simp) ?_ fun t => readError_unavailable _) ?_
  · intro v hv
    simp only [Op.run, he] at hv
    split at hv
    · cases hv
    · exact (Except.ok.inj hv).symm
  · rintro j rfl
    refine gives_bind (gives_checkOpenedPrivateFile j owner _) ?_
    rintro - ⟨-, -⟩
    exact gives_pure ⟨he, owner, hd, hp⟩

theorem gives_openPrivateWritableFile {s : Fs} (n : Name) (append : Bool) :
    Gives me allow (openPrivateWritableFile n false append) s (ReadError allow) fun i => PrivateFile s n i := by
  refine gives_bind gives_privateParentOwner fun owner hd => ?_
  refine gives_bind (gives_inspectPrivateFile hd n) ?_
  rintro x ⟨i, he, rfl, hp⟩
  refine gives_bind (P := fun j => j = i) (gives_io (by simp) ?_ fun t => readError_unavailable _) ?_
  · intro v hv
    simp only [Op.run, he, Bool.false_eq_true, ite_false] at hv
    split at hv
    · cases hv
    · split at hv
      · cases hv
      · exact (Except.ok.inj hv).symm
  · rintro j rfl
    refine gives_bind (gives_checkOpenedPrivateFile j owner _) ?_
    rintro - ⟨-, -⟩
    exact gives_pure ⟨he, owner, hd, hp⟩

theorem gives_openedIdentity {s : Fs} (i : Nat) :
    Gives me allow (openedIdentity i) s (ReadError allow) fun x => x = ⟨s.device, i⟩ := by
  refine gives_bind (P := fun m => m = s.metadata i) (gives_io (by simp) ?_ fun t => readError_unavailable _) ?_
  · intro v hv; exact (Except.ok.inj hv).symm
  · rintro m rfl; exact gives_pure rfl

theorem gives_pathEntryExists {s : Fs} (n : Name) :
    Gives me allow (pathEntryExists n) s (ReadError allow) fun b => s.dir ≠ none → b = (s.entries n).isSome := by
  refine gives_bind (P := fun m => s.dir ≠ none → m = (s.entries n).map s.metadata)
    (gives_io (by simp) ?_ fun t => readError_unavailable _) ?_
  · intro v hv hd
    obtain ⟨d, hd⟩ := Option.ne_none_iff_exists'.mp hd
    simp only [Op.run, hd] at hv
    split at hv
    · exact (Except.ok.inj hv).symm
    · cases hv
  · intro m hm
    refine gives_pure fun hd => ?_
    rw [hm hd, Option.isSome_map]

theorem gives_seenArtifacts {s : Fs} (hd : s.dir ≠ none) :
    Gives me allow seenArtifacts s (ReadError allow) fun seen =>
      seen = ⟨(s.entries .lock).isSome, (s.entries .journal).isSome, (s.entries .commit).isSome,
        (s.entries .publish).isSome⟩ := by
  refine gives_bind (gives_pathEntryExists .lock) fun lock hl => ?_
  refine gives_bind (gives_pathEntryExists .journal) fun journal hj => ?_
  refine gives_bind (gives_pathEntryExists .commit) fun commit hc => ?_
  refine gives_bind (gives_pathEntryExists .publish) fun publish hp => ?_
  exact gives_pure (by rw [hl hd, hj hd, hc hd, hp hd])

theorem gives_observe {s : Fs} (t : Target) : Gives me allow (observe t) s (ReadError allow) fun _ => True := by
  intro r hr
  obtain ⟨x, g, ho, h⟩ := hr
  cases ho with
  | normal => rw [← show _ = r from h]; trivial
  | failed e g ha =>
    rw [← show _ = r from h]
    cases e with
    | io t => exact readError_unavailable t
    | profile e => exact Or.inr ha
  | observed x _ hx =>
    obtain ⟨v, rfl⟩ := hx
    rw [← show _ = r from h]; trivial

theorem validateObservation_error {o : ProfileObservation} {e : JournalError} (h : validateObservation o = .error e) :
    ReadError allow e := by
  unfold validateObservation at h
  split at h
  · cases h; exact readError_unavailable _
  split at h
  · cases h; exact readError_unavailable _
  split at h
  · cases h; exact readError_unavailable _
  split at h
  · cases h; exact readError_unavailable _
  · cases h

theorem gives_qualifyDirectory {s : Fs} (d : DirRef) :
    Gives me allow (qualifyDirectory d) s (ReadError allow) fun _ => True := by
  refine gives_bind (gives_observe _) fun o _ => ?_
  refine gives_bind (P := fun _ => True) (gives_fromExcept (fun _ _ => trivial) fun e he => validateObservation_error he) ?_
  exact fun _ _ => gives_pure trivial

theorem gives_requireSameProfile {s : Fs} (t : Target) (p : ProfileObservation) :
    Gives me allow (requireSameProfile t p) s (ReadError allow) fun _ => True := by
  refine gives_bind (gives_observe _) fun o _ => ?_
  refine gives_bind (P := fun _ => True) (gives_fromExcept (fun _ _ => trivial) fun e he => validateObservation_error he) ?_
  exact fun _ _ => gives_ite (fun _ => gives_fail (readError_unavailable _)) fun _ => gives_pure trivial

theorem gives_revalidateLock {s : Fs} (lock : Nat) (p : ProfileObservation) :
    Gives me allow (revalidateLock lock p) s (ReadError allow) fun _ => PrivateFile s .lock lock := by
  refine gives_bind (gives_openPrivateReadFile _) fun i hi => ?_
  refine gives_bind (gives_requireSameProfile _ _) fun _ _ => ?_
  refine gives_bind (gives_requireSameProfile _ _) fun _ _ => ?_
  refine gives_bind (gives_openedIdentity _) fun held hheld => ?_
  refine gives_bind (gives_openedIdentity _) fun named hnamed => ?_
  refine gives_ite (fun _ => gives_fail (readError_unavailable _)) fun hne => gives_pure ?_
  rw [hheld, hnamed] at hne
  rw [(FileIdentity.mk.inj (not_not.mp hne)).2]
  exact hi

/-! ## The snapshot as a function of three contents -/

/-- `validate_prepared_commit_prefix` on a journal's content. -/
def checkPreparedImage [SerdeJson] (journal : Bytes) (point : CommitPoint) (w : PublishWitness) : Except JournalError Unit :=
  if journal.length < point.committedBytes then
    .error (corrupt "PREPARED journal is shorter than its visible commit prefix")
  else if point.generation = w.startedGeneration ∧ journal.length ≠ point.committedBytes then
    .error (corrupt "new PREPARED commit does not name the complete journal image")
  else checkPreparedPrefix (journal.take point.committedBytes) point

/-- What `read_snapshot` makes of a commit point and a witness. -/
def readDecoded [SerdeJson] (journal : Bytes) (point : CommitPoint) (w : PublishWitness) : Except JournalError Snapshot :=
  if w.isInitializing then
    if point ≠ CommitPoint.empty then
      .error (corrupt "initialization PREPARED requires an exact empty commit and journal")
    else if journal.length ≠ 0 then
      .error (corrupt "initialization PREPARED requires an exact empty commit and journal")
    else .error (unavailable "store initialization is PREPARED")
  else if w.isPreparedSuccessor then do
    requirePreparedCommitRelation w point
    checkPreparedImage journal point w
    .error (outcomeUnknown "store publication is PREPARED and has no known result")
  else if w ≠ PublishWitness.clean point.generation then
    .error (corrupt "clean witness generation does not match commit generation")
  else if point.committedBytes < journal.length then
    .error (outcomeUnknown "journal contains bytes beyond the clean commit point")
  else if journal.length < point.committedBytes then .error (corrupt "journal is shorter than committedBytes")
  else checkCommittedPrefix journal point

def readImage [SerdeJson] (journal commit publish : Bytes) : Except JournalError Snapshot := do
  let point ← CommitPoint.decode commit maxJournalBytes
  let w ← PublishWitness.decode publish
  readDecoded journal point w

theorem CommitPoint.decode_long [SerdeJson] {b : Bytes} (h : maxCommitMetadataBytes < b.length) (max : Nat) :
    CommitPoint.decode b max = .error (.corrupt (commitWhat ++ " exceeds its byte bound".toList)) := by
  rw [CommitPoint.decode, openMetadata, if_pos h]; rfl

theorem PublishWitness.decode_long [SerdeJson] {b : Bytes} (h : maxPublishMetadataBytes < b.length) :
    PublishWitness.decode b = .error (.corrupt (publishWhat ++ " exceeds its byte bound".toList)) := by
  rw [PublishWitness.decode, openMetadata, if_pos h]; rfl

theorem gives_readBoundedFile {s : Fs} (i maximum : Nat) (label : Text) :
    Gives me allow (readBoundedFile i maximum label) s (fun e => (∃ d, e = .unavailable d) ∨
      maximum < (s.content i).length ∧ e = .corrupt (label ++ " exceeds its byte bound".toList))
      fun b => b = s.content i ∧ b.length ≤ maximum := by
  refine gives_bind (P := fun m => m = s.metadata i) (gives_io (by simp) ?_ fun t => Or.inl ⟨_, rfl⟩) ?_
  · intro v hv; exact (Except.ok.inj hv).symm
  · rintro m rfl
    refine gives_ite (fun h => gives_fail (Or.inr ⟨h, rfl⟩)) fun h => ?_
    have hle : (s.content i).length ≤ maximum := Nat.not_lt.mp h
    refine gives_bind (P := fun b => b = s.content i) (gives_io (by simp) ?_ fun t => Or.inl ⟨_, rfl⟩) ?_
    · intro v hv
      rw [← Except.ok.inj hv]
      exact List.take_of_length_le (Nat.le_succ_of_le hle)
    · rintro b rfl
      exact gives_ite (fun h => absurd h (Nat.not_lt.mpr hle)) fun _ => gives_pure ⟨rfl, hle⟩

theorem gives_readCommitPoint [SerdeJson] {s : Fs} (i : Nat) :
    Gives me allow (readCommitPoint i) s
      (fun e => (∃ d, e = .unavailable d) ∨ CommitPoint.decode (s.content i) maxJournalBytes = .error e)
      fun p => CommitPoint.decode (s.content i) maxJournalBytes = .ok p := by
  refine gives_bind (gives_mono (gives_readBoundedFile i _ _) ?_ fun _ h => h) ?_
  · rintro e (h | ⟨h, rfl⟩)
    · exact Or.inl h
    · exact Or.inr (CommitPoint.decode_long h _)
  · rintro b ⟨rfl, -⟩
    exact gives_fromExcept (fun _ h => h) fun _ h => Or.inr h

theorem gives_readPublishWitness [SerdeJson] {s : Fs} (i : Nat) :
    Gives me allow (readPublishWitness i) s
      (fun e => (∃ d, e = .unavailable d) ∨ PublishWitness.decode (s.content i) = .error e)
      fun w => PublishWitness.decode (s.content i) = .ok w := by
  refine gives_bind (gives_mono (gives_readBoundedFile i _ _) ?_ fun _ h => h) ?_
  · rintro e (h | ⟨h, rfl⟩)
    · exact Or.inl h
    · exact Or.inr (PublishWitness.decode_long h)
  · rintro b ⟨rfl, -⟩
    exact gives_fromExcept (fun _ h => h) fun _ h => Or.inr h

theorem gives_verifyOpenedWitness [SerdeJson] {s : Fs} (i : Nat) (w : PublishWitness) :
    Gives me allow (verifyOpenedWitness i w) s
      (fun e => (∃ d, e = .unavailable d) ∨ (∃ d, e = .corrupt d) ∨ PublishWitness.decode (s.content i) = .error e)
      fun _ => PublishWitness.decode (s.content i) = .ok w := by
  refine gives_bind (gives_mono (gives_readPublishWitness i) ?_ fun _ h => h) ?_
  · rintro e (h | h)
    · exact Or.inl h
    · exact Or.inr (Or.inr h)
  · intro v hv
    refine gives_ite (fun _ => gives_fail (Or.inr (Or.inl ⟨_, rfl⟩))) fun h => gives_pure ?_
    rw [hv, not_not.mp h]

theorem gives_fileLen {s : Fs} (i : Nat) :
    Gives me allow (fileLen i) s (fun e => ∃ d, e = .unavailable d) fun n => n = (s.content i).length := by
  refine gives_bind (P := fun m => m = s.metadata i) (gives_io (by simp) ?_ fun t => ⟨_, rfl⟩) ?_
  · intro v hv; exact (Except.ok.inj hv).symm
  · rintro m rfl; exact gives_pure rfl

theorem gives_fileLenPath {s : Fs} (n : Name) :
    Gives me allow (fileLenPath n) s (ReadError allow) fun len => ∃ i, PrivateFile s n i ∧ len = (s.content i).length := by
  refine gives_bind (gives_openPrivateReadFile n) fun i hi => ?_
  refine gives_mono (gives_fileLen i) ?_ fun _ h => ⟨i, hi, h⟩
  rintro e ⟨d, rfl⟩
  exact readError_unavailable d

theorem gives_validatePreparedCommitPrefix [SerdeJson] {s : Fs} (j : Nat) (point : CommitPoint) (w : PublishWitness) :
    Gives me allow (validatePreparedCommitPrefix j point w) s
      (fun e => (∃ d, e = .outcomeUnknown d) ∨ checkPreparedImage (s.content j) point w = .error e)
      fun _ => checkPreparedImage (s.content j) point w = .ok () := by
  refine gives_bind (gives_mapErr (gives_fileLen j) fun e _ => Or.inl ⟨_, rfl⟩) ?_
  rintro len rfl
  refine gives_ite (fun h => gives_fail (Or.inr (by rw [checkPreparedImage, if_pos h]))) fun h₁ => ?_
  refine gives_ite (fun h => gives_fail (Or.inr (by rw [checkPreparedImage, if_neg h₁, if_pos h]))) fun h₂ => ?_
  refine gives_bind (P := fun b => b = (s.content j).take point.committedBytes)
    (gives_io (by simp) ?_ fun t => Or.inl ⟨_, rfl⟩) ?_
  · intro v hv; exact (Except.ok.inj hv).symm
  · rintro b rfl
    have he : checkPreparedImage (s.content j) point w =
        checkPreparedPrefix ((s.content j).take point.committedBytes) point := by
      rw [checkPreparedImage, if_neg h₁, if_neg h₂]
    exact gives_fromExcept (fun _ h => he.trans h) fun _ h => Or.inr (he.trans h)

inductive SnapshotError [SerdeJson] (allow : OpError → Prop) (s : Fs) (e : JournalError) : Prop
  | read (h : ReadError allow e)
  | commit {c : Nat} (hc : PrivateFile s .commit c) (h : CommitPoint.decode (s.content c) maxJournalBytes = .error e)
  | publish {p : Nat} (hp : PrivateFile s .publish p) (h : PublishWitness.decode (s.content p) = .error e)
  | image {j c p : Nat} (hj : PrivateFile s .journal j) (hc : PrivateFile s .commit c) (hp : PrivateFile s .publish p)
      (h : readImage (s.content j) (s.content c) (s.content p) = .error e)
  | prepared {p : Nat} {w : PublishWitness} (hp : PrivateFile s .publish p)
      (hw : PublishWitness.decode (s.content p) = .ok w) (hs : w.isPreparedSuccessor = true)
      (h : ∃ d, e = .outcomeUnknown d)

theorem readImage_of_decoded [SerdeJson] {journal commit publish : Bytes} {point : CommitPoint} {w : PublishWitness}
    (hc : CommitPoint.decode commit maxJournalBytes = .ok point) (hp : PublishWitness.decode publish = .ok w) :
    readImage journal commit publish = readDecoded journal point w := by
  simp [readImage, hc, hp, bind, Except.bind]

theorem gives_readCommittedPrefix {s : Fs} (j : Nat) (point : CommitPoint) :
    Gives me allow (readCommittedPrefix j point) s (fun e => (∃ d, e = .unavailable d) ∨
        (point.committedBytes < (s.content j).length ∧
          e = outcomeUnknown "journal contains bytes beyond the clean commit point") ∨
        ((s.content j).length < point.committedBytes ∧ e = corrupt "journal is shorter than committedBytes"))
      fun b => b = s.content j ∧ (s.content j).length = point.committedBytes := by
  refine gives_bind (gives_mono (gives_fileLen j) (fun _ h => Or.inl h) fun _ h => h) ?_
  rintro len rfl
  refine gives_ite (fun h => gives_fail (Or.inr (Or.inl ⟨h, rfl⟩))) fun h₁ => ?_
  refine gives_ite (fun h => gives_fail (Or.inr (Or.inr ⟨h, rfl⟩))) fun h₂ => ?_
  have he : (s.content j).length = point.committedBytes := by omega
  refine gives_bind (P := fun b => b = s.content j) (gives_io (by simp) ?_ fun t => Or.inl ⟨_, rfl⟩) ?_
  · intro v hv
    rw [← Except.ok.inj hv]
    exact List.take_of_length_le (by omega)
  · rintro b rfl
    exact gives_ite (fun h => absurd he h) fun _ => gives_pure ⟨rfl, he⟩

theorem gives_readSnapshot [SerdeJson] {s : Fs} (profile : ProfileObservation) :
    Gives me allow (readSnapshot profile) s (SnapshotError allow s) fun snap =>
      ∃ j c p, PrivateFile s .journal j ∧ PrivateFile s .commit c ∧ PrivateFile s .publish p ∧
        readImage (s.content j) (s.content c) (s.content p) = .ok snap := by
  have hread : ∀ e, ReadError allow e → SnapshotError allow s e := fun e h => .read h
  refine gives_bind (gives_mono (gives_openPrivateReadFile _) hread fun _ h => h) fun j hj => ?_
  refine gives_bind (gives_mono (gives_requireSameProfile _ _) hread fun _ h => h) fun _ _ => ?_
  refine gives_bind (gives_mono (gives_openPrivateReadFile _) hread fun _ h => h) fun c hc => ?_
  refine gives_bind (gives_mono (gives_requireSameProfile _ _) hread fun _ h => h) fun _ _ => ?_
  refine gives_bind (gives_mono (gives_readCommitPoint c) ?_ fun _ h => h) fun point hpoint => ?_
  · rintro e (⟨d, rfl⟩ | h)
    · exact .read (readError_unavailable d)
    · exact .commit hc h
  refine gives_bind (gives_mono (gives_openPrivateReadFile _) hread fun _ h => h) fun p hp => ?_
  refine gives_bind (gives_mono (gives_requireSameProfile _ _) hread fun _ h => h) fun _ _ => ?_
  refine gives_bind (gives_mono (gives_readPublishWitness p) ?_ fun _ h => h) fun w hw => ?_
  · rintro e (⟨d, rfl⟩ | h)
    · exact .read (readError_unavailable d)
    · exact .publish hp h
  have himage : readImage (s.content j) _ _ = _ := readImage_of_decoded hpoint hw
  have herr : ∀ e, readDecoded (s.content j) point w = .error e → SnapshotError allow s e :=
    fun e h => .image hj hc hp (himage.trans h)
  refine gives_ite (fun hi => ?_) fun hi => gives_ite (fun hs => ?_) fun hs => gives_ite (fun hg => ?_) fun hg => ?_
  · refine gives_ite (fun h => gives_fail (herr _ (by rw [readDecoded, if_pos hi, if_pos h]))) fun h₁ => ?_
    refine gives_bind (gives_mono (gives_fileLen j) ?_ fun _ h => h) ?_
    · rintro e ⟨d, rfl⟩; exact .read (readError_unavailable d)
    · rintro len rfl
      refine gives_ite (fun h => gives_fail (herr _ (by rw [readDecoded, if_pos hi, if_neg h₁, if_pos h]))) fun h₂ => ?_
      exact gives_fail (herr _ (by rw [readDecoded, if_pos hi, if_neg h₁, if_neg h₂]))
  · have hdec : readDecoded (s.content j) point w = (do
        requirePreparedCommitRelation w point
        checkPreparedImage (s.content j) point w
        .error (outcomeUnknown "store publication is PREPARED and has no known result")) := by
      rw [readDecoded, if_neg hi, if_pos hs]
    refine gives_bind (P := fun _ => requirePreparedCommitRelation w point = .ok ())
      (gives_fromExcept (fun _ h => h) fun e h => herr e ?_) fun _ hr => ?_
    · rw [hdec, h]; rfl
    refine gives_bind (gives_mono (gives_validatePreparedCommitPrefix j point w) ?_ fun _ h => h) fun _ hv => ?_
    · rintro e (h | h)
      · exact .prepared hp hw hs h
      · refine herr e ?_
        rw [hdec, hr, h]; rfl
    · exact gives_fail (.prepared hp hw hs ⟨_, rfl⟩)
  · exact gives_fail (herr _ (by rw [readDecoded, if_neg hi, if_neg hs, if_pos hg]))
  · have hdec : readDecoded (s.content j) point w =
        if point.committedBytes < (s.content j).length then
          .error (outcomeUnknown "journal contains bytes beyond the clean commit point")
        else if (s.content j).length < point.committedBytes then
          .error (corrupt "journal is shorter than committedBytes")
        else checkCommittedPrefix (s.content j) point := by
      rw [readDecoded, if_neg hi, if_neg hs, if_neg hg]
    refine gives_bind (gives_mono (gives_readCommittedPrefix j point) ?_ fun _ h => h) ?_
    · rintro e (⟨d, rfl⟩ | ⟨h, rfl⟩ | ⟨h, rfl⟩)
      · exact .read (readError_unavailable d)
      · exact herr _ (by rw [hdec, if_pos h])
      · exact herr _ (by rw [hdec, if_neg (by omega), if_pos h])
    · rintro b ⟨rfl, hlen⟩
      have hd : readDecoded (s.content j) point w = checkCommittedPrefix (s.content j) point := by
        rw [hdec, if_neg (by omega), if_neg (by omega)]
      exact gives_fromExcept (fun snap h => ⟨j, c, p, hj, hc, hp, himage.trans (hd.trans h)⟩)
        fun e h => herr e (hd.trans h)

end

end Aizign
