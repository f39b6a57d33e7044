import Aizign.StoreReads

/-!
# The store without failures

What the reading functions return on private files when no operation fails.
-/

namespace Aizign

open Store

section
variable {me : Nat} {s : Fs}

theorem runs_openDirectoryNoFollow {d : DirRef} {info : DirInfo} (h : s.dirInfo d = some info)
    (hk : info.kind = .directory) : Runs me (openDirectoryNoFollow d) s (.ok ()) := by
  refine runs_bind (a := some info) (runs_io (by simp [Op.run, h])) ?_
  refine runs_ite_neg (by simp [hk]) ?_
  refine runs_bind (a := ()) (runs_io (by simp [Op.run, h, hk])) ?_
  refine runs_bind (a := info) (runs_io (by simp [Op.run, h])) ?_
  exact runs_ite_neg (by simp [hk]) runs_pure

theorem runs_openExistingPrivateDir {owner : Nat} (hd : PrivateDir s owner) :
    Runs me openExistingPrivateDir s (.ok ()) := by
  obtain ⟨d, hd, hk, hm, -⟩ := hd.dir
  refine runs_bind (a := some d) (runs_io (by simp [Op.run, Fs.dirInfo, hd])) ?_
  refine runs_ite_neg (by simp [hk]) ?_
  refine runs_ite_neg (by simp [hm]) ?_
  exact runs_openDirectoryNoFollow (d := .state) hd hk

theorem runs_privateParentOwner {owner : Nat} (hd : PrivateDir s owner) :
    Runs me privateParentOwner s (.ok owner) := by
  refine runs_bind (runs_openExistingPrivateDir hd) ?_
  obtain ⟨d, hdir, -, -, rfl⟩ := hd.dir
  exact runs_bind (a := d) (runs_io (by simp [Op.run, Fs.dirInfo, hdir])) runs_pure

theorem checkPrivateMetadata_of_inode {owner i : Nat} (h : PrivateInode s owner i) :
    checkPrivateMetadata (s.metadata i) owner = .ok () := by
  unfold checkPrivateMetadata
  rw [if_neg (by simp [Fs.metadata, h.uid]), if_neg (by simp [Fs.metadata, h.nlink]),
    if_neg (by simp [Fs.metadata, h.mode])]

theorem runs_pathEntryExists {owner : Nat} (hd : PrivateDir s owner) (n : Name) :
    Runs me (pathEntryExists n) s (.ok (s.entries n).isSome) := by
  refine runs_bind (runs_io (run_lstat_dir hd n)) ?_
  show Runs me (pure _) s _
  rw [Option.isSome_map]
  exact runs_pure

theorem runs_requireExistingPath {owner : Nat} (hd : PrivateDir s owner) {n : Name} {i : Nat}
    (h : s.entries n = some i) (label : String) : Runs me (requireExistingPath n label) s (.ok ()) := by
  refine runs_bind (runs_pathEntryExists hd n) ?_
  exact runs_ite_pos (by simp [h]) runs_pure

theorem runs_inspectPrivateFile {n : Name} {owner i : Nat} (hd : PrivateDir s owner) (he : s.entries n = some i)
    (hp : PrivateInode s owner i) : Runs me (inspectPrivateFile n owner) s (.ok ⟨s.device, i⟩) := by
  refine runs_bind (a := some (s.metadata i)) (runs_io (by rw [run_lstat_dir hd, he]; rfl)) ?_
  refine runs_ite_neg (by simp [Fs.metadata, hp.kind]) ?_
  refine runs_bind (a := ()) ?_ runs_pure
  rw [checkPrivateMetadata_of_inode hp]
  exact runs_fromExcept

theorem runs_checkOpenedPrivateFile {owner i : Nat} {expected : Option FileIdentity} (hp : PrivateInode s owner i)
    (hx : ∀ x ∈ expected, x = ⟨s.device, i⟩) : Runs me (checkOpenedPrivateFile i owner expected) s (.ok ()) := by
  refine runs_bind (a := s.metadata i) (runs_io rfl) ?_
  refine runs_ite_neg (by simp [Fs.metadata, hp.kind]) ?_
  refine runs_bind (a := ()) ?_ ?_
  · rw [checkPrivateMetadata_of_inode hp]; exact runs_fromExcept
  · cases expected with
    | none => exact runs_pure
    | some x => exact runs_ite_neg (by simp [Fs.metadata, hx x rfl]) runs_pure

theorem runs_openedIdentity (i : Nat) : Runs me (openedIdentity i) s (.ok ⟨s.device, i⟩) :=
  runs_bind (a := s.metadata i) (runs_io rfl) runs_pure

theorem runs_openPrivateReadFile {n : Name} {i : Nat} (h : PrivateFile s n i) :
    Runs me (openPrivateReadFile n) s (.ok i) := by
  obtain ⟨he, owner, hd, hp⟩ := h
  refine runs_bind (runs_privateParentOwner hd) (runs_bind (runs_inspectPrivateFile hd he hp) ?_)
  refine runs_bind (a := i) (runs_io (by simp [Op.run, he, hp.kind])) ?_
  exact runs_bind (runs_checkOpenedPrivateFile hp (by simp)) runs_pure

theorem runs_openPrivateWritableFile {n : Name} {i : Nat} (h : PrivateFile s n i) (append : Bool) :
    Runs me (openPrivateWritableFile n false append) s (.ok i) := by
  obtain ⟨he, owner, hd, hp⟩ := h
  refine runs_bind (runs_privateParentOwner hd) ?_
  refine runs_bind (runs_inspectPrivateFile hd he hp) ?_
  refine runs_bind (a := i) (runs_io (by simp [Op.run, he, hp.kind])) ?_
  exact runs_bind (runs_checkOpenedPrivateFile hp (by simp)) runs_pure

theorem runs_observe (t : Target) : Runs me (observe t) s (.ok s.profile) := rfl

theorem runs_qualifyDirectory (hv : validateObservation s.profile = .ok ()) (d : DirRef) :
    Runs me (qualifyDirectory d) s (.ok s.profile) := by
  refine runs_bind (runs_observe _) (runs_bind (a := ()) ?_ runs_pure)
  rw [hv]; exact runs_fromExcept

theorem runs_requireSameProfile (hv : validateObservation s.profile = .ok ()) (t : Target) :
    Runs me (requireSameProfile t s.profile) s (.ok ()) := by
  refine runs_bind (runs_observe _) (runs_bind (a := ()) ?_ (runs_ite_neg (by simp) runs_pure))
  rw [hv]; exact runs_fromExcept

theorem runs_fileLen (i : Nat) : Runs me (fileLen i) s (.ok (s.content i).length) :=
  runs_bind (a := s.metadata i) (runs_io rfl) runs_pure

theorem runs_readBoundedFile {i maximum : Nat} {label : Text} (h : (s.content i).length ≤ maximum) :
    Runs me (readBoundedFile i maximum label) s (.ok (s.content i)) := by
  refine runs_bind (a := s.metadata i) (runs_io rfl) ?_
  refine runs_ite_neg (Nat.not_lt.mpr h) ?_
  refine runs_bind (a := s.content i) (runs_io ?_) (runs_ite_neg (Nat.not_lt.mpr h) runs_pure)
  simp only [Op.run]
  rw [List.take_of_length_le (Nat.le_succ_of_le h)]

theorem runs_readBoundedFile_long {i maximum : Nat} {label : Text} (h : maximum < (s.content i).length) :
    Runs me (readBoundedFile i maximum label) s (.error (.corrupt (label ++ " exceeds its byte bound".toList))) :=
  runs_bind (a := s.metadata i) (runs_io rfl) (runs_ite_pos h runs_fail)

theorem runs_readCommitPoint [SerdeJson] (i : Nat) :
    Runs me (readCommitPoint i) s (CommitPoint.decode (s.content i) maxJournalBytes) := by
  by_cases h : maxCommitMetadataBytes < (s.content i).length
  · rw [CommitPoint.decode_long h]
    exact runs_bind_error (runs_readBoundedFile_long h)
  · exact runs_bind (runs_readBoundedFile (Nat.not_lt.mp h)) runs_fromExcept

theorem runs_readPublishWitness [SerdeJson] (i : Nat) :
    Runs me (readPublishWitness i) s (PublishWitness.decode (s.content i)) := by
  by_cases h : maxPublishMetadataBytes < (s.content i).length
  · rw [PublishWitness.decode_long h]
    exact runs_bind_error (runs_readBoundedFile_long h)
  · exact runs_bind (runs_readBoundedFile (Nat.not_lt.mp h)) runs_fromExcept

theorem runs_verifyOpenedWitness [SerdeJson] {i : Nat} {w : PublishWitness} (h : PublishWitness.decode (s.content i) = .ok w) :
    Runs me (verifyOpenedWitness i w) s (.ok ()) := by
  refine runs_bind (a := w) ?_ (runs_ite_neg (by simp) runs_pure)
  rw [← h]; exact runs_readPublishWitness i

theorem runs_validatePreparedCommitPrefix [SerdeJson] (j : Nat) (point : CommitPoint) (w : PublishWitness) :
    Runs me (validatePreparedCommitPrefix j point w) s (checkPreparedImage (s.content j) point w) := by
  refine runs_bind (runs_mapErr (runs_fileLen j)) ?_
  unfold checkPreparedImage
  by_cases h₁ : (s.content j).length < point.committedBytes
  · rw [if_pos h₁, if_pos h₁]; exact runs_fail
  · rw [if_neg h₁, if_neg h₁]
    by_cases h₂ : point.generation = w.startedGeneration ∧ (s.content j).length ≠ point.committedBytes
    · rw [if_pos h₂, if_pos h₂]; exact runs_fail
    · rw [if_neg h₂, if_neg h₂]
      exact runs_bind (runs_io rfl) runs_fromExcept

theorem runs_readCommittedPrefix {j : Nat} {point : CommitPoint} (h : (s.content j).length = point.committedBytes) :
    Runs me (readCommittedPrefix j point) s (.ok (s.content j)) := by
  refine runs_bind (runs_fileLen j) ?_
  refine runs_ite_neg (by omega) (runs_ite_neg (by omega) ?_)
  refine runs_bind (a := s.content j) (runs_io ?_) (runs_ite_neg (by simp [h]) runs_pure)
  simp only [Op.run]
  rw [List.take_of_length_le (by omega)]

/-- Without failures a snapshot is the image of the three contents. -/
theorem runs_readSnapshot [SerdeJson] {j c p : Nat} (hv : validateObservation s.profile = .ok ()) (hj : PrivateFile s .journal j)
    (hc : PrivateFile s .commit c) (hp : PrivateFile s .publish p) :
    Runs me (readSnapshot s.profile) s (readImage (s.content j) (s.content c) (s.content p)) := by
  refine runs_bind (runs_openPrivateReadFile hj) (runs_bind (runs_requireSameProfile hv _) ?_)
  refine runs_bind (runs_openPrivateReadFile hc) (runs_bind (runs_requireSameProfile hv _) ?_)
  have hcommit : Runs me _ s _ := runs_readCommitPoint c
  unfold readImage
  cases hpoint : CommitPoint.decode (s.content c) maxJournalBytes with
  | error e => rw [hpoint] at hcommit; exact runs_bind_error hcommit
  | ok point =>
    rw [hpoint] at hcommit
    refine runs_bind hcommit ?_
    refine runs_bind (runs_openPrivateReadFile hp) (runs_bind (runs_requireSameProfile hv _) ?_)
    have hpublish : Runs me _ s _ := runs_readPublishWitness p
    cases hw : PublishWitness.decode (s.content p) with
    | error e => rw [hw] at hpublish; exact runs_bind_error hpublish
    | ok w =>
      rw [hw] at hpublish
      refine runs_bind hpublish ?_
      show Runs me _ s (readDecoded (s.content j) point w)
      unfold readDecoded
      by_cases hi : w.isInitializing = true
      · rw [if_pos hi, if_pos hi]
        by_cases h₁ : point ≠ CommitPoint.empty
        · rw [if_pos h₁, if_pos h₁]; exact runs_fail
        · rw [if_neg h₁, if_neg h₁]
          refine runs_bind (runs_fileLen j) ?_
          by_cases h₂ : (s.content j).length ≠ 0
          · rw [if_pos h₂, if_pos h₂]; exact runs_fail
          · rw [if_neg h₂, if_neg h₂]; exact runs_fail
      · rw [if_neg hi, if_neg hi]
        by_cases hs : w.isPreparedSuccessor = true
        · rw [if_pos hs, if_pos hs]
          cases hr : requirePreparedCommitRelation w point with
          | error e => exact runs_bind_error runs_fromExcept
          | ok u =>
            refine runs_bind (a := ()) runs_fromExcept ?_
            have hvp : Runs me _ s _ := runs_validatePreparedCommitPrefix j point w
            cases hcp : checkPreparedImage (s.content j) point w with
            | error e => rw [hcp] at hvp; exact runs_bind_error hvp
            | ok u => rw [hcp] at hvp; exact runs_bind hvp runs_fail
        · rw [if_neg hs, if_neg hs]
          by_cases hg : w ≠ PublishWitness.clean point.generation
          · rw [if_pos hg, if_pos hg]; exact runs_fail
          · rw [if_neg hg, if_neg hg]
            by_cases h₁ : point.committedBytes < (s.content j).length
            · rw [if_pos h₁]
              exact runs_bind_error (runs_bind (runs_fileLen j) (runs_ite_pos h₁ runs_fail))
            · rw [if_neg h₁]
              by_cases h₂ : (s.content j).length < point.committedBytes
              · rw [if_pos h₂]
                exact runs_bind_error (runs_bind (runs_fileLen j) (runs_ite_neg h₁ (runs_ite_pos h₂ runs_fail)))
              · rw [if_neg h₂]
                exact runs_bind (runs_readCommittedPrefix (by omega)) runs_fromExcept

end

end Aizign
