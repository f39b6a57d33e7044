import Aizign.StoreExec

/-!
# An append without failures

On a healthy clean store an append runs its script to the end and returns its
entry; the files are healthy again and read as one entry more.
-/

namespace Aizign

open Store

/-- Ready for an append: a stale temporary commit, if there is one, can be replaced. -/
structure Ready (s : Fs) (owner : Nat) : Prop extends Healthy s owner where
  temp : ∀ i, s.entries .commitTemp = some i → PrivateInode s owner i

section
variable {me : Nat} {s : Fs} {owner : Nat}

theorem exec_io_run {o : Op} {wrap : Text → JournalError} {s t : Fs} {v : o.Val} (h : (o.run me s).1 = .ok v)
    (h' : (o.run me s).2 = t) : (io o wrap).run.exec (Op.run me) s = (.ok v, t) :=
  exec_io_ok (Prod.ext h h')

theorem Healthy.setContent (h : Healthy s owner) (i : Nat) (b : Bytes) : Healthy (s.setContent i b) owner :=
  ⟨h.toOrderly.setContent i b, h.owned, h.profile⟩

theorem Fs.withoutTemp_uid (s : Fs) : s.withoutTemp.uid = s.uid := by unfold Fs.withoutTemp; split <;> rfl

theorem Fs.withoutTemp_profile (s : Fs) : s.withoutTemp.profile = s.profile := by unfold Fs.withoutTemp; split <;> rfl

theorem Healthy.withoutTemp (h : Healthy s owner) : Healthy s.withoutTemp owner :=
  ⟨h.toOrderly.withoutTemp, s.withoutTemp_uid.trans h.owned,
    (congrArg validateObservation s.withoutTemp_profile).trans h.profile⟩

theorem Healthy.create_temp (h : Healthy s owner) : Healthy (s.create .commitTemp) owner :=
  ⟨h.toOrderly.create_temp, h.owned, h.profile⟩

theorem Healthy.withTemp (h : Healthy s owner) : Healthy s.withTemp owner :=
  ⟨h.toOrderly.withTemp, h.withoutTemp.owned, h.withoutTemp.profile⟩

theorem Healthy.renamed (h : Healthy s owner) (b : Bytes) :
    Healthy ((s.withTemp.setContent s.next b).rename .commitTemp .commit) owner :=
  ⟨h.toOrderly.withTemp_renamed h.owned b, h.withTemp.owned, h.withTemp.profile⟩

/-- An append by the owner keeps the files healthy and the lock in its place. -/
theorem AppendPlan.keeps_healthy [SerdeJson] {event : WorkflowEvent} {time : BoundedTimestamp} (plan : AppendPlan s event time)
    (h : Healthy s owner) : Keeps (Event.onFs me) (fun t => Healthy t owner ∧ t.entries .lock = s.entries .lock)
      (fun _ => True) plan.script s := by
  have hset : ∀ (t : Fs) (i : Nat) (b : Bytes), Healthy t owner ∧ t.entries .lock = s.entries .lock →
      Healthy (t.setContent i b) owner ∧ (t.setContent i b).entries .lock = s.entries .lock :=
    fun t i b ht => ⟨ht.1.setContent i b, ht.2⟩
  have hrename : ∀ (t : Fs) (b : Bytes), Healthy t owner ∧ t.entries .lock = s.entries .lock →
      Healthy ((t.withTemp.setContent t.next b).rename .commitTemp .commit) owner ∧
        ((t.withTemp.setContent t.next b).rename .commitTemp .commit).entries .lock = s.entries .lock :=
    fun t b ht => ⟨ht.1.renamed b, (Fs.renamed_entries b (by decide) (by decide)).trans ht.2⟩
  have h₁ := fun b => hset s plan.publish b ⟨h, rfl⟩
  have h₂ := fun b b' => hset _ plan.journal b' (h₁ b)
  refine keeps_rewrite ⟨h, rfl⟩ (fun k => h₁ _) (keeps_append (h₁ _) (fun k => h₂ _ _) ?_)
  refine keeps_commit (s := (s.setContent plan.publish _).setContent plan.journal _) plan.dir (h₂ _ _)
    ⟨(h₂ _ _).1.withoutTemp, Fs.withoutTemp_entries _ _⟩
    ⟨(h₂ _ _).1.withoutTemp.create_temp, Fs.withoutTemp_entries _ _⟩
    (fun k => ⟨(h₂ _ _).1.withTemp.setContent _ _, Fs.withoutTemp_entries _ _⟩) ?_
  rw [← List.append_nil (rewriteScript _ _)]
  exact keeps_rewrite (hrename _ _ (h₂ _ _)) (fun k => hset _ _ _ (hrename _ _ (h₂ _ _)))
    ⟨hset _ _ _ (hrename _ _ (h₂ _ _)), trivial⟩

theorem Healthy.privateTemp (h : Healthy s owner) : PrivateInode s.withTemp owner s.next := by
  have hp := plain_withTemp h.owned (s.withTemp.content s.next)
  rw [Fs.setContent_self] at hp
  have he : s.withTemp.entries .commitTemp = some s.next := by simp [Fs.withTemp, Fs.create_entries]
  exact ⟨hp.kind, hp.uid, by rw [Fs.nlink_tidy h.withTemp.tidy he, hp.links], hp.mode⟩

theorem exec_openPrivateReplaceFile (h : Ready s owner) :
    openPrivateReplaceFile.run.exec (Op.run me) s = (.ok s.next, s.withTemp) := by
  unfold openPrivateReplaceFile
  refine (exec_bind_ok (runs_privateParentOwner h.dir)).trans ?_
  refine (exec_bind_ok (runs_pathEntryExists h.dir _)).trans ?_
  -- creating the temporary file, where there is none
  have hcreate : (do
      let file ← io (.openWritable .commitTemp true false) (unavailableAt "cannot replace temporary file: ")
      io .hook (unavailableAt "cannot replace temporary file: ")
      io (.chmod file 0o600) (unavailableAt "cannot replace temporary file: ")
      checkOpenedPrivateFile file owner none
      return file : Store Nat).run.exec (Op.run me) s.withoutTemp = (.ok s.next, s.withTemp) := by
    have hrun : (Op.openWritable .commitTemp true false).run me s.withoutTemp =
        (.ok s.next, s.withoutTemp.create .commitTemp) := by
      obtain ⟨d, hd, -⟩ := h.dir.dir
      simp [Op.run, Fs.withoutTemp_entries, hd]
    refine (exec_bind_ok (exec_io_ok hrun)).trans ?_
    refine (exec_bind_ok (a := ()) (exec_io_run rfl rfl)).trans ?_
    refine (exec_bind_ok (a := ()) (t := s.withTemp) (exec_io_run rfl rfl)).trans ?_
    exact exec_bind_ok (runs_checkOpenedPrivateFile h.privateTemp (by simp))
  cases ht : s.entries .commitTemp with
  | none =>
    have : s.withoutTemp = s := by rw [Fs.withoutTemp, ht]; rfl
    rw [this] at hcreate
    exact hcreate
  | some i =>
    have hi := h.temp i ht
    have hrun : (Op.remove .commitTemp).run me s = (.ok (), s.withoutTemp) := by
      simp [Op.run, Fs.withoutTemp, ht]
    have hopen : (Op.openRead .commitTemp).run me s = (.ok i, s) := by
      simp [Op.run, ht, hi.kind]
    refine (exec_bind_ok (runs_inspectPrivateFile h.dir ht hi)).trans ?_
    refine (exec_bind_ok (exec_io_ok hopen)).trans ?_
    refine (exec_bind_ok (runs_checkOpenedPrivateFile hi (by simp))).trans ?_
    exact (exec_bind_ok (exec_io_ok hrun)).trans hcreate

def Fs.published (s : Fs) (point : CommitPoint) : Fs :=
  (s.withTemp.setContent s.next point.encode).rename .commitTemp .commit

theorem Fs.published_commit (s : Fs) (point : CommitPoint) :
    (s.published point).entries .commit = some s.next ∧ (s.published point).content s.next = point.encode := by
  refine ⟨?_, Fs.content_setContent_same _ _ _⟩
  simp [Fs.published, Fs.rename_entries, Fs.withTemp, Fs.create_entries]

/-- `publish_commit` from the read back on. -/
def verifyCommit [SerdeJson] (profile : ProfileObservation) (point : CommitPoint) (unknown : Bool) : Store Unit := do
  let published ← mapErr (fun e => classify unknown "cannot reopen commit metadata: " e.text)
    (openPrivateReadFile .commit)
  mapErr (fun e => classify unknown "published commit profile failed: " e.text)
    (requireSameProfile (.file published) profile)
  let decoded ← mapErr (fun e => classify unknown "cannot verify published commit metadata: " e.text)
    (readCommitPoint published)
  if decoded ≠ point then fail (classify unknown "published commit metadata changed" []) else return ()

theorem leads_publishCommit [SerdeJson] {profile : ProfileObservation} (h : Ready s owner) (hp : profile = s.profile)
    (point : CommitPoint) (unknown : Bool) :
    Leads me (publishCommit profile point unknown) s (verifyCommit profile point unknown) (s.published point) := by
  subst hp
  have hempty : s.withTemp.content s.next = [] := by simp [Fs.withTemp, Fs.content_create]
  have hprof : s.withTemp.profile = s.profile := s.withoutTemp_profile
  have hrename : (Op.rename .commitTemp .commit).run me (s.withTemp.setContent s.next point.encode) =
      (.ok (), s.published point) := by
    simp [Op.run, Fs.withTemp, Fs.create_entries, Fs.published]
  unfold publishCommit
  refine (leads_bind (exec_mapErr_ok (exec_openPrivateReplaceFile h))).trans ?_
  have hsame : Runs me (requireSameProfile (.file s.next) s.withTemp.profile) s.withTemp (.ok ()) :=
    runs_requireSameProfile h.withTemp.profile _
  rw [hprof] at hsame
  refine (leads_bind (runs_mapErr hsame)).trans ?_
  refine (leads_bind (a := ()) (t := s.withTemp.setContent s.next point.encode) (exec_io_run rfl ?_)).trans ?_
  · simp [Op.run, hempty]
  refine (leads_bind (a := ()) (exec_io_run rfl rfl)).trans ?_
  refine (leads_bind (exec_io_ok hrename)).trans ?_
  exact leads_bind (a := ()) (exec_io_run rfl rfl)

theorem exec_publishCommit [SerdeJson] {profile : ProfileObservation} (h : Ready s owner) (hp : profile = s.profile)
    {point : CommitPoint} {unknown : Bool} (hd : CommitPoint.decode point.encode maxJournalBytes = .ok point) :
    (publishCommit profile point unknown).run.exec (Op.run me) s = (.ok (), s.published point) := by
  refine (leads_publishCommit h hp point unknown).exec.trans ?_
  obtain ⟨he, hc⟩ := s.published_commit point
  have hh : Healthy (s.published point) owner := h.toHealthy.renamed point.encode
  have hprof : (s.published point).profile = profile := s.withoutTemp_profile.trans hp.symm
  refine (exec_bind_ok (runs_mapErr (runs_openPrivateReadFile (hh.privateFile (by decide) he)))).trans ?_
  have hsame : Runs me (requireSameProfile (.file s.next) (s.published point).profile) (s.published point) (.ok ()) :=
    runs_requireSameProfile hh.profile _
  rw [hprof] at hsame
  refine (exec_bind_ok (runs_mapErr hsame)).trans ?_
  have hr : Runs me _ (s.published point) _ := runs_readCommitPoint s.next
  rw [hc, hd] at hr
  refine (exec_bind_ok (runs_mapErr hr)).trans ?_
  exact runs_ite_neg (by simp) runs_pure

theorem exec_rewriteWitness {i : Nat} {w : PublishWitness} {unknown : Bool} :
    (rewriteWitness i w unknown).run.exec (Op.run me) s = (.ok (), s.setContent i w.encode) := by
  unfold rewriteWitness rewriteFile
  refine (exec_bind_ok (a := ()) (t := s.setContent i w.encode) ?_).trans ?_
  · refine (exec_bind_ok (a := ()) (t := s.setContent i []) (exec_io_run rfl rfl)).trans ?_
    exact exec_io_run rfl (by simp [Op.run])
  · exact exec_io_run rfl rfl

/-! ## The whole append -/

def finishAppend [SerdeJson] (profile : ProfileObservation) (point : CommitPoint) (p G : Nat) (entry : JournalEntry) :
    Store JournalEntry := do
  publishCommit profile point true
  rewriteWitness p (PublishWitness.clean (G + 1)) true
  mapErr (fun e => outcomeUnknownAt "CLEAN verification failed: " e.text)
    (verifyOpenedWitness p (PublishWitness.clean (G + 1)))
  io .hook (outcomeUnknownAt "append completion failed: ")
  return entry

/-- Everything of an append before it changes a file. -/
theorem leads_publishAppend [SerdeJson] {J C W : Bytes} {l : Nat} {snap : Snapshot} {event : WorkflowEvent}
    {time : BoundedTimestamp} (h : Healthy s owner) (hs : Shows s J C W) (hl : s.entries .lock = some l)
    (hc : CleanImage J C W snap) (hm : snap.point.generation ≤ maxJournalEntries) {j p : Nat}
    (hj : s.entries .journal = some j) (hp : s.entries .publish = some p) (hW : s.content p = W)
    {entry : JournalEntry} (he : entry = ⟨snap.entries.length + 1, time, event⟩) :
    Leads me (appendWithOps l event time) s (publishAppend s.profile snap p j entry (entryLine entry)) s := by
  have hprofile := fun t => (runs_requireSameProfile h.profile t : Runs me _ s _)
  have hseq : entry.seq = snap.entries.length + 1 := by rw [he]
  obtain ⟨h₀, h₁⟩ := hc.seq hm hseq
  unfold appendWithOps
  refine (leads_bind (runs_openExistingPrivateDir h.dir)).trans ?_
  refine (leads_bind (runs_qualifyDirectory h.profile _)).trans ?_
  refine (leads_bind (runs_revalidateLock h.profile (h.privateFile (by decide) hl))).trans ?_
  have hsnap : Runs me _ s _ := runs_readSnapshot_shows h hs
  rw [hc.reads] at hsnap
  refine (leads_bind hsnap).trans ?_
  rw [if_neg (by omega)]
  refine (leads_bind (runs_openPrivateWritableFile (h.privateFile (by decide) hp) _)).trans ?_
  refine (leads_bind (hprofile _)).trans ?_
  have hw : Runs me _ s _ := runs_readPublishWitness p
  rw [hW, hc.witness] at hw
  refine (leads_bind hw).trans ?_
  rw [if_neg (by simp)]
  refine (leads_bind (runs_openPrivateWritableFile (h.privateFile (by decide) hj) _)).trans ?_
  refine (leads_bind (hprofile _)).trans ?_
  rw [← he]
  refine leads_bind (a := entry.dto.cst.text) (t := s) ?_
  rw [encodeEntry_ok h₀ h₁]
  rfl

/-- Everything of an append before the commit is published. -/
theorem leads_appendWithOps [SerdeJson] {J C W : Bytes} {l : Nat} {snap : Snapshot} {event : WorkflowEvent}
    {time : BoundedTimestamp} (h : Healthy s owner) (hs : Shows s J C W) (hl : s.entries .lock = some l)
    (hc : CleanImage J C W snap) (hm : snap.point.generation ≤ maxJournalEntries) {j p : Nat}
    (hj : s.entries .journal = some j) (hp : s.entries .publish = some p) (hJ : s.content j = J) (hW : s.content p = W)
    {entry : JournalEntry} (he : entry = ⟨snap.entries.length + 1, time, event⟩) :
    Leads me (appendWithOps l event time) s
      (finishAppend s.profile (CommitPoint.forPrefix (J ++ entryLine entry) entry.seq) p snap.point.generation entry)
      ((s.setContent p (PublishWitness.prepared (snap.point.generation + 1)).encode).setContent j
        (J ++ entryLine entry)) := by
  have hg : 0 < snap.point.generation := by rw [hc.generation]; omega
  have hpj : j ≠ p := by
    rintro rfl
    exact h.tidy.ne hp (by decide) hj
  refine (leads_publishAppend h hs hl hc hm hj hp hW he).trans ?_
  unfold publishAppend
  rw [hc.bytes]
  refine (leads_bind exec_rewriteWitness).trans ?_
  refine (leads_bind (runs_mapErr (runs_verifyOpenedWitness ?_))).trans ?_
  · rw [Fs.content_setContent_same]
    exact PublishWitness.decode_encode (PublishWitness.prepared_valid hg hm)
  have happend : ((Op.append j (entryLine entry)).run me
      (s.setContent p (PublishWitness.prepared (snap.point.generation + 1)).encode)).2 =
      (s.setContent p (PublishWitness.prepared (snap.point.generation + 1)).encode).setContent j (J ++ entryLine entry) := by
    simp only [Op.run]
    rw [Fs.content_setContent_ne _ _ hpj, hJ]
  refine (leads_bind (a := ()) (exec_io_run rfl happend)).trans ?_
  exact leads_bind (a := ()) (exec_io_run rfl rfl)

/-- The files of a store that reads as `snap`; nothing is said about a temporary file left behind. -/
structure CleanFiles [SerdeJson] (s : Fs) (owner l : Nat) (snap : Snapshot) : Prop where
  healthy : Healthy s owner
  lock : s.entries .lock = some l
  image : ∃ J C W, Shows s J C W ∧ CleanImage J C W snap

/-- Files in which an append can replace the commit point. -/
structure CleanStore [SerdeJson] (s : Fs) (owner l : Nat) (snap : Snapshot) : Prop extends CleanFiles s owner l snap where
  temp : ∀ i, s.entries .commitTemp = some i → PrivateInode s owner i

theorem CleanStore.ready [SerdeJson] {l : Nat} {snap : Snapshot} (h : CleanStore s owner l snap) : Ready s owner :=
  ⟨h.healthy, h.temp⟩

theorem Ready.setContent (h : Ready s owner) {n : Name} {i : Nat} (hn : n ≠ .commitTemp) (hi : s.entries n = some i)
    (b : Bytes) : Ready (s.setContent i b) owner := by
  refine ⟨h.toHealthy.setContent i b, fun k hk => ?_⟩
  have hp := h.temp k hk
  have hki : k ≠ i := by
    rintro rfl
    exact h.tidy.ne hi hn.symm hk
  have hin : (s.setContent i b).inodes k = s.inodes k := by simp [Fs.setContent, Fs.setInode, hki]
  have hnl : (s.setContent i b).nlink k = s.nlink k := by rw [Fs.nlink, Fs.nlink, hin]; rfl
  exact ⟨by rw [hin]; exact hp.kind, by rw [hin]; exact hp.uid, by rw [hnl]; exact hp.nlink, by rw [hin]; exact hp.mode⟩

/-- A clean store up to the journal write of an append: the files, what they show, and that the append gets there. -/
theorem CleanStore.written [SerdeJson] (me : Nat) {l : Nat} {snap : Snapshot} {event : WorkflowEvent} {time : BoundedTimestamp}
    (h : CleanStore s owner l snap) (hm : snap.point.generation ≤ maxJournalEntries) {entry : JournalEntry}
    (he : entry = ⟨snap.entries.length + 1, time, event⟩) :
    ∃ C W p t, CleanImage snap.bytes C W snap ∧ s.image .publish = some W ∧ Ready t owner ∧
      Shows t (snap.bytes ++ entryLine entry) C (PublishWitness.prepared (snap.point.generation + 1)).encode ∧
      t.entries .lock = some l ∧ t.entries .publish = some p ∧ t.locks = s.locks ∧
      Leads me (appendWithOps l event time) s (finishAppend t.profile
        (CommitPoint.forPrefix (snap.bytes ++ entryLine entry) entry.seq) p snap.point.generation entry) t := by
  have hready := h.ready
  obtain ⟨⟨-, hl, J, C, W, hs, hc⟩, -⟩ := h
  obtain rfl := hc.bytes
  obtain ⟨j, c, p, hj, -, hp, hJ, -, hW⟩ := hs.inodes
  have hr₁ := hready.setContent (by decide) hp (PublishWitness.prepared (snap.point.generation + 1)).encode
  refine ⟨C, W, p, _, hc, hs.publish, hr₁.setContent (by decide) hj (snap.bytes ++ entryLine entry), ?_, hl, hp, rfl,
    leads_appendWithOps hready.toHealthy hs hl hc hm hj hp hJ hW he⟩
  exact (hs.publish_set hready.tidy hp _).journal_set (hready.tidy.setContent _ _) hj _

/-- Without failures an append below the bounds returns its entry and leaves a clean store with it. -/
theorem exec_appendWithOps [SerdeJson] {l : Nat} {snap : Snapshot} {event : WorkflowEvent} {time : BoundedTimestamp}
    (h : CleanStore s owner l snap) (hm : snap.point.generation ≤ maxJournalEntries) {entry : JournalEntry}
    (he : entry = ⟨snap.entries.length + 1, time, event⟩)
    (hb : (snap.bytes ++ entryLine entry).length ≤ maxJournalBytes) :
    ∃ t, (appendWithOps l event time).run.exec (Op.run me) s = (.ok entry, t) ∧ t.locks = s.locks ∧
      CleanStore t owner l ⟨CommitPoint.forPrefix (snap.bytes ++ entryLine entry) entry.seq,
        snap.bytes ++ entryLine entry, snap.entries ++ [entry]⟩ := by
  have hseq : entry.seq = snap.entries.length + 1 := by rw [he]
  obtain ⟨C, W, p, t, hc, -, hready, hs, hl, hp, hlocks, hleads⟩ := h.written me hm he
  have hwitness := PublishWitness.clean_valid (Nat.succ_pos snap.point.generation) (Nat.succ_le_succ hm)
  generalize hpoint : CommitPoint.forPrefix (snap.bytes ++ entryLine entry) entry.seq = point at hleads
  have hpub := hs.renamed point.encode
  have hhealthy := hready.toHealthy.renamed point.encode
  have hp₃ : (t.published point).entries .publish = some p := (Fs.renamed_entries _ (by decide) (by decide)).trans hp
  have hl₃ : (t.published point).entries .lock = some l := (Fs.renamed_entries _ (by decide) (by decide)).trans hl
  refine ⟨(t.published point).setContent p (PublishWitness.clean (snap.point.generation + 1)).encode, ?_, ?_,
    ⟨hhealthy.setContent _ _, hl₃, _, _, _, hpub.publish_set hhealthy.tidy hp₃ _, ?_⟩, fun i hi => ?_⟩
  · refine hleads.exec.trans ?_
    refine (exec_bind_ok (exec_publishCommit hready rfl ?_)).trans ?_
    · rw [← hpoint]; exact hc.nextPoint hm hseq hb
    refine (exec_bind_ok exec_rewriteWitness).trans ?_
    refine (exec_bind_ok (runs_mapErr (runs_verifyOpenedWitness ?_))).trans ?_
    · rw [Fs.content_setContent_same]
      exact PublishWitness.decode_encode hwitness
    · exact exec_bind_ok (a := ()) (exec_io_run rfl rfl)
  · rw [← hlocks]
    show t.withoutTemp.locks = t.locks
    unfold Fs.withoutTemp
    split <;> rfl
  · rw [← hpoint]; exact hc.next hm hseq hb
  · simp [Fs.published, Fs.rename_entries] at hi

theorem exec_appendWithOps_full [SerdeJson] {l : Nat} {snap : Snapshot} {event : WorkflowEvent} {time : BoundedTimestamp}
    (h : CleanStore s owner l snap) (hm : snap.point.generation = maxJournalEntries + 1) :
    Runs me (appendWithOps l event time) s (.error (.boundExceeded maxJournalEntries)) := by
  have hready := h.ready
  obtain ⟨⟨-, hl, J, C, W, hs, hc⟩, -⟩ := h
  refine runs_bind (runs_openExistingPrivateDir hready.dir) (runs_bind (runs_qualifyDirectory hready.profile _) ?_)
  refine runs_bind (runs_revalidateLock hready.profile (hready.privateFile (by decide) hl)) ?_
  have hsnap : Runs me _ s _ := runs_readSnapshot_shows hready.toHealthy hs
  rw [hc.reads] at hsnap
  exact runs_bind hsnap (runs_ite_pos hm runs_fail)

end

/-! ## A clean store -/

def cleanProfile : ProfileObservation := ⟨1, 8, 1, "ext4".toList, extFamilyMagic, false, false⟩

def artifactOf (b : Bytes) : Inode := ⟨.file, b, 0, 0o600, 0⟩

def storeWith (J C W : Bytes) : Fs where
  dir := some ⟨.directory, 0, 0o700, 1, 100⟩
  parents := [some ⟨.directory, 0, 0o700, 1, 99⟩]
  entries n := match n with
    | .lock => some 0
    | .journal => some 1
    | .commit => some 2
    | .publish => some 3
    | .commitTemp => none
  inodes i := match i with
    | 1 => artifactOf J
    | 2 => artifactOf C
    | 3 => artifactOf W
    | _ => artifactOf []
  next := 4
  locks := []
  device := 1
  profile := cleanProfile
  uid := 0
  umask := 0o022
  fresh := by
    intro n i h
    cases n <;> simp at h <;> omega

theorem storeWith_healthy (J C W : Bytes) : Healthy (storeWith J C W) 0 := by
  have hplain : ∀ i, Plain (storeWith J C W) 0 i := by
    intro i
    match i with
    | 0 | 1 | 2 | 3 | i + 4 => exact ⟨rfl, rfl, by show 0o600 &&& 0o7777 = 0o600; decide, rfl⟩
  refine ⟨⟨⟨_, rfl, rfl, by decide, rfl⟩, ?_, fun n i _ _ => hplain i⟩, rfl, rfl⟩
  intro m n i hm hn
  have hmn := hm.trans hn.symm
  cases m <;> cases n <;> first | rfl | simp [storeWith] at hmn

theorem storeWith_clean [SerdeJson] {J C W : Bytes} {snap : Snapshot} (h : CleanImage J C W snap) :
    CleanStore (storeWith J C W) 0 0 snap := by
  refine ⟨⟨storeWith_healthy J C W, rfl, J, C, W, ⟨rfl, rfl, rfl⟩, h⟩, fun i hi => ?_⟩
  cases hi

def newStore : Fs := storeWith [] CommitPoint.empty.encode (PublishWitness.clean 1).encode

theorem newStore_clean [SerdeJson] : CleanStore newStore 0 0 ⟨CommitPoint.empty, [], []⟩ :=
  storeWith_clean cleanImage_empty

end Aizign
