import Aizign.StoreAppend

/-!
# The scripts of a writer open

Under the lock, `open_with_ops` follows one of three scripts: a fresh store, a
store whose witness was never created, a store whose witness stopped at (1,0).
On every other image it changes nothing.
-/

namespace Aizign

open Store

variable [SerdeJson]

def completeScript (p : Nat) : List Op := .syncDir .state :: rewriteScript p (.clean 1)

def witnessScript (p : Nat) : List Op :=
  [.openWritable .publish true false, .chmod p 0o600] ++ (rewriteScript p .initializing ++ completeScript p)

/-- From the journal's creation on; `n` is the next inode. -/
def freshScript (stale : Bool) (lock n : Nat) : List Op :=
  [.openWritable .journal true true, .chmod n 0o600, .sync lock, .sync n, .syncDir .state] ++
    (commitScript stale (n + 1) CommitPoint.empty ++ witnessScript (n + 2))

/-! ## Lock operations in a script -/

section
variable {me : Nat} {allow : OpError → Prop} {α : Type} {C : Hist → Prop}

omit [SerdeJson] in
theorem wp_acquireExclusive {i : Nat} {Q : Except JournalError Unit → Hist → Prop} {h : Hist} (hC₀ : C h)
    (hC : ∀ l, C ⟨h.fs.withLocks l, h.done⟩) (hok : ∀ l, Q (.ok ()) ⟨h.fs.withLocks l, h.done⟩)
    (herr : ∀ e l, e.isOutcomeUnknown = false → Q (.error e) ⟨h.fs.withLocks l, h.done⟩) :
    Store.wp me allow C (acquireExclusive i) Q h := by
  refine wp_bind ⟨hC₀, fun r h' hs => ?_⟩
  obtain ⟨l, rfl⟩ := Op.step_lock (Or.inl ⟨i, true, rfl⟩) hs
  cases r with
  | error e => exact ⟨hC l, herr _ l rfl⟩
  | ok acquired =>
    refine ⟨hC l, ?_⟩
    cases acquired with
    | true => exact wp_pure (hC l) (hok l)
    | false => exact wp_fail (hC l) (herr _ l rfl)

omit [SerdeJson] in
theorem wp_holding {i : Nat} {p : Store α} {Q : Except JournalError α → Hist → Prop} {h : Hist}
    (hC : ∀ h l, C h → C ⟨h.fs.withLocks l, h.done⟩)
    (hp : Store.wp me allow C p (fun r h' =>
      match r with
      | .ok a => Q (.ok a) h'
      | .error e => ∀ l, Q (.error e) ⟨h'.fs.withLocks l, h'.done⟩) h) : Store.wp me allow C (holding i p) Q h := by
  refine Prog.wp_bind (Prog.wp_mono (fun _ h => h) ?_ hp)
  intro r h' hC' hr
  cases r with
  | ok a => exact ⟨hC', hr⟩
  | error e =>
    refine ⟨hC', fun r h'' hs => ?_⟩
    obtain ⟨l, rfl⟩ := Op.step_lock (Or.inr ⟨i, rfl⟩) hs
    exact ⟨hC _ l hC', hr l⟩

end

/-! ## Initialization -/

theorem openMetadata_refusal {what : Text} {max : Nat} {b : Bytes} {e : JournalError}
    (h : openMetadata what max b = .error e) : e.isRefusal = true := by
  unfold openMetadata at h
  repeat' split at h
  all_goals first | (cases h; rfl) | cases h

theorem CommitPoint.decode_refusal {b : Bytes} {max : Nat} {e : JournalError}
    (h : CommitPoint.decode b max = .error e) : e.isRefusal = true := by
  unfold CommitPoint.decode at h
  cases ho : openMetadata commitWhat maxCommitMetadataBytes b with
  | error e' => rw [ho] at h; cases h; exact openMetadata_refusal ho
  | ok c =>
    simp only [ho, bind, Except.bind] at h
    split at h
    · cases h; rfl
    · unfold CommitPoint.ofDto at h
      repeat' split at h
      all_goals first | (cases h; rfl) | cases h

theorem PublishWitness.decode_refusal {b : Bytes} {e : JournalError} (h : PublishWitness.decode b = .error e) :
    e.isRefusal = true := by
  unfold PublishWitness.decode at h
  cases ho : openMetadata publishWhat maxPublishMetadataBytes b with
  | error e' => rw [ho] at h; cases h; exact openMetadata_refusal ho
  | ok c =>
    simp only [ho, bind, Except.bind] at h
    split at h
    · cases h; rfl
    · unfold PublishWitness.ofDto at h
      simp only at h
      repeat' split at h
      all_goals first | (cases h; rfl) | cases h

theorem CommitPoint.decode_known {b : Bytes} {max : Nat} {e : JournalError} (h : CommitPoint.decode b max = .error e) :
    e.isOutcomeUnknown = false := JournalError.known_of_refusal (CommitPoint.decode_refusal h)

theorem PublishWitness.decode_known {b : Bytes} {e : JournalError} (h : PublishWitness.decode b = .error e) :
    e.isOutcomeUnknown = false := JournalError.known_of_refusal (PublishWitness.decode_refusal h)

/-- The errors of initialization: nothing about a publication. -/
def InitError (allow : OpError → Prop) (e : JournalError) : Prop := e.isOutcomeUnknown = false ∨ allow (.profile e)

omit [SerdeJson] in
theorem initError_read {allow : OpError → Prop} {e : JournalError} (h : ReadError allow e) : InitError allow e := by
  rcases h with ⟨d, rfl⟩ | h
  · exact Or.inl rfl
  · exact Or.inr h

omit [SerdeJson] in
theorem initError_classified {allow : OpError → Prop} {e : JournalError} (h : Classified false e) : InitError allow e := by
  obtain ⟨d, rfl⟩ := h
  exact Or.inl rfl

section
variable {me : Nat} {allow : OpError → Prop} {script : List Op} {s₀ : Fs} {C : Hist → Prop}
  (hC : ∀ h, Along me script s₀ h → C h)

theorem gives_verifyOpenedWitness_init {s : Fs} (i : Nat) (w : PublishWitness) :
    Gives me allow (verifyOpenedWitness i w) s (InitError allow) fun _ => PublishWitness.decode (s.content i) = .ok w := by
  refine gives_mono (gives_verifyOpenedWitness i w) ?_ fun _ h => h
  rintro e (⟨d, rfl⟩ | ⟨d, rfl⟩ | h)
  · exact Or.inl rfl
  · exact Or.inl rfl
  · exact Or.inl (PublishWitness.decode_known h)

include hC in
omit [SerdeJson] in
theorem wp_createWritable {n : Name} {app : Bool} {owner : Nat} {rest : List Op} {h : Hist}
    {Q : Except JournalError Nat → Hist → Prop}
    (ht : Todo me script s₀ (.openWritable n true app :: .chmod h.fs.next 0o600 :: rest) h)
    (hok : ∀ h', h'.fs.next = h.fs.next + 1 → h'.fs.entries .commitTemp = (h.fs.create n).entries .commitTemp →
      Todo me script s₀ rest h' → Q (.ok h.fs.next) h')
    (herr : ∀ e h', Along me script s₀ h' → InitError allow e → Q (.error e) h') :
    Store.wp me allow C (createWritable n app owner) Q h := by
  unfold createWritable
  refine wp_gives_todo hC (looks_pathEntryExists _) ht (gives_pathEntryExists _) (fun present _ => ?_)
    fun e he => herr e h ht.along (initError_read he)
  cases present with
  | true => exact wp_fail (hC _ ht.along) (herr _ _ ht.along (Or.inl rfl))
  | false =>
    refine wp_io_todo_bind hC ht rfl (fun file h₁ hr₁ ht₁ => ?_) fun t h' ha => herr _ _ ha (Or.inl rfl)
    obtain ⟨-, -, rfl, hfs₁⟩ := Op.run_create hr₁
    refine wp_gives_todo hC (looks_io rfl _) ht₁ (gives_io (P := fun _ => True) (E := InitError allow) (by simp)
      (fun _ _ => trivial) fun _ => Or.inl rfl) (fun _ _ => ?_) fun e he => herr e h₁ ht₁.along he
    refine wp_io_todo_bind hC ht₁ rfl (fun _ h₂ hr₂ ht₂ => ?_) fun t h' ha => herr _ _ ha (Or.inl rfl)
    have h₁₂ : h₂.fs = h₁.fs.setInode h.fs.next fun x => { x with mode := 0o600 } := (congrArg Prod.snd hr₂).symm
    refine wp_gives_todo hC (looks_checkOpenedPrivateFile _ _ _) ht₂ (gives_checkOpenedPrivateFile _ _ _)
      (fun _ _ => wp_pure (hC _ ht₂.along) (hok h₂ ?_ ?_ ht₂)) fun e he => herr e h₂ ht₂.along (initError_read he)
    · rw [h₁₂, hfs₁]; rfl
    · rw [h₁₂, hfs₁]; rfl

include hC in
omit [SerdeJson] in
theorem wp_barrierDirectoryUntracked {rest : List Op} {h : Hist} {Q : Except JournalError Unit → Hist → Prop}
    (ht : Todo me script s₀ (.syncDir .state :: rest) h)
    (hok : ∀ h', h'.fs = h.fs → Todo me script s₀ rest h' → Q (.ok ()) h')
    (herr : ∀ e h', Along me script s₀ h' → InitError allow e → Q (.error e) h') :
    Store.wp me allow C (barrierDirectoryUntracked false) Q h := by
  unfold barrierDirectoryUntracked
  refine wp_gives_todo hC (looks_mapErr (looks_openDirectoryNoFollow _)) ht
    (gives_unavailable (gives_openDirectoryNoFollow _)) (fun _ _ => ?_)
    fun e he => herr e h ht.along (initError_classified he)
  refine wp_io_todo hC ht rfl (fun _ h₁ hr₁ ht₁ => hok h₁ (congrArg Prod.snd hr₁).symm ht₁) fun t h' ha =>
    herr _ _ ha (initError_classified (classified ..))

include hC in
theorem wp_completeWitness {profile : ProfileObservation} {changed : String} {d p : Nat} {h : Hist}
    {Q : Except JournalError Unit → Hist → Prop} (ht : Todo me script s₀ (completeScript p) h)
    (hok : ∀ h', Todo me script s₀ [] h' → Q (.ok ()) h')
    (herr : ∀ e h', Along me script s₀ h' → InitError allow e → Q (.error e) h') :
    Store.wp me allow C (completeWitness ⟨d, p⟩ profile changed) Q h := by
  unfold completeWitness
  refine wp_bind (wp_barrierDirectoryUntracked hC ht (fun h₁ _ ht₁ => ?_) herr)
  have hread : ∀ e, ReadError allow e → Q (.error e) h₁ := fun e he => herr e _ ht₁.along (initError_read he)
  refine wp_gives_todo hC (looks_openPrivateWritableFile _ _) ht₁ (gives_openPrivateWritableFile _ _) (fun i _ => ?_) hread
  refine wp_gives_todo hC (looks_requireSameProfile _ _) ht₁ (gives_requireSameProfile _ _) (fun _ _ => ?_) hread
  refine wp_gives_todo hC (looks_openedIdentity _) ht₁ (gives_openedIdentity _) (fun x hx => ?_) hread
  subst hx
  by_cases hne : (⟨h₁.fs.device, i⟩ : FileIdentity) ≠ ⟨d, p⟩
  · rw [if_pos hne]
    exact wp_fail (hC _ ht₁.along) (herr _ _ ht₁.along (Or.inl rfl))
  rw [if_neg hne]
  obtain rfl : i = p := (FileIdentity.mk.inj (not_not.mp hne)).2
  refine wp_gives_todo hC (looks_verifyOpenedWitness _ _) ht₁ (gives_verifyOpenedWitness_init _ _) (fun _ _ => ?_)
    fun e he => herr e _ ht₁.along he
  rw [← List.append_nil (rewriteScript _ _)] at ht₁
  refine wp_bind (wp_rewriteWitness hC ht₁ (fun h₂ _ ht₂ => ?_) fun e h' ha he => herr e h' ha (initError_classified he))
  exact wp_gives (looks_verifyOpenedWitness _ _) (hC _ ht₂.along) (gives_verifyOpenedWitness_init _ _)
    (fun _ _ => hok h₂ ht₂) fun e he => herr e _ ht₂.along he

include hC in
theorem wp_initializeWitness {profile : ProfileObservation} {h : Hist} {Q : Except JournalError Unit → Hist → Prop}
    (ht : Todo me script s₀ (witnessScript h.fs.next) h) (hok : ∀ h', Todo me script s₀ [] h' → Q (.ok ()) h')
    (herr : ∀ e h', Along me script s₀ h' → InitError allow e → Q (.error e) h') :
    Store.wp me allow C (initializeWitness profile) Q h := by
  unfold initializeWitness openPrivateUpdateFile openPrivateWritableFile
  refine wp_bind (wp_gives_todo hC looks_privateParentOwner ht gives_privateParentOwner (fun owner _ => ?_)
    fun e he => herr e h ht.along (initError_read he))
  refine wp_createWritable hC ht (fun h₁ _ _ ht₁ => ?_) herr
  have hread : ∀ e, ReadError allow e → Q (.error e) h₁ := fun e he => herr e _ ht₁.along (initError_read he)
  refine wp_gives_todo hC (looks_requireSameProfile _ _) ht₁ (gives_requireSameProfile _ _) (fun _ _ => ?_) hread
  refine wp_gives_todo hC (looks_openedIdentity _) ht₁ (gives_openedIdentity _) (fun x hx => ?_) hread
  subst hx
  refine wp_bind (wp_rewriteWitness hC ht₁ (fun h₂ _ ht₂ => ?_) fun e h' ha he => herr e h' ha (initError_classified he))
  refine wp_gives_todo hC (looks_verifyOpenedWitness _ _) ht₂ (gives_verifyOpenedWitness_init _ _) (fun _ _ => ?_)
    fun e he => herr e _ ht₂.along he
  exact wp_completeWitness hC ht₂ hok herr

include hC in
theorem wp_initializeFreshStore {profile : ProfileObservation} {lock journal : Nat} {h : Hist}
    {Q : Except JournalError Unit → Hist → Prop}
    (ht : Todo me script s₀ ([.sync lock, .sync journal, .syncDir .state] ++
      (commitScript (h.fs.entries .commitTemp).isSome h.fs.next CommitPoint.empty ++ witnessScript (h.fs.next + 1))) h)
    (hok : ∀ h', Todo me script s₀ [] h' → Q (.ok ()) h')
    (herr : ∀ e h', Along me script s₀ h' → InitError allow e → Q (.error e) h') :
    Store.wp me allow C (initializeFreshStore profile lock journal) Q h := by
  unfold initializeFreshStore
  refine wp_io_todo_bind hC ht rfl (fun _ h₁ hr₁ ht₁ => ?_) fun t h' ha => herr _ _ ha (Or.inl rfl)
  refine wp_io_todo_bind hC ht₁ rfl (fun _ h₂ hr₂ ht₂ => ?_) fun t h' ha => herr _ _ ha (Or.inl rfl)
  refine wp_bind (wp_barrierDirectoryUntracked hC ht₂ (fun h₃ hf₃ ht₃ => ?_) herr)
  have hfs : h₃.fs = h.fs := hf₃.trans ((congrArg Prod.snd hr₂).symm.trans (congrArg Prod.snd hr₁).symm)
  refine wp_gives_todo hC (looks_openDirectoryNoFollow _) ht₃ (gives_openDirectoryNoFollow _) (fun _ _ => ?_)
    fun e he => herr e _ ht₃.along (initError_read he)
  rw [← hfs] at ht₃
  refine wp_bind (wp_publishCommit hC ht₃ (fun h₄ _ hn₄ ht₄ => ?_) fun e h' ha he => herr e h' ha (initError_classified he))
  rw [← hn₄] at ht₄
  exact wp_initializeWitness hC ht₄ hok herr

end

/-! ## Under the lock -/

section
variable {s : Fs} {l : List Lock}

omit [SerdeJson] in
theorem PrivateDir.of_withLocks {owner : Nat} (h : PrivateDir (s.withLocks l) owner) : PrivateDir s owner := ⟨h.dir⟩

omit [SerdeJson] in
theorem PrivateFile.of_withLocks {n : Name} {i : Nat} (h : PrivateFile (s.withLocks l) n i) : PrivateFile s n i := by
  obtain ⟨he, owner, hd, hi⟩ := h
  exact ⟨he, owner, hd.of_withLocks, hi.kind, hi.uid, hi.nlink, hi.mode⟩

theorem SnapshotError.of_withLocks {allow : OpError → Prop} {e : JournalError}
    (h : SnapshotError allow (s.withLocks l) e) : SnapshotError allow s e := by
  cases h with
  | read h => exact .read h
  | commit hc h => exact .commit hc.of_withLocks h
  | publish hp h => exact .publish hp.of_withLocks h
  | image hj hc hp h => exact .image hj.of_withLocks hc.of_withLocks hp.of_withLocks h
  | prepared hp hw hs h => exact .prepared hp.of_withLocks hw hs h

end

structure EmptyCommit (s : Fs) (j : Nat) : Prop where
  journal : PrivateFile s .journal j
  empty : s.content j = []
  commit : ∃ c, PrivateFile s .commit c ∧ CommitPoint.decode (s.content c) maxJournalBytes = .ok CommitPoint.empty

inductive ResumeScript (s : Fs) : List Op → Prop
  | bare {j : Nat} (h : EmptyCommit s j) (hp : s.entries .publish = none) : ResumeScript s (witnessScript s.next)
  | resume {j p : Nat} (h : EmptyCommit s j) (hp : PrivateFile s .publish p)
      (hw : PublishWitness.decode (s.content p) = .ok .initializing) : ResumeScript s (.sync p :: completeScript p)

def Untouched (s : Fs) (h : Hist) : Prop := ∃ l, h = ⟨s.withLocks l, []⟩

omit [SerdeJson] in
theorem Untouched.withLocks {s : Fs} {h : Hist} (hu : Untouched s h) (l : List Lock) :
    Untouched s ⟨h.fs.withLocks l, h.done⟩ := by
  obtain ⟨k, rfl⟩ := hu
  exact ⟨l, rfl⟩

omit [SerdeJson] in
theorem Untouched.start (s : Fs) : Untouched s ⟨s, []⟩ := ⟨s.locks, rfl⟩

omit [SerdeJson] in
theorem Untouched.todo {s : Fs} {h : Hist} (hu : Untouched s h) (me : Nat) (script : List Op) :
    Todo me script s script h := by
  obtain ⟨l, rfl⟩ := hu
  exact ⟨0, at_zero rfl ⟨l, rfl⟩, rfl⟩

def OpenHist (me : Nat) (S : List Op → Prop) (s : Fs) (h : Hist) : Prop :=
  Untouched s h ∨ ∃ script, S script ∧ Along me script s h

omit [SerdeJson] in
theorem OpenHist.withLocks {me : Nat} {S : List Op → Prop} {s : Fs} {h : Hist} (ho : OpenHist me S s h) (l : List Lock) :
    OpenHist me S s ⟨h.fs.withLocks l, h.done⟩ := by
  rcases ho with hu | ⟨script, hs, ha⟩
  · exact Or.inl (hu.withLocks l)
  · exact Or.inr ⟨script, hs, ha.withLocks l⟩

def Reads (s : Fs) (snap : Snapshot) : Prop :=
  ∃ j c p, PrivateFile s .journal j ∧ PrivateFile s .commit c ∧ PrivateFile s .publish p ∧
    readImage (s.content j) (s.content c) (s.content p) = .ok snap

def OpenError (allow : OpError → Prop) (s : Fs) (e : JournalError) : Prop := SnapshotError allow s e ∨ InitError allow e

/-- The results of a writer open: on success the script is finished or the store was clean already. -/
def OpenResult (me : Nat) (allow : OpError → Prop) (S : List Op → Prop) (s : Fs) {α : Type} :
    Except JournalError α → Hist → Prop
  | .error e, h => OpenHist me S s h ∧ OpenError allow s e
  | .ok _, h => (Untouched s h ∧ ∃ snap, Reads s snap) ∨ ∃ script, S script ∧ At me script s script.length h

section
variable {me : Nat} {allow : OpError → Prop} {s : Fs} {C : Hist → Prop} {h : Hist}
  {Q : Except JournalError Unit → Hist → Prop}

theorem openError_read {e : JournalError} (h : ReadError allow e) : OpenError allow s e := Or.inl (.read h)

theorem openError_known {e : JournalError} (h : e.isOutcomeUnknown = false) : OpenError allow s e := Or.inr (Or.inl h)

theorem openError_commit {b : Bytes} {max : Nat} {e : JournalError}
    (h : (∃ d, e = .unavailable d) ∨ CommitPoint.decode b max = .error e) : OpenError allow s e := by
  rcases h with ⟨d, rfl⟩ | h
  · exact openError_known rfl
  · exact openError_known (CommitPoint.decode_known h)

theorem openError_publish {b : Bytes} {e : JournalError}
    (h : (∃ d, e = .unavailable d) ∨ PublishWitness.decode b = .error e) : OpenError allow s e := by
  rcases h with ⟨d, rfl⟩ | h
  · exact openError_known rfl
  · exact openError_known (PublishWitness.decode_known h)

theorem wp_initializeWitness_present {profile : ProfileObservation} (hp : h.fs.entries .publish ≠ none) (hC : C h)
    (herr : ∀ e, InitError allow e → Q (.error e) h) : Store.wp me allow C (initializeWitness profile) Q h := by
  unfold initializeWitness openPrivateUpdateFile openPrivateWritableFile createWritable
  refine wp_bind (wp_gives_bind looks_privateParentOwner hC gives_privateParentOwner (fun owner hd => ?_)
    fun e he => herr e (initError_read he))
  refine wp_gives_bind (looks_pathEntryExists _) hC (gives_pathEntryExists _) (fun present hpres => ?_)
    fun e he => herr e (initError_read he)
  have hdir : h.fs.dir ≠ none := by
    obtain ⟨d, hd, -⟩ := hd.dir
    rw [hd]; simp
  obtain ⟨i, hi⟩ := Option.ne_none_iff_exists'.mp hp
  have : present = true := by rw [hpres hdir, hi]; rfl
  subst this
  exact wp_fail hC (herr _ (Or.inl rfl))

/-- A store that has a commit, a journal and a lock: completed from two images, unchanged on every other. -/
theorem wp_resumeOrValidateExisting {profile : ProfileObservation} (hu : Untouched s h) (hC : ∀ h, OpenHist me (ResumeScript s) s h → C h)
    (hQ : ∀ r h, OpenResult me allow (ResumeScript s) s r h → Q r h) :
    Store.wp me allow C (resumeOrValidateExisting profile) Q h := by
  have hCh : C h := hC h (Or.inl hu)
  have herr : ∀ e, OpenError allow s e → Q (.error e) h := fun e he => hQ _ _ ⟨Or.inl hu, he⟩
  have hread : ∀ e, ReadError allow e → Q (.error e) h := fun e he => herr e (openError_read he)
  obtain ⟨l, rfl⟩ := id hu
  unfold resumeOrValidateExisting
  refine wp_gives_bind (looks_openPrivateReadFile _) hCh (gives_openPrivateReadFile _) (fun c hc => ?_) hread
  refine wp_gives_bind (looks_requireSameProfile _ _) hCh (gives_requireSameProfile _ _) (fun _ _ => ?_) hread
  refine wp_gives_bind (looks_readCommitPoint _) hCh (gives_readCommitPoint _) (fun point hpoint => ?_)
    fun e he => herr e (openError_commit he)
  refine wp_gives_bind (looks_openPrivateWritableFile _ _) hCh (gives_openPrivateWritableFile _ _) (fun p hp => ?_) hread
  refine wp_gives_bind (looks_requireSameProfile _ _) hCh (gives_requireSameProfile _ _) (fun _ _ => ?_) hread
  refine wp_gives_bind (looks_readPublishWitness _) hCh (gives_readPublishWitness _) (fun w hw => ?_)
    fun e he => herr e (openError_publish he)
  refine wp_ite (fun hi => ?_) fun hi => wp_ite (fun hs => ?_) fun hs => ?_
  · refine wp_ite (fun _ => wp_fail hCh (herr _ (openError_known rfl))) fun hne => ?_
    refine wp_gives_bind (looks_fileLenPath _) hCh (gives_fileLenPath _) (fun len hlen => ?_) hread
    refine wp_ite (fun _ => wp_fail hCh (herr _ (openError_known rfl))) fun hl => ?_
    obtain ⟨j, hj, rfl⟩ := hlen
    have hempty : s.content j = [] := List.eq_nil_of_length_eq_zero (not_not.mp hl)
    have hwi : w = .initializing := by
      obtain ⟨a, b⟩ := w
      simp only [PublishWitness.isInitializing, decide_eq_true_eq] at hi
      rw [hi.1, hi.2]; rfl
    rw [not_not.mp hne] at hpoint
    rw [hwi] at hw
    have hscript : ResumeScript s (.sync p :: completeScript p) :=
      .resume ⟨hj.of_withLocks, hempty, c, hc.of_withLocks, hpoint⟩ hp.of_withLocks hw
    have hC' : ∀ h, Along me (.sync p :: completeScript p) s h → C h := fun h ha => hC h (Or.inr ⟨_, hscript, ha⟩)
    have herr' : ∀ e h, Along me (.sync p :: completeScript p) s h → InitError allow e → Q (.error e) h :=
      fun e h ha he => hQ _ _ ⟨Or.inr ⟨_, hscript, ha⟩, Or.inr he⟩
    have ht := hu.todo me (.sync p :: completeScript p)
    refine wp_gives_todo hC' (looks_openedIdentity _) ht (gives_openedIdentity _) (fun x hx => ?_) hread
    subst hx
    refine wp_io_todo_bind hC' ht rfl (fun _ h₁ _ ht₁ => ?_) fun t h' ha => herr' _ _ ha (Or.inl rfl)
    refine wp_gives_todo hC' (looks_verifyOpenedWitness _ _) ht₁ (gives_verifyOpenedWitness_init _ _) (fun _ _ => ?_)
      fun e he => herr' e _ ht₁.along he
    exact wp_completeWitness hC' ht₁ (fun h₂ ht₂ => hQ _ _ (Or.inr ⟨_, hscript, ht₂.finished⟩)) herr'
  · -- whatever the checks say about the journal, the publication has no known result
    have hprep : ∀ e, Q (.error e) ⟨s.withLocks l, []⟩ := by
      intro e
      refine herr e ?_
      cases e with
      | outcomeUnknown d => exact Or.inl (.prepared hp.of_withLocks hw hs ⟨d, rfl⟩)
      | _ => exact openError_known rfl
    refine wp_looks_bind (looks_fromExcept _) hCh (fun _ _ => ?_) fun e _ => hprep e
    refine wp_looks_bind (looks_mapErr (looks_openPrivateReadFile _)) hCh (fun _ _ => ?_) fun e _ => hprep e
    refine wp_looks_bind (looks_mapErr (looks_requireSameProfile _ _)) hCh (fun _ _ => ?_) fun e _ => hprep e
    refine wp_looks_bind (looks_validatePreparedCommitPrefix _ _ _) hCh (fun _ _ => ?_) fun e _ => hprep e
    exact wp_fail hCh (hprep _)
  refine wp_gives_bind (looks_readSnapshot _) hCh (gives_readSnapshot _) (fun snap hsnap => ?_)
    fun e he => herr e (Or.inl he.of_withLocks)
  obtain ⟨j, c', p', hj, hc', hp', himage⟩ := hsnap
  exact wp_pure hCh (hQ _ _ (Or.inl ⟨hu, snap, j, c', p', hj.of_withLocks, hc'.of_withLocks, hp'.of_withLocks, himage⟩))

/-- Under the lock, when the artifacts were seen before. -/
theorem wp_openLocked_seen {seen : Seen} {profile : ProfileObservation} {lock : Nat} (hany : seen.any = true)
    (hinc : seen.incomplete = false) (hu : Untouched s h) (hC : ∀ h, OpenHist me (ResumeScript s) s h → C h)
    (hQ : ∀ r h, OpenResult me allow (ResumeScript s) s r h → Q r h) :
    Store.wp me allow C (openLocked seen profile lock) Q h := by
  have hCh : C h := hC h (Or.inl hu)
  have herr : ∀ e, OpenError allow s e → Q (.error e) h := fun e he => hQ _ _ ⟨Or.inl hu, he⟩
  have hread : ∀ e, ReadError allow e → Q (.error e) h := fun e he => herr e (openError_read he)
  have hjournal : seen.journal = true := by
    simp only [Seen.incomplete, hany, Bool.true_and, Bool.not_eq_false', Bool.and_eq_true] at hinc
    exact hinc.1.2
  obtain ⟨l, rfl⟩ := id hu
  unfold openLocked
  rw [hany, hjournal]
  refine wp_gives_bind (looks_io rfl _) hCh (gives_io (P := fun _ => True) (by simp) (fun _ _ => trivial)
    fun t => readError_unavailable _) (fun _ _ => ?_) hread
  refine wp_gives_bind (looks_openPrivateWritableFile _ _) hCh (gives_openPrivateWritableFile _ _) (fun j hj => ?_) hread
  refine wp_gives_bind (looks_requireSameProfile _ _) hCh (gives_requireSameProfile _ _) (fun _ _ => ?_) hread
  refine wp_gives_bind (looks_openPrivateReadFile _) hCh (gives_openPrivateReadFile _) (fun c hc => ?_) hread
  refine wp_gives_bind (looks_requireSameProfile _ _) hCh (gives_requireSameProfile _ _) (fun _ _ => ?_) hread
  refine wp_gives_bind (looks_readCommitPoint _) hCh (gives_readCommitPoint _) (fun point hpoint => ?_)
    fun e he => herr e (openError_commit he)
  refine wp_ite (fun _ => wp_resumeOrValidateExisting hu hC hQ) fun _ => ?_
  refine wp_ite (fun _ => wp_fail hCh (herr _ (openError_known rfl))) fun hne => ?_
  refine wp_gives_bind (looks_fileLen _) hCh (gives_fileLen j) (fun len hlen => ?_)
    fun e he => herr e (openError_known (by obtain ⟨d, rfl⟩ := he; rfl))
  refine wp_ite (fun _ => wp_fail hCh (herr _ (openError_known rfl))) fun hl => ?_
  rw [hlen] at hl
  have hempty : s.content j = [] := List.eq_nil_of_length_eq_zero (not_not.mp hl)
  rw [not_not.mp hne] at hpoint
  cases hpub : s.entries .publish with
  | some i => exact wp_initializeWitness_present (by simp [hpub]) hCh fun e he => herr e (Or.inr he)
  | none =>
    have hscript : ResumeScript s (witnessScript s.next) :=
      .bare ⟨hj.of_withLocks, hempty, c, hc.of_withLocks, hpoint⟩ hpub
    exact wp_initializeWitness (fun h ha => hC h (Or.inr ⟨_, hscript, ha⟩)) (hu.todo me _)
      (fun h₁ ht₁ => hQ _ _ (Or.inr ⟨_, hscript, ht₁.finished⟩))
      fun e h' ha he => hQ _ _ ⟨Or.inr ⟨_, hscript, ha⟩, Or.inr he⟩

end

/-! ## The whole open -/

def storeScript (stale : Bool) (n : Nat) : List Op :=
  [.openWritable .lock true false, .chmod n 0o600] ++ freshScript stale n (n + 1)

def dirScript (k : Nat) : List Op := [.mkdir, .chmodDir 0o700, .syncDir .state, .syncDir (.parent k)]

inductive OpenScript (s : Fs) : List Op → Prop
  | create (k : Nat) (hd : s.dir = none) (hk : ∀ i < k, s.dirInfo (.parent i) = none) :
      OpenScript s (dirScript k ++ storeScript false (s.next + 1))
  | fresh (hd : s.dir ≠ none) (hnone : ∀ n, n ≠ .commitTemp → s.entries n = none) :
      OpenScript s (storeScript (s.entries .commitTemp).isSome s.next)
  | existing {script : List Op} (hlock : s.entries .lock ≠ none) (h : ResumeScript s script) : OpenScript s script

section
variable {me : Nat} {allow : OpError → Prop} {script : List Op} {s₀ : Fs} {C : Hist → Prop} {h : Hist}

theorem wp_openLocked_fresh {seen : Seen} {profile : ProfileObservation} {lock : Nat}
    {Q : Except JournalError Unit → Hist → Prop} (hC : ∀ h, Along me script s₀ h → C h) (hany : seen.any = false)
    (ht : Todo me script s₀ (freshScript (h.fs.entries .commitTemp).isSome lock h.fs.next) h)
    (hok : ∀ h', Todo me script s₀ [] h' → Q (.ok ()) h')
    (herr : ∀ e h', Along me script s₀ h' → InitError allow e → Q (.error e) h') :
    Store.wp me allow C (openLocked seen profile lock) Q h := by
  have hjournal : seen.journal = false := by
    simp only [Seen.any, Bool.or_eq_false_iff] at hany
    exact hany.1.1.2
  unfold openLocked
  rw [hany, hjournal]
  refine wp_gives_todo hC (looks_io rfl _) ht (gives_io (P := fun _ => True) (by simp) (fun _ _ => trivial)
    fun t => readError_unavailable _) (fun _ _ => ?_) fun e he => herr e _ ht.along (initError_read he)
  refine wp_bind (wp_gives_todo hC looks_privateParentOwner ht gives_privateParentOwner (fun owner _ => ?_)
    fun e he => herr e _ ht.along (initError_read he))
  refine wp_createWritable hC ht (fun h₁ hn₁ he₁ ht₁ => ?_) herr
  refine wp_gives_todo hC (looks_requireSameProfile _ _) ht₁ (gives_requireSameProfile _ _) (fun _ _ => ?_)
    fun e he => herr e _ ht₁.along (initError_read he)
  have hstale : (h₁.fs.entries .commitTemp).isSome = (h.fs.entries .commitTemp).isSome := by rw [he₁]; rfl
  refine wp_initializeFreshStore hC (h := h₁) ?_ hok herr
  rw [hstale, hn₁]
  exact ht₁

theorem wp_openArtifacts_fresh {profile : ProfileObservation} {Q : Except JournalError Nat → Hist → Prop}
    (hC : ∀ h, Along me script s₀ h → C h) (hd : h.fs.dir ≠ none)
    (hnone : ∀ n, n ≠ .commitTemp → h.fs.entries n = none)
    (ht : Todo me script s₀ (storeScript (h.fs.entries .commitTemp).isSome h.fs.next) h)
    (hok : ∀ i h', Todo me script s₀ [] h' → Q (.ok i) h')
    (herr : ∀ e h', Along me script s₀ h' → InitError allow e → Q (.error e) h') :
    Store.wp me allow C (openArtifacts profile) Q h := by
  unfold openArtifacts
  refine wp_gives_todo hC looks_seenArtifacts ht (gives_seenArtifacts hd) (fun seen hseen => ?_)
    fun e he => herr e _ ht.along (initError_read he)
  rw [hnone .lock (by decide), hnone .journal (by decide), hnone .commit (by decide), hnone .publish (by decide)] at hseen
  subst hseen
  refine wp_ite (fun hi => nomatch hi) fun _ => ?_
  refine wp_bind (wp_gives_todo hC looks_privateParentOwner ht gives_privateParentOwner (fun owner _ => ?_)
    fun e he => herr e _ ht.along (initError_read he))
  refine wp_createWritable hC ht (fun h₁ hn₁ he₁ ht₁ => ?_) herr
  refine wp_gives_todo hC (looks_requireSameProfile _ _) ht₁ (gives_requireSameProfile _ _) (fun _ _ => ?_)
    fun e he => herr e _ ht₁.along (initError_read he)
  have hstale : (h₁.fs.entries .commitTemp).isSome = (h.fs.entries .commitTemp).isSome := by rw [he₁]; rfl
  rw [← hstale, ← hn₁] at ht₁
  have hCl : ∀ l, C ⟨h₁.fs.withLocks l, h₁.done⟩ := fun l => hC _ (ht₁.along.withLocks l)
  refine wp_bind (wp_acquireExclusive (hC _ ht₁.along) hCl (fun l => ?_)
    fun e l he => herr e _ (ht₁.along.withLocks l) (Or.inl he))
  -- the lock is not part of the condition between operations, so `Along` stands for `C` while it is held
  refine wp_bind (wp_mono (C := Along me script s₀) (wp_holding (fun h l ha => ha.withLocks l)
    (wp_openLocked_fresh (fun _ ha => ha) rfl (ht₁.withLocks l) (fun h₂ ht₂ => ?_)
      fun e h' ha he l => herr e _ (ha.withLocks l) he)) hC fun r h' _ hr => hr)
  exact wp_pure (hC _ ht₂.along) (hok _ h₂ ht₂)

theorem wp_openArtifacts {s : Fs} {profile : ProfileObservation} (hd : s.dir ≠ none) :
    Store.wp me allow (OpenHist me (OpenScript s) s) (openArtifacts profile) (OpenResult me allow (OpenScript s) s)
      ⟨s, []⟩ := by
  by_cases hnone : ∀ n, n ≠ .commitTemp → s.entries n = none
  · exact wp_openArtifacts_fresh (fun h ha => Or.inr ⟨_, .fresh hd hnone, ha⟩) hd hnone todo_start
      (fun _ h ht => Or.inr ⟨_, .fresh hd hnone, ht.finished⟩)
      fun e h ha he => ⟨Or.inr ⟨_, .fresh hd hnone, ha⟩, Or.inr he⟩
  have hu : Untouched s ⟨s, []⟩ := Untouched.start s
  have hCh : OpenHist me (OpenScript s) s ⟨s, []⟩ := Or.inl hu
  have herr : ∀ e, OpenError allow s e → OpenResult me allow (OpenScript s) s (.error e : Except _ Nat) ⟨s, []⟩ :=
    fun e he => ⟨Or.inl hu, he⟩
  have hread : ∀ e, ReadError allow e → OpenResult me allow (OpenScript s) s (.error e : Except _ Nat) ⟨s, []⟩ :=
    fun e he => herr e (openError_read he)
  unfold openArtifacts
  refine wp_gives_bind looks_seenArtifacts hCh (gives_seenArtifacts hd) (fun seen hseen => ?_) hread
  refine wp_ite (fun _ => wp_fail hCh (herr _ (openError_known rfl))) fun hinc => ?_
  have hinc' : seen.incomplete = false := by simpa using hinc
  have hany : seen.any = true := by
    by_contra hno
    apply hnone
    simp only [Seen.any, hseen, Bool.not_eq_true, Bool.or_eq_false_iff, Option.isSome_eq_false_iff,
      Option.isNone_iff_eq_none] at hno
    intro n hn
    cases n with
    | lock => exact hno.1.1.1
    | journal => exact hno.1.1.2
    | commit => exact hno.1.2
    | publish => exact hno.2
    | commitTemp => exact absurd rfl hn
  have hlock : seen.lock = true := by
    simp only [Seen.incomplete, hany, Bool.true_and, Bool.not_eq_false', Bool.and_eq_true] at hinc'
    exact hinc'.1.1
  have hlock' : s.entries .lock ≠ none := by
    rw [hseen] at hlock
    exact Option.isSome_iff_ne_none.mp hlock
  rw [hlock]
  refine wp_gives_bind (looks_openPrivateWritableFile _ _) hCh (gives_openPrivateWritableFile _ _) (fun i _ => ?_) hread
  refine wp_gives_bind (looks_requireSameProfile _ _) hCh (gives_requireSameProfile _ _) (fun _ _ => ?_) hread
  refine wp_bind (wp_acquireExclusive hCh (fun l => Or.inl ⟨l, rfl⟩) (fun l => ?_)
    fun e l he => ⟨Or.inl ⟨l, rfl⟩, openError_known he⟩)
  have hmono : ∀ h, OpenHist me (ResumeScript s) s h → OpenHist me (OpenScript s) s h := by
    rintro h (hu | ⟨script, hs, ha⟩)
    · exact Or.inl hu
    · exact Or.inr ⟨script, .existing hlock' hs, ha⟩
  refine wp_bind (wp_holding (fun h l hc => hc.withLocks l) (wp_openLocked_seen hany hinc' ⟨l, rfl⟩ hmono fun r h hr => ?_))
  cases r with
  | error e => exact fun l => ⟨(hmono h hr.1).withLocks l, hr.2⟩
  | ok u =>
    rcases hr with ⟨hu', hsnap⟩ | ⟨script, hs, hat⟩
    · exact wp_pure (Or.inl hu') (Or.inl ⟨hu', hsnap⟩)
    · exact wp_pure (Or.inr ⟨script, .existing hlock' hs, hat.along⟩) (Or.inr ⟨script, .existing hlock' hs, hat⟩)

omit [SerdeJson] in
theorem looks_nearestExistingParent (fuel k : Nat) : Looks (nearestExistingParent fuel k) := by
  induction fuel generalizing k with
  | zero => exact looks_fail _
  | succ fuel ih =>
    refine looks_bind (looks_io rfl _) fun m => ?_
    cases m with
    | none => exact ih (k + 1)
    | some m => exact looks_ite (fun _ => looks_pure _) fun _ => looks_fail _

omit [SerdeJson] in
theorem gives_nearestExistingParent {s : Fs} (fuel k : Nat) :
    Gives me allow (nearestExistingParent fuel k) s (ReadError allow)
      fun d => ∃ n, d = .parent n ∧ ∀ i, k ≤ i → i < n → s.dirInfo (.parent i) = none := by
  induction fuel generalizing k with
  | zero => exact gives_fail (readError_unavailable _)
  | succ fuel ih =>
    refine gives_bind (P := fun m => m = s.dirInfo (.parent k)) (gives_io (by simp)
      (fun v hv => (Except.ok.inj hv).symm) fun t => readError_unavailable _) ?_
    intro m hm
    cases m with
    | none =>
      refine gives_mono (ih (k + 1)) (fun _ h => h) ?_
      rintro d ⟨n, rfl, hn⟩
      refine ⟨n, rfl, fun i hk hi => ?_⟩
      rcases Nat.eq_or_lt_of_le hk with rfl | hlt
      · exact hm.symm
      · exact hn i hlt hi
    | some m =>
      refine gives_ite (fun _ => gives_pure ⟨k, rfl, fun i hk hi => ?_⟩) fun _ => gives_fail (readError_unavailable _)
      exact absurd hi (Nat.not_lt_of_le hk)

theorem wp_createStateDirectory {s : Fs} (hd : s.dir = none) :
    Store.wp me allow (OpenHist me (OpenScript s) s) createStateDirectory (fun r h =>
      match r with
      | .ok profile => Store.wp me allow (OpenHist me (OpenScript s) s) (openArtifacts profile)
          (OpenResult me allow (OpenScript s) s) h
      | .error e => OpenResult me allow (OpenScript s) s (.error e : Except _ Nat) h) ⟨s, []⟩ := by
  have hu : Untouched s ⟨s, []⟩ := Untouched.start s
  have hCh : OpenHist me (OpenScript s) s ⟨s, []⟩ := Or.inl hu
  have hread : ∀ e, ReadError allow e → OpenResult me allow (OpenScript s) s (.error e : Except _ Nat) ⟨s, []⟩ :=
    fun e he => ⟨Or.inl hu, openError_read he⟩
  unfold createStateDirectory
  refine wp_gives_bind (looks_nearestExistingParent _ _) hCh (gives_nearestExistingParent _ _) ?_ hread
  rintro d ⟨k, rfl, hk⟩
  replace hk : ∀ i < k, s.dirInfo (.parent i) = none := fun i hi => hk i (Nat.zero_le i) hi
  refine wp_gives_bind (looks_openDirectoryNoFollow _) hCh (gives_openDirectoryNoFollow _) (fun _ _ => ?_) hread
  refine wp_gives_bind (looks_qualifyDirectory _) hCh (gives_qualifyDirectory _) (fun parentProfile _ => ?_) hread
  have hC : ∀ h, Along me (dirScript k ++ storeScript false (s.next + 1)) s h → OpenHist me (OpenScript s) s h :=
    fun h ha => Or.inr ⟨_, .create k hd hk, ha⟩
  have herr : ∀ (e : JournalError) h, Along me (dirScript k ++ storeScript false (s.next + 1)) s h → InitError allow e →
      OpenResult me allow (OpenScript s) s (.error e : Except _ Nat) h := fun e h ha he => ⟨hC h ha, Or.inr he⟩
  have ht : Todo me (dirScript k ++ storeScript false (s.next + 1)) s (dirScript k ++ storeScript false (s.next + 1))
    ⟨s, []⟩ := todo_start
  refine wp_io_todo_bind hC ht rfl (fun _ h₁ hr₁ ht₁ => ?_) fun t h' ha => herr _ _ ha (Or.inl rfl)
  refine wp_io_todo_bind hC ht₁ rfl (fun _ h₂ hr₂ ht₂ => ?_) fun t h' ha => herr _ _ ha (Or.inl rfl)
  refine wp_gives_todo hC looks_openExistingPrivateDir ht₂ gives_openExistingPrivateDir (fun _ _ => ?_)
    fun e he => herr e _ ht₂.along (initError_read he)
  refine wp_gives_todo hC (looks_qualifyDirectory _) ht₂ (gives_qualifyDirectory _) (fun profile _ => ?_)
    fun e he => herr e _ ht₂.along (initError_read he)
  refine wp_gives_todo hC (looks_requireSameProfile _ _) ht₂ (gives_requireSameProfile _ _) (fun _ _ => ?_)
    fun e he => herr e _ ht₂.along (initError_read he)
  refine wp_io_todo_bind hC ht₂ rfl (fun _ h₃ hr₃ ht₃ => ?_) fun t h' ha => herr _ _ ha (Or.inl rfl)
  refine wp_io_todo_bind hC ht₃ rfl (fun _ h₄ hr₄ ht₄ => ?_) fun t h' ha => herr _ _ ha (Or.inl rfl)
  obtain ⟨-, hf₁⟩ := Op.run_mkdir hr₁
  obtain ⟨d, -, hf₂⟩ := Op.run_chmodDir hr₂
  have hf₄ : h₄.fs = h₂.fs := (congrArg Prod.snd hr₄).symm.trans (congrArg Prod.snd hr₃).symm
  rw [hf₁] at hf₂
  rw [hf₂] at hf₄
  refine wp_pure (hC _ ht₄.along) ?_
  refine wp_openArtifacts_fresh hC (by rw [hf₄]; simp) (fun n _ => by rw [hf₄]; rfl) ?_
    (fun _ h ht => Or.inr ⟨_, .create k hd hk, ht.finished⟩) herr
  rw [hf₄]
  exact ht₄

/-- Whatever fails, a writer open changes nothing or gets some way along one of its scripts. -/
theorem wp_openWriter (s : Fs) :
    Store.wp me allow (OpenHist me (OpenScript s) s) openWriter (OpenResult me allow (OpenScript s) s) ⟨s, []⟩ := by
  have hu : Untouched s ⟨s, []⟩ := Untouched.start s
  have hCh : OpenHist me (OpenScript s) s ⟨s, []⟩ := Or.inl hu
  have hread : ∀ e, ReadError allow e → OpenResult me allow (OpenScript s) s (.error e : Except _ Nat) ⟨s, []⟩ :=
    fun e he => ⟨Or.inl hu, openError_read he⟩
  unfold openWriter ensureStateDirectory
  refine wp_bind (wp_gives_bind (P := fun d => d = s.dir) (looks_io rfl _) hCh (gives_io (by simp)
    (fun v hv => (Except.ok.inj hv).symm) fun t => readError_unavailable _) (fun d hd => ?_) hread)
  refine wp_ite (fun hsome => ?_) fun hsome => ?_
  · have hdir : s.dir ≠ none := by rw [← hd]; exact Option.isSome_iff_ne_none.mp hsome
    refine wp_gives_bind looks_openExistingPrivateDir hCh gives_openExistingPrivateDir (fun _ _ => ?_) hread
    exact wp_gives (looks_qualifyDirectory _) hCh (gives_qualifyDirectory _) (fun profile _ => wp_openArtifacts hdir) hread
  · have hdir : s.dir = none := by rw [← hd]; simpa using hsome
    refine wp_mono (wp_createStateDirectory hdir) (fun _ h => h) fun r h _ hr => ?_
    cases r <;> exact hr

end

end Aizign
