import Aizign.StoreCommitted
import Aizign.Cli

/-!
# Sections of the lock

What a process does before it has the lock only looks, so others may change the
files under it; what it does with the lock keeps off the lock's name and the
directory. Lock operations of others in between do not matter to it.
-/

namespace Aizign

open Store

def Op.Act (me : Nat) (allow : OpError → Prop) (o : Op) (s : Fs) (r : o.Res) (s' : Fs) : Prop :=
  ∃ g, o.Outcome me allow s r g ∧ s' = o.effect me s g

def Op.inner : Op → Bool
  | .tryLock .. | .unlock _ | .mkdir | .chmodDir _ => false
  | .openWritable n createNew _ => !createNew || n ≠ .lock
  | .rename a b => a ≠ .lock && b ≠ .lock
  | .remove n => n ≠ .lock
  | _ => true

section
variable {me : Nat} {allow : OpError → Prop} {o : Op} {s s' : Fs} {r : o.Res}

theorem Op.inner_of_looks (h : o.looks = true) : o.inner = true := by
  cases o <;> first
    | rfl
    | (simp only [Op.looks, Op.mutates, Bool.not_true, Bool.false_eq_true] at h; done)
    | skip
  rename_i n createNew app
  simp only [Op.looks, Op.mutates, Bool.not_eq_true'] at h
  simp [Op.inner, h]

theorem Op.act_looks (ho : o.looks = true) (h : o.Act me allow s r s') : s' = s := by
  obtain ⟨g, -, rfl⟩ := h
  cases g with
  | nothing => rfl
  | torn k => exact Op.torn_looks ho k s
  | full => exact Op.run_looks ho s

theorem Prog.wp_act {α : Type} {C : Fs → Prop} {Q : α → Fs → Prop} {p : Prog Op.Res α} {h : Hist}
    (hp : p.wp (Op.Step me allow) (fun h => C h.fs) (fun a h => Q a h.fs) h) : p.wp (Op.Act me allow) C Q h.fs := by
  induction p generalizing h with
  | ret a => exact hp
  | call o k ih =>
    refine ⟨hp.1, fun r s' hs => ?_⟩
    obtain ⟨g, hg, rfl⟩ := hs
    exact ih r (hp.2 r ⟨_, h.done ++ o.event r g⟩ ⟨g, hg, rfl⟩)

/-! ## Operations inside -/

/-- What an operation inside leaves alone: the lock file's name, the directory and the locks. -/
structure Framed (s s' : Fs) : Prop where
  lock : s'.entries .lock = s.entries .lock
  dir : s'.dir = s.dir
  locks : s'.locks = s.locks

theorem Framed.refl (s : Fs) : Framed s s := ⟨rfl, rfl, rfl⟩

theorem Op.run_framed (ho : o.inner = true) (s : Fs) : Framed s (o.run me s).2 := by
  cases o with
  | openWritable n createNew app =>
    by_cases hl : (Op.openWritable n createNew app).looks = true
    · rw [Op.run_looks hl]
      exact .refl s
    · have hc : createNew = true := by simpa [Op.looks, Op.mutates] using hl
      subst hc
      have hn : n ≠ .lock := by simpa [Op.inner] using ho
      simp only [Op.run]
      cases s.entries n with
      | some i => exact .refl s
      | none =>
        by_cases hd : s.dir.isSome = true
        · rw [if_pos (by simp [hd])]
          exact ⟨if_neg hn.symm, rfl, rfl⟩
        · rw [if_neg (by simp [hd])]
          exact .refl s
  | rename a b =>
    have hn : a ≠ .lock ∧ b ≠ .lock := by simpa [Op.inner] using ho
    simp only [Op.run]
    cases s.entries a with
    | none => exact .refl s
    | some i => exact ⟨(if_neg hn.1.symm).trans (if_neg hn.2.symm), rfl, rfl⟩
  | remove n =>
    have hn : n ≠ .lock := by simpa [Op.inner] using ho
    simp only [Op.run]
    cases s.entries n with
    | none => exact .refl s
    | some i => exact ⟨if_neg hn.symm, rfl, rfl⟩
  | setLen | write | append | chmod | sync | syncDir => exact ⟨rfl, rfl, rfl⟩
  | tryLock | unlock | mkdir | chmodDir => cases ho
  | lstatDir | openDir | fstatDir | lstat | openRead | fstat | read | observe | hook =>
    rw [Op.run_looks rfl]
    exact .refl s

theorem Op.act_framed (ho : o.inner = true) (h : o.Act me allow s r s') : Framed s s' := by
  obtain ⟨g, -, rfl⟩ := h
  cases g with
  | nothing => exact .refl s
  | torn k => cases o <;> exact ⟨rfl, rfl, rfl⟩
  | full => exact Op.run_framed ho s

/-- An operation inside neither sees nor changes locks. -/
theorem Op.run_inner (ho : o.inner = true) (s : Fs) (l : List Lock) :
    o.run me (s.withLocks l) = ((o.run me s).1, (o.run me s).2.withLocks l) := by
  by_cases hm : o.mutates = true
  · exact Op.run_withLocks hm s l
  · have hl : o.looks = true := by
      cases o <;> first
        | rfl
        | exact absurd rfl hm
        | cases ho
        | simpa [Op.looks] using hm
    refine Prod.ext ?_ ?_
    · cases o with
      | openWritable n createNew app =>
        have hc : createNew = false := by simpa [Op.looks, Op.mutates] using hl
        subst hc
        simp only [Op.run, Fs.withLocks_entries]
        cases s.entries n with
        | none => rfl
        | some i =>
          simp only [Bool.false_eq_true, ite_false, apply_ite Prod.fst]
          rfl
      | openDir d =>
        simp only [Op.run, Fs.withLocks_dirInfo]
        cases s.dirInfo d with
        | none => rfl
        | some i => simp only [apply_ite Prod.fst]
      | fstatDir d =>
        simp only [Op.run, Fs.withLocks_dirInfo]
        cases s.dirInfo d <;> rfl
      | openRead n =>
        simp only [Op.run, Fs.withLocks_entries]
        cases s.entries n with
        | none => rfl
        | some i =>
          simp only [apply_ite Prod.fst]
          rfl
      | lstat n =>
        simp only [Op.run, Fs.withLocks_dir]
        cases s.dir with
        | none => rfl
        | some d =>
          simp only [apply_ite Prod.fst]
          rfl
      | lstatDir d => simp only [Op.run, Fs.withLocks_dirInfo]
      | _ => first | rfl | cases hl
    · rw [Op.run_looks hl, Op.run_looks hl]

theorem Op.act_inner (ho : o.inner = true) {l : List Lock} (h : o.Act me allow (s.withLocks l) r s') :
    ∃ t, o.Act me allow s r t ∧ s' = t.withLocks l := by
  obtain ⟨g, hg, rfl⟩ := h
  have heff : ∀ g, o.effect me (s.withLocks l) g = (o.effect me s g).withLocks l := by
    intro g
    cases g with
    | nothing => rfl
    | torn k => cases o <;> rfl
    | full => exact congrArg Prod.snd (Op.run_inner ho s l)
  refine ⟨o.effect me s g, ⟨g, ?_, rfl⟩, heff g⟩
  cases hg with
  | normal =>
    rw [Op.run_inner ho s l]
    exact .normal
  | failed e g he => exact .failed e g he
  | observed r ho hr => exact .observed r ho hr

end

/-! ## Programs inside -/

def Store.Enclosed {α : Type} (p : Store α) : Prop := Prog.Uses (fun o => o.inner = true) p.run

section
variable {α β : Type}

theorem inner_of_looks {p : Store α} (h : Looks p) : Enclosed p := Prog.Uses.mono (fun _ => Op.inner_of_looks) h

theorem inner_io {o : Op} (h : o.inner = true) (wrap : Text → JournalError) : Enclosed (io o wrap) := by
  refine ⟨h, fun r => ?_⟩
  cases r <;> trivial

theorem inner_bind {p : Store α} {f : α → Store β} (hp : Enclosed p) (hf : ∀ a, Enclosed (f a)) : Enclosed (p >>= f) := by
  rw [Enclosed, run_bind]
  refine Prog.Uses.bind hp fun r => ?_
  cases r with
  | ok a => exact hf a
  | error e => trivial

theorem inner_mapErr {f : JournalError → JournalError} {p : Store α} (hp : Enclosed p) : Enclosed (mapErr f p) := by
  refine Prog.Uses.bind hp fun r => ?_
  cases r <;> trivial

theorem inner_ite {c : Prop} [Decidable c] {p q : Store α} (hp : Enclosed p) (hq : Enclosed q) : Enclosed (if c then p else q) := by
  by_cases h : c
  · rw [if_pos h]; exact hp
  · rw [if_neg h]; exact hq

theorem inner_createWritable {n : Name} (hn : n ≠ .lock) (append : Bool) (owner : Nat) :
    Enclosed (createWritable n append owner) := by
  refine inner_bind (inner_of_looks (looks_pathEntryExists _)) fun found => inner_ite (inner_of_looks (looks_fail _)) ?_
  refine inner_bind (inner_io (by simp [Op.inner, hn]) _) fun file => inner_bind (inner_io rfl _) fun _ => ?_
  refine inner_bind (inner_io rfl _) fun _ => inner_of_looks ?_
  exact looks_bind (looks_checkOpenedPrivateFile _ _ _) fun _ => looks_pure _

theorem inner_openPrivateWritableFile {n : Name} (hn : n ≠ .lock) (createNew append : Bool) :
    Enclosed (openPrivateWritableFile n createNew append) := by
  refine inner_bind (inner_of_looks looks_privateParentOwner) fun owner => ?_
  exact inner_ite (inner_createWritable hn _ _) (inner_of_looks (looks_openExistingWritable _ _ _))

theorem inner_openPrivateReplaceFile : Enclosed openPrivateReplaceFile := by
  have hcreate : ∀ owner, Enclosed (do
      let file ← io (.openWritable .commitTemp true false) (unavailableAt "cannot replace temporary file: ")
      io .hook (unavailableAt "cannot replace temporary file: ")
      io (.chmod file 0o600) (unavailableAt "cannot replace temporary file: ")
      checkOpenedPrivateFile file owner none
      return file : Store Nat) := fun owner =>
    inner_bind (inner_io rfl _) fun file => inner_bind (inner_io rfl _) fun _ =>
      inner_bind (inner_io rfl _) fun _ => inner_of_looks (looks_bind (looks_checkOpenedPrivateFile _ _ _)
        fun _ => looks_pure _)
  refine inner_bind (inner_of_looks looks_privateParentOwner) fun owner =>
    inner_bind (inner_of_looks (looks_pathEntryExists _)) fun stale => ?_
  cases stale with
  | false => exact hcreate owner
  | true =>
    refine inner_bind (inner_of_looks (looks_inspectPrivateFile _ _)) fun _ => inner_bind (inner_io rfl _) fun _ => ?_
    refine inner_bind (inner_of_looks (looks_checkOpenedPrivateFile _ _ _)) fun _ => ?_
    exact inner_bind (inner_io rfl _) fun _ => hcreate owner

theorem inner_rewriteWitness (i : Nat) (w : PublishWitness) (unknown : Bool) : Enclosed (rewriteWitness i w unknown) :=
  inner_bind (inner_bind (inner_io rfl _) fun _ => inner_io rfl _) fun _ => inner_io rfl _

theorem inner_publishCommit [SerdeJson] (profile : ProfileObservation) (point : CommitPoint) (unknown : Bool) :
    Enclosed (publishCommit profile point unknown) := by
  refine inner_bind (inner_mapErr inner_openPrivateReplaceFile) fun temp => ?_
  refine inner_bind (inner_of_looks (looks_mapErr (looks_requireSameProfile _ _))) fun _ => ?_
  refine inner_bind (inner_io rfl _) fun _ => inner_bind (inner_io rfl _) fun _ => ?_
  refine inner_bind (inner_io rfl _) fun _ => inner_bind (inner_io rfl _) fun _ => inner_of_looks ?_
  refine looks_bind (looks_mapErr (looks_openPrivateReadFile _)) fun _ => ?_
  refine looks_bind (looks_mapErr (looks_requireSameProfile _ _)) fun _ => ?_
  refine looks_bind (looks_mapErr (looks_readCommitPoint _)) fun _ => ?_
  exact looks_ite (fun _ => looks_fail _) fun _ => looks_pure _

theorem inner_publishAppend [SerdeJson] (profile : ProfileObservation) (snapshot : Snapshot) (witness journal : Nat)
    (entry : JournalEntry) (line : Bytes) : Enclosed (publishAppend profile snapshot witness journal entry line) := by
  refine inner_bind (inner_rewriteWitness _ _ _) fun _ => ?_
  refine inner_bind (inner_of_looks (looks_mapErr (looks_verifyOpenedWitness _ _))) fun _ => ?_
  refine inner_bind (inner_io rfl _) fun _ => inner_bind (inner_io rfl _) fun _ => ?_
  refine inner_bind (inner_publishCommit _ _ _) fun _ => inner_bind (inner_rewriteWitness _ _ _) fun _ => ?_
  refine inner_bind (inner_of_looks (looks_mapErr (looks_verifyOpenedWitness _ _))) fun _ => ?_
  exact inner_bind (inner_io rfl _) fun _ => inner_of_looks (looks_pure _)

theorem inner_appendWithOps [SerdeJson] (lock : Nat) (event : WorkflowEvent) (time : BoundedTimestamp) :
    Enclosed (appendWithOps lock event time) := by
  refine inner_bind (inner_of_looks looks_openExistingPrivateDir) fun _ => ?_
  refine inner_bind (inner_of_looks (looks_qualifyDirectory _)) fun _ => ?_
  refine inner_bind (inner_of_looks (looks_revalidateLock _ _)) fun _ => ?_
  refine inner_bind (inner_of_looks (looks_readSnapshot _)) fun _ => inner_ite (inner_of_looks (looks_fail _)) ?_
  refine inner_bind (inner_of_looks (looks_openPrivateWritableFile _ _)) fun _ => ?_
  refine inner_bind (inner_of_looks (looks_requireSameProfile _ _)) fun _ => ?_
  refine inner_bind (inner_of_looks (looks_readPublishWitness _)) fun _ => inner_ite (inner_of_looks (looks_fail _)) ?_
  refine inner_bind (inner_of_looks (looks_openPrivateWritableFile _ _)) fun _ => ?_
  refine inner_bind (inner_of_looks (looks_requireSameProfile _ _)) fun _ => ?_
  exact inner_bind (inner_of_looks (looks_fromExcept _)) fun _ => inner_publishAppend _ _ _ _ _ _

theorem inner_completeWitness [SerdeJson] (identity : FileIdentity) (profile : ProfileObservation) (changed : String) :
    Enclosed (completeWitness identity profile changed) := by
  refine inner_bind (inner_bind (inner_of_looks (looks_mapErr (looks_openDirectoryNoFollow _))) fun _ =>
    inner_io rfl _) fun _ => ?_
  refine inner_bind (inner_of_looks (looks_openPrivateWritableFile _ _)) fun _ => ?_
  refine inner_bind (inner_of_looks (looks_requireSameProfile _ _)) fun _ => ?_
  refine inner_bind (inner_of_looks (looks_openedIdentity _)) fun _ => inner_ite (inner_of_looks (looks_fail _)) ?_
  refine inner_bind (inner_of_looks (looks_verifyOpenedWitness _ _)) fun _ => ?_
  exact inner_bind (inner_rewriteWitness _ _ _) fun _ => inner_of_looks (looks_verifyOpenedWitness _ _)

theorem inner_initializeWitness [SerdeJson] (profile : ProfileObservation) : Enclosed (initializeWitness profile) := by
  refine inner_bind (inner_openPrivateWritableFile (by decide) _ _) fun _ => ?_
  refine inner_bind (inner_of_looks (looks_requireSameProfile _ _)) fun _ => ?_
  refine inner_bind (inner_of_looks (looks_openedIdentity _)) fun _ => inner_bind (inner_rewriteWitness _ _ _) fun _ => ?_
  exact inner_bind (inner_of_looks (looks_verifyOpenedWitness _ _)) fun _ => inner_completeWitness _ _ _

theorem inner_initializeFreshStore [SerdeJson] (profile : ProfileObservation) (lock journal : Nat) :
    Enclosed (initializeFreshStore profile lock journal) := by
  refine inner_bind (inner_io rfl _) fun _ => inner_bind (inner_io rfl _) fun _ => ?_
  refine inner_bind (inner_bind (inner_of_looks (looks_mapErr (looks_openDirectoryNoFollow _))) fun _ =>
    inner_io rfl _) fun _ => ?_
  refine inner_bind (inner_of_looks (looks_openDirectoryNoFollow _)) fun _ => ?_
  exact inner_bind (inner_publishCommit _ _ _) fun _ => inner_initializeWitness _

theorem inner_resumeOrValidateExisting [SerdeJson] (profile : ProfileObservation) : Enclosed (resumeOrValidateExisting profile) := by
  refine inner_bind (inner_of_looks (looks_openPrivateReadFile _)) fun _ => ?_
  refine inner_bind (inner_of_looks (looks_requireSameProfile _ _)) fun _ => ?_
  refine inner_bind (inner_of_looks (looks_readCommitPoint _)) fun _ => ?_
  refine inner_bind (inner_of_looks (looks_openPrivateWritableFile _ _)) fun _ => ?_
  refine inner_bind (inner_of_looks (looks_requireSameProfile _ _)) fun _ => ?_
  refine inner_bind (inner_of_looks (looks_readPublishWitness _)) fun _ => inner_ite ?_ (inner_ite ?_ ?_)
  · refine inner_ite (inner_of_looks (looks_fail _)) (inner_bind (inner_of_looks (looks_fileLenPath _)) fun _ => ?_)
    refine inner_ite (inner_of_looks (looks_fail _)) ?_
    refine inner_bind (inner_of_looks (looks_openedIdentity _)) fun _ => inner_bind (inner_io rfl _) fun _ => ?_
    exact inner_bind (inner_of_looks (looks_verifyOpenedWitness _ _)) fun _ => inner_completeWitness _ _ _
  · refine inner_of_looks (looks_bind (looks_fromExcept _) fun _ => ?_)
    refine looks_bind (looks_mapErr (looks_openPrivateReadFile _)) fun _ => ?_
    refine looks_bind (looks_mapErr (looks_requireSameProfile _ _)) fun _ => ?_
    exact looks_bind (looks_validatePreparedCommitPrefix _ _ _) fun _ => looks_fail _
  · exact inner_of_looks (looks_bind (looks_readSnapshot _) fun _ => looks_pure _)

theorem inner_openLocked [SerdeJson] (seen : Seen) (profile : ProfileObservation) (lock : Nat) :
    Enclosed (openLocked seen profile lock) := by
  refine inner_bind (inner_io rfl _) fun _ => ?_
  refine inner_bind (inner_openPrivateWritableFile (by decide) _ _) fun _ => ?_
  refine inner_bind (inner_of_looks (looks_requireSameProfile _ _)) fun _ => inner_ite ?_ (inner_initializeFreshStore _ _ _)
  refine inner_bind (inner_of_looks (looks_openPrivateReadFile _)) fun _ => ?_
  refine inner_bind (inner_of_looks (looks_requireSameProfile _ _)) fun _ => ?_
  refine inner_bind (inner_of_looks (looks_readCommitPoint _)) fun _ => ?_
  refine inner_ite (inner_resumeOrValidateExisting _) (inner_ite (inner_of_looks (looks_fail _)) ?_)
  refine inner_bind (inner_of_looks (looks_fileLen _)) fun _ => ?_
  exact inner_ite (inner_of_looks (looks_fail _)) (inner_initializeWitness _)

end

/-! ## Use cases inside -/

/-- A store that is there: its directory, its lock file `l` and its committed entries. -/
structure Served [SerdeJson] (l : Nat) (s : Fs) : Prop where
  lock : s.entries .lock = some l
  dir : s.dir.isSome = true
  published : Published s s.committed

section
variable {me l : Nat} {allow : OpError → Prop} {s : Fs}

theorem Served.withLocks [SerdeJson] (h : Served l s) (locks : List Lock) : Served l (s.withLocks locks) :=
  ⟨h.lock, h.dir, h.published.withLocks locks⟩

theorem Served.framed [SerdeJson] {es : List JournalEntry} {s' : Fs} (h : Served l s) (hf : Framed s s') (hp : Published s' es) :
    Served l s' :=
  ⟨hf.lock.trans h.lock, (congrArg Option.isSome hf.dir).trans h.dir, by rw [hp.committed]; exact hp⟩

/-- A program inside that ends and stops with published entries ends and stops with the store served. -/
theorem wp_served [SerdeJson] {α : Type} {p : Store α} {C : List JournalEntry → Prop}
    {Q : Except JournalError α → List JournalEntry → Prop} (hs : Served l s) (hi : Enclosed p)
    (hp : Store.wp me allow (fun h => ∃ es, Published h.fs es ∧ C es) p
      (fun r h => ∃ es, Published h.fs es ∧ Q r es) ⟨s, []⟩) :
    p.run.wp (Op.Act me allow) (fun t => Served l t ∧ C t.committed) (fun r t => Q r t.committed) s := by
  have hact : p.run.wp (Op.Act me allow) (fun t => ∃ es, Published t es ∧ C es)
      (fun r t => ∃ es, Published t es ∧ Q r es) s := Prog.wp_act (h := ⟨s, []⟩) hp
  have hframe : p.run.wp (Op.Act me allow) (Framed s) (fun _ _ => True) s := by
    refine Prog.wp_invariant (fun o ho t r t' ht h => ?_) hi (.refl s)
    have hf := Op.act_framed ho ht
    exact ⟨hf.lock.trans h.lock, hf.dir.trans h.dir, hf.locks.trans h.locks⟩
  refine Prog.wp_mono ?_ ?_ (Prog.wp_both hact hframe)
  · rintro t ⟨⟨es, hes, hC⟩, hf⟩
    exact ⟨hs.framed hf hes, by rw [hes.committed]; exact hC⟩
  · rintro r t - ⟨⟨es, hes, hQ⟩, -⟩
    rw [hes.committed]
    exact hQ

theorem wp_openLocked_served [SerdeJson] (h : Served l s) {seen : Seen} (hany : seen.any = true) (hinc : seen.incomplete = false)
    (profile : ProfileObservation) (lock : Nat) :
    (openLocked seen profile lock).run.wp (Op.Act me allow) (fun t => Served l t ∧ t.committed = s.committed)
      (fun _ t => t.committed = s.committed) s := by
  refine wp_served (C := (· = s.committed)) (Q := fun _ es => es = s.committed) h (inner_openLocked _ _ _) ?_
  exact wp_mono (wp_openLocked_published h.published hany hinc profile lock) (fun _ hx => ⟨_, hx, rfl⟩)
    fun _ _ _ hx => ⟨_, hx, rfl⟩

/-- Each port of the store does what the contract of a journal allows, wherever it stops. -/
theorem wp_storePort [SerdeJson] (clock : Except ClockError BoundedTimestamp) (lock : Nat) (o : EngineOp) (h : Served l s) :
    (storePort clock lock o).wp (Op.Act me allow)
      (fun t => Served l t ∧ ∃ r, contractStep Fs.committed o s r t) (fun r t => contractStep Fs.committed o s r t) s := by
  have hkeep : ∀ {n}, Served l s ∧ ∃ r, contractStep Fs.committed (.notify n) s r s := ⟨h, true, rfl⟩
  cases o with
  | now => exact ⟨⟨h, clock, rfl⟩, rfl⟩
  | notify n => exact ⟨hkeep, rfl⟩
  | loadCommitted =>
    have hload : Store.wp me allow (fun x => x = ⟨s, []⟩) (loadCommitted lock)
        (fun r x => x = ⟨s, []⟩ ∧ ∀ es, r = .ok es → es = s.committed) ⟨s, []⟩ :=
      wp_gives (looks_loadCommitted lock) rfl (gives_loadCommitted h.published lock)
        (fun es hes => ⟨rfl, fun _ he => Except.ok.inj he ▸ hes⟩) fun e _ => ⟨rfl, fun _ he => by cases he⟩
    refine Prog.wp_act (h := ⟨s, []⟩) (wp_mono hload ?_ ?_)
    · rintro x rfl
      exact ⟨h, .error .locked, rfl, fun _ he => by cases he⟩
    · rintro r x - ⟨rfl, hr⟩
      exact ⟨rfl, hr⟩
  | append event time =>
    have hwp : (appendWithOps lock event time).run.wp (Op.Act me allow) _ _ s :=
      wp_served (Q := appendStep s.committed event time) h (inner_appendWithOps lock event time)
        (wp_append_published h.published lock)
    refine Prog.wp_mono ?_ (fun r t _ hr => hr) hwp
    rintro t ⟨ht, hes⟩
    exact ⟨ht, .error (.outcomeUnknown []), (fun hk => by cases hk), hes⟩

end

end Aizign
