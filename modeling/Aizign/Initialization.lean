import Aizign.InitScripts

/-!
# Initialization

Opens of a path without artifacts, each of them failing or stopped anywhere,
with readers and power losses in between and before any append: a reader never
takes a store that is not finished for an empty one, an open goes on only from
the images it may complete, and none has an unknown outcome.
-/

namespace Aizign

open Store

section
variable [SerdeJson]

/-! ## Opens -/

section
variable {me : Nat} {allow : OpError → Prop}

/-- An open goes on only in a directory that is there. -/
theorem wp_openWriter_dir (s : Fs) :
    Store.wp me allow (fun h => h.fs.dir ≠ none ∨ ∀ e ∈ h.done, e.op = .mkdir) openWriter
      (fun r h => ∀ l, r = .ok l → h.fs.dir ≠ none) ⟨s, []⟩ := by
  -- from a directory that is there, whatever happens
  have hthere {α : Type} {p : Store α} {Q : Except JournalError α → Hist → Prop} {h : Hist} (hd : h.fs.dir ≠ none)
      (hQ : ∀ r h, h.fs.dir ≠ none → Q r h) :
      Store.wp me allow (fun h => h.fs.dir ≠ none ∨ ∀ e ∈ h.done, e.op = .mkdir) p Q h := by
    have hinv : p.run.wp (Op.Step me allow) (fun h => h.fs.dir ≠ none) (fun _ _ => True) h := by
      refine Prog.wp_invariant (fun o _ h r h' hs hd => ?_) (Prog.uses_all p.run) hd
      obtain ⟨g, -, rfl⟩ := hs
      exact (o.effect_does me h.fs g).dir hd
    exact Prog.wp_mono (fun _ h => .inl h) (fun r h hd _ => hQ r h hd) hinv
  have herr {e : JournalError} {h : Hist} : ∀ l, (.error e : Except JournalError Nat) = .ok l → h.fs.dir ≠ none := by
    intro l hl
    cases hl
  by_cases hd : s.dir = none
  · have hC : (⟨s, []⟩ : Hist).fs.dir ≠ none ∨ ∀ e ∈ (⟨s, []⟩ : Hist).done, e.op = .mkdir :=
      .inr fun e he => absurd he List.not_mem_nil
    unfold openWriter ensureStateDirectory
    refine wp_bind (wp_gives_bind (P := fun d => d = s.dir) (E := fun _ => True) (looks_io rfl _) hC (gives_io (by simp)
      (fun v hv => (Except.ok.inj hv).symm) fun _ => trivial) (fun d hd' => ?_) fun _ _ => herr)
    refine wp_ite (fun hsome => ?_) fun _ => ?_
    · rw [hd', hd] at hsome
      cases hsome
    unfold createStateDirectory
    refine wp_looks_bind (looks_nearestExistingParent _ _) hC (fun parent _ => ?_) fun _ _ => herr
    refine wp_looks_bind (looks_openDirectoryNoFollow _) hC (fun _ _ => ?_) fun _ _ => herr
    refine wp_looks_bind (looks_qualifyDirectory _) hC (fun _ _ => ?_) fun _ _ => herr
    refine wp_bind ⟨hC, fun r h hs => ?_⟩
    obtain ⟨g, hout, rfl⟩ := hs
    have hmkdir (r : Op.mkdir.Res) (g : Progress) : ∀ e ∈ [] ++ Op.mkdir.event r g, e.op = .mkdir := by
      intro e he
      rw [List.mem_singleton.mp he]
    cases r with
    | error e => exact ⟨.inr (hmkdir _ _), herr⟩
    | ok u =>
      have hmade : (Op.mkdir.effect me s g).dir ≠ none := by
        generalize hr : (.ok u : Op.mkdir.Res) = r at hout
        cases hout with
        | normal =>
          have hrun : Op.mkdir.run me s = (.ok u, (Op.mkdir.run me s).2) := Prod.ext hr.symm rfl
          obtain ⟨-, hs⟩ := Op.run_mkdir hrun
          rw [Op.effect, hs]
          exact Option.some_ne_none _
        | failed e g => cases hr
        | observed r ho =>
          obtain ⟨t, ht⟩ := ho
          cases ht
      refine ⟨.inr (hmkdir _ _), hthere hmade fun r h hd => ?_⟩
      cases r with
      | error e => exact herr
      | ok profile => exact hthere hd fun _ _ h _ _ => h
  · exact hthere hd fun _ _ h _ _ => h

theorem gives_openReaderUnlocked (s : Fs) : Gives me allow openReaderUnlocked s (InitError allow) fun _ => True := by
  have hread {α : Type} {p : Store α} {P : α → Prop} (hp : Gives me allow p s (ReadError allow) P) :
      Gives me allow p s (InitError allow) P := gives_mono hp (fun _ => initError_read) fun _ h => h
  have hpath (n : Name) (label : String) : Gives me allow (requireExistingPath n label) s (InitError allow) fun _ => True := by
    refine gives_bind (hread (gives_pathEntryExists n)) fun _ _ => ?_
    exact gives_ite (fun _ => gives_pure trivial) fun _ => gives_fail (.inl rfl)
  unfold openReaderUnlocked
  refine gives_bind (hread gives_openExistingPrivateDir) fun _ _ => ?_
  refine gives_bind (hread (gives_qualifyDirectory _)) fun profile _ => ?_
  refine gives_bind (hpath _ _) fun _ _ => gives_bind (hpath _ _) fun _ _ => gives_bind (hpath _ _) fun _ _ => ?_
  have hopen (n : Name) {f : Nat → Store Nat} (hf : ∀ i, Gives me allow (f i) s (InitError allow) fun _ => True) :
      Gives me allow (openPrivateReadFile n >>= fun i => requireSameProfile (.file i) profile >>= fun _ => f i) s
        (InitError allow) fun _ => True :=
    gives_bind (hread (gives_openPrivateReadFile n)) fun i _ => gives_bind (hread (gives_requireSameProfile _ _)) fun _ _ => hf i
  refine hopen .lock fun lock => hopen .journal fun _ => hopen .commit fun c => ?_
  refine gives_bind (gives_mono (gives_readCommitPoint c) ?_ fun _ h => h) fun _ _ => ?_
  · rintro e (⟨_, rfl⟩ | h)
    · exact .inl rfl
    · exact .inl (CommitPoint.decode_known h)
  exact gives_bind (hpath _ _) fun _ _ => hopen .publish fun _ => gives_pure trivial

theorem wp_openReader (s : Fs) :
    Store.wp me allow (fun _ => True) openReader (fun r _ => ∀ e, r = .error e → InitError allow e) ⟨s, []⟩ := by
  unfold openReader
  refine wp_gives_bind looks_openReaderUnlocked trivial (gives_openReaderUnlocked s) (fun lock _ => ?_) ?_
  · refine wp_bind (wp_bind ⟨trivial, fun r h _ => ?_⟩)
    cases r with
    | error e =>
      refine ⟨trivial, ?_⟩
      rintro _ ⟨⟩
      exact .inl rfl
    | ok acquired =>
      refine ⟨trivial, ?_⟩
      cases acquired with
      | true => exact wp_pure trivial (wp_pure trivial fun e he => nomatch he)
      | false =>
        refine wp_fail trivial ?_
        rintro _ ⟨⟩
        exact .inl rfl
  · rintro e he _ ⟨⟩
    exact he

end

/-! ## Runs -/

section
variable {me : Nat} {allow : OpError → Prop} {d d' : Disk}

def StoreCall.appends : StoreCall → Bool
  | .append .. => true
  | _ => false

/-- The errors of the operations: that of a profile observation is never an unknown outcome. -/
def OpError.Ordinary : OpError → Prop
  | .io _ => True
  | .profile e => e.isOutcomeUnknown = false

omit [SerdeJson] in
theorem Disk.Initial.untouched (h : d.Initial) {done : List Event} (hu : Untouched d.fs ⟨d'.fs, done⟩)
    (hd : d' = (follow (Event.onDisk me) done d).withLocks d'.fs.locks) :
    d'.Initial ∧ d'.fs = d.fs.withLocks d'.fs.locks := by
  obtain ⟨l, hl⟩ := hu
  obtain rfl : done = [] := congrArg Hist.done hl
  refine ⟨?_, congrArg Disk.fs hd⟩
  rw [hd]
  exact h.narrow (Disk.narrows_withLocks _ _)

theorem Disk.Initial.opened (h : d.Initial) {done : List Event} (ho : OpenHist me (OpenScript d.fs) d.fs ⟨d'.fs, done⟩)
    (hd : d' = (follow (Event.onDisk me) done d).withLocks d'.fs.locks) :
    d'.Initial ∧ (d'.fs = d.fs.withLocks d'.fs.locks ∨ (∀ n, d.fs.entries n = none) ∨ d.fs.Completable) := by
  rcases ho with hu | ⟨script, hs, ha⟩
  · exact (h.untouched hu hd).imp_right .inl
  · obtain ⟨himage, start, p, rfl, hstarts⟩ := h.openScript me hs
    refine ⟨?_, .inr himage⟩
    rw [hd]
    exact (hstarts.script.along ha).narrow (Disk.narrows_withLocks _ _)

omit [SerdeJson] in
theorem Disk.Finished.initialized (h : d.Finished) : d.fs.Initialized := by
  obtain ⟨j, c, p, hf, hw⟩ := h
  refine ⟨?_, ?_, ?_⟩
  · rw [Fs.image_eq hf.journal.entry]
    exact congrArg some (hf.initial.journal j (hf.journal.entry ▸ d.named .journal)).content
  · rw [Fs.image_eq hf.commit.entry]
    exact congrArg some (hf.initial.commit c (hf.commit.entry ▸ d.named .commit)).content
  · rw [Fs.image_eq hf.publish.entry]
    exact congrArg some hw.content

/-- An open that returns leaves the image of generation 1. -/
theorem Disk.Initial.open_ok (h : d.Initial) {l : Nat}
    (hs : Prog.Steps (Op.DiskStep me allow) openWriter.run d (.ret (.ok l)) d') : d'.fs.Initialized := by
  have hstart : d = (follow (Event.onDisk me) [] d).withLocks d.fs.locks := rfl
  obtain ⟨done, hsteps, hd⟩ := hs.onHist hstart
  have hfs : d'.fs = (follow (Event.onDisk me) done d).fs.withLocks d'.fs.locks := congrArg Disk.fs hd
  have hresult : OpenResult me allow (OpenScript d.fs) d.fs (.ok l : Except _ Nat) _ :=
    Prog.wp_result (wp_openWriter d.fs) hsteps
  rcases hresult with ⟨hu, snap, hr⟩ | ⟨script, hs, hat⟩
  · rw [(h.untouched hu hd).2]
    exact (h.reads hr).2.withLocks _
  · obtain ⟨-, start, p, rfl, hstarts⟩ := h.openScript me hs
    have hdir : d'.fs.dir ≠ none := Prog.wp_result (wp_openWriter_dir d.fs) hsteps l rfl
    have hfinished : (follow (Event.onDisk me) done d).Finished := hstarts.script.finish hat (by rwa [hfs] at hdir)
    rw [hfs]
    exact hfinished.initialized.withLocks _

/-- An open that is about to write (1,1) has made everything before it durable. -/
theorem Disk.Initial.open_barriered (h : d.Initial) {p : Nat} {k : Except OpError Unit → Prog Op.Res (Except JournalError Nat)}
    (hs : Prog.Steps (Op.DiskStep me allow) openWriter.run d (.call (.write p (PublishWitness.clean 1).encode) k) d') :
    d'.Barriered p := by
  have hstart : d = (follow (Event.onDisk me) [] d).withLocks d.fs.locks := rfl
  obtain ⟨done, hsteps, hd⟩ := hs.onHist hstart
  -- one step further
  have hnext := hsteps.trans (.head (r := .ok ()) ⟨.full, .normal, rfl⟩ .refl)
  obtain ⟨script, hopen, ha⟩ : ∃ script, OpenScript d.fs script ∧ Along me script d.fs _ := by
    rcases Prog.wp_between (wp_openWriter d.fs) hnext with ⟨l, hl⟩ | h
    · have hdone := congrArg Hist.done hl
      simp [Op.event, Op.mutates] at hdone
    · exact h
  obtain ⟨-, start, w, rfl, hstarts⟩ := h.openScript me hopen
  obtain ⟨n, hn, hdone⟩ := Along.last ha
  -- no other operation of the script is this one
  obtain ⟨rfl, rfl⟩ : n = start.length + 1 ∧ p = w := by
    rcases Nat.lt_or_ge n start.length with hlt | hge
    · rw [List.getElem?_append_left hlt] at hn
      exact absurd (List.mem_of_getElem? hn) (hstarts.other p)
    · obtain ⟨m, rfl⟩ := Nat.exists_eq_add_of_le hge
      rw [List.getElem?_append_right hge, Nat.add_sub_cancel_left] at hn
      rcases m with _ | _ | _ | m
      · cases hn
      · cases hn
        exact ⟨rfl, rfl⟩
      · cases hn
      · cases hn
  have htake : (start ++ rewriteScript p (.clean 1)).take (start.length + 1) = start ++ [.setLen p] := by
    rw [List.take_length_add_append]
    rfl
  rw [htake] at hdone
  replace hdone : done = allDone (start ++ [.setLen p]) := hdone
  have hfollow : follow (Event.onDisk me) done d =
      (Op.setLen p).onDisk me true .full (follow (Event.onDisk me) (allDone start) d) := by
    rw [hdone, allDone, List.map_append, follow, List.foldl_append]
    rfl
  have hdir : d'.fs.dir ≠ none := by
    rcases Prog.wp_between (wp_openWriter_dir d.fs) hsteps with hdir | hmkdir
    · exact hdir
    · have hset : (Op.setLen p) = .mkdir := hmkdir ⟨.setLen p, true, .full⟩ (by simp [hdone, allDone])
      cases hset
  have hready : (follow (Event.onDisk me) (allDone start) d).Ready p := by
    have hk := hstarts.keeps.take start.length
    rw [List.drop_length, List.take_length] at hk
    refine hk.2 ?_
    rw [hd, hfollow] at hdir
    exact hdir
  have hbarriered := hready.emptied me
  rw [← hfollow] at hbarriered
  rw [hd]
  exact ⟨hbarriered.journal, hbarriered.commit, hbarriered.publish, hbarriered.witness⟩

/-- A load that returns has found the image of generation 1. -/
theorem Disk.Initial.load_ok (h : d.Initial) {lock : Nat}
    {es : List JournalEntry} (hs : Prog.Steps (Op.DiskStep me allow) (loadCommitted lock).run d (.ret (.ok es)) d') :
    es = [] ∧ d'.fs.Initialized := by
  have hstart : d = (follow (Event.onDisk me) [] d).withLocks d.fs.locks := rfl
  obtain ⟨done, hsteps, hd⟩ := hs.onHist hstart
  have hload : Store.wp me allow (Untouched d.fs) (loadCommitted lock)
      (fun r h => Untouched d.fs h ∧ ∀ es, r = .ok es → ∃ snap, Reads d.fs snap ∧ es = snap.entries) ⟨d.fs, []⟩ :=
    wp_gives (looks_loadCommitted lock) (.start d.fs) (gives_loadCommitted_reads lock)
      (fun _ hes => ⟨.start d.fs, fun _ he => Except.ok.inj he ▸ hes⟩) fun _ _ => ⟨.start d.fs, fun _ he => nomatch he⟩
  obtain ⟨hu, hes⟩ := Prog.wp_result hload hsteps
  obtain ⟨snap, hr, rfl⟩ := hes es rfl
  rw [(h.untouched hu hd).2]
  exact (h.reads hr).imp_right (·.withLocks _)

theorem Disk.Initial.call (h : d.Initial) {c : StoreCall} (hc : c.appends = false) {q : Prog Op.Res (List Known)}
    (hs : Prog.Steps (Op.DiskStep me allow) c.prog d q d') : d'.Initial ∧ ∀ k ∈ told q, k = .read [] := by
  have hnone {ks : List Known} (hk : ks = []) : ∀ k ∈ ks, k = .read [] := by
    rw [hk]
    exact fun k hk => nomatch hk
  cases c with
  | openWriter =>
    obtain ⟨done, ho, hd, ht⟩ := Prog.wp_onDisk (wp_openWriterCall d.fs) hs
    exact ⟨(h.opened ho hd).1, hnone (ht.elim id id)⟩
  | openReader =>
    obtain ⟨done, hu, hd, ht⟩ := Prog.wp_onDisk (wp_openReaderCall d.fs) hs
    exact ⟨(h.untouched hu hd).1, hnone (ht.elim id id)⟩
  | load lock =>
    obtain ⟨done, hu, hd, ht⟩ := Prog.wp_onDisk (wp_loadCall lock d.fs) hs
    refine ⟨(h.untouched hu hd).1, ?_⟩
    rcases ht with ht | ht | ⟨snap, hr, ht⟩
    · exact hnone ht
    · exact hnone ht
    · intro k hk
      rw [ht, (h.reads hr).1] at hk
      exact List.mem_singleton.mp hk
  | append => cases hc

theorem Disk.Run.initial {d₀ : Disk} (h₀ : d₀.Initial) {log : List Known}
    (h : Disk.Run (·.appends = false) d₀ log d) : d.Initial ∧ ∀ k ∈ log, k = .read [] := by
  induction h with
  | start => exact ⟨h₀, fun k hk => nomatch hk⟩
  | call me hc h hs ih =>
    obtain ⟨hi, hk⟩ := ih.1.call hc hs
    exact ⟨hi, fun k hmem => (List.mem_append.mp hmem).elim (ih.2 k) (hk k)⟩
  | exit me h ih => exact ⟨ih.1.narrow (Disk.narrows_withLocks _ _), ih.2⟩
  | powerLoss h hl ih => exact ⟨ih.1.narrow hl.narrows, ih.2⟩

end

/-- From a path without artifacts, in every run of opens, readers and loads that fail and stop anywhere, ends of
processes and power losses: a load that returns has found the image of generation 1 and returns no entries; an open
changes a store with artifacts only if its image is completable, writes (1,1) only when everything before it is
durable, and leaves the image of generation 1 if it returns; and no open has an unknown outcome. -/
theorem initialization_runs {s : Fs} (hn : ∀ n, s.entries n = none) {log : List Known} {d : Disk}
    (h : Disk.Run (·.appends = false) (.settled s) log d) (me : Nat) (d' : Disk) :
    (∀ k ∈ log, k = .read []) ∧
    (∀ lock es, Prog.Steps (Op.DiskStep me fun _ => True) (loadCommitted lock).run d (.ret (.ok es)) d' →
      es = [] ∧ d'.fs.Initialized) ∧
    (∀ q, Prog.Steps (Op.DiskStep me fun _ => True) openWriter.run d q d' →
      (d'.fs = d.fs.withLocks d'.fs.locks ∨ (∀ n, d.fs.entries n = none) ∨ d.fs.Completable) ∧
      (∀ p k, q = .call (.write p (PublishWitness.clean 1).encode) k → d'.Barriered p) ∧
      ∀ lock, q = .ret (.ok lock) → d'.fs.Initialized) ∧
    ∀ e, Prog.Steps (Op.DiskStep me OpError.Ordinary) openWriter.run d (.ret (.error e)) d' ∨
        Prog.Steps (Op.DiskStep me OpError.Ordinary) openReader.run d (.ret (.error e)) d' →
      e.isOutcomeUnknown = false := by
  have hbare : (Disk.settled s).Bare := fun n x hx => by rw [show x = s.entries n from hx, hn n]
  obtain ⟨hi, hlog⟩ := h.initial hbare.initial
  have hstart : d = (follow (Event.onDisk me) [] d).withLocks d.fs.locks := rfl
  refine ⟨hlog, fun lock es hs => ?_, fun q hs => ⟨?_, ?_, ?_⟩, fun e hs => ?_⟩
  · exact hi.load_ok hs
  · obtain ⟨done, hsteps, hd⟩ := hs.onHist hstart
    exact (hi.opened (Prog.wp_between (wp_openWriter d.fs) hsteps) hd).2
  · rintro p k rfl
    exact hi.open_barriered hs
  · rintro lock rfl
    exact hi.open_ok hs
  · have hordinary (e : JournalError) (he : OpError.Ordinary (.profile e)) : e.isOutcomeUnknown = false := he
    rcases hs with hs | hs
    · obtain ⟨done, hsteps, -⟩ := hs.onHist hstart
      have hresult : OpenResult me OpError.Ordinary (OpenScript d.fs) d.fs (.error e : Except _ Nat) _ :=
        Prog.wp_result (wp_openWriter d.fs) hsteps
      exact hi.known hordinary hresult.2
    · obtain ⟨done, hsteps, -⟩ := hs.onHist hstart
      rcases Prog.wp_result (wp_openReader d.fs) hsteps e rfl with he | he
      · exact he
      · exact hordinary e he

/-! ## One run -/

section
variable {me : Nat} {s : Fs}

/-- The image without a witness, and no locks. -/
structure Unwitnessed (s : Fs) (l : Nat) : Prop where
  healthy : Healthy s s.uid
  lock : s.entries .lock = some l
  journal : s.image .journal = some []
  commit : s.image .commit = some CommitPoint.empty.encode
  publish : s.entries .publish = none
  locks : s.locks = []

omit [SerdeJson] in
theorem Fs.unwitnessed_unlocked (h : Healthy s s.uid) (hnone : ∀ n, s.entries n = none) :
    Unwitnessed ((s.unwitnessed me).withLocks []) s.next := by
  have hmade := ((h.created .lock).withLocks [⟨me, s.next, true⟩]).created .journal
  have huid : ((s.unwitnessed me).withLocks []).uid = s.uid := Fs.withoutTemp_uid _
  refine ⟨?_, ?_, ?_, ?_, ?_, rfl⟩
  · rw [huid]
    exact (hmade.renamed _).withLocks []
  · show (s.unwitnessed me).entries .lock = _
    rw [Fs.unwitnessed, Fs.published, Fs.renamed_entries _ (by decide) (by decide)]
    rfl
  · show (s.unwitnessed me).image .journal = _
    rw [Fs.unwitnessed, Fs.published, Fs.image_rename (by decide), if_neg (by decide), Fs.image_withTemp (by decide)]
    exact Fs.image_created _
  · obtain ⟨he, hc⟩ := Fs.published_commit (((s.created .lock).withLocks [⟨me, s.next, true⟩]).created .journal) CommitPoint.empty
    show (s.unwitnessed me).image .commit = _
    rw [Fs.unwitnessed, Fs.image_eq he, hc]
  · show (s.unwitnessed me).entries .publish = _
    rw [Fs.unwitnessed, Fs.published, Fs.renamed_entries _ (by decide) (by decide)]
    exact hnone .publish

variable (me) in
/-- A writer open of that image makes the witness. -/
theorem exec_openWriter_unwitnessed {l : Nat} (h : Unwitnessed s l) :
    ∃ k, openWriter.run.exec (Op.run me) s =
      (.ok l, ((s.withLocks k).created .publish).setContent s.next (PublishWitness.clean 1).encode) := by
  obtain ⟨j, hj, hJ⟩ := Option.map_eq_some_iff.mp h.journal
  obtain ⟨c, hc, hC⟩ := Option.map_eq_some_iff.mp h.commit
  have hh := h.healthy
  have hseen : Runs me seenArtifacts s (.ok ⟨true, true, true, false⟩) := by
    have hr : Runs me _ s _ := runs_seenArtifacts hh.dir
    rwa [h.lock, hj, hc, h.publish] at hr
  have hfree : s.lockConflict me l true = false := by
    rw [Fs.lockConflict, h.locks]
    rfl
  obtain ⟨k, hk⟩ := tryLock_withLocks me l true s
  refine ⟨k, ?_⟩
  refine (exec_bind_ok (runs_ensureStateDirectory hh)).trans ((exec_bind_ok hseen).trans ?_)
  refine (exec_bind_ok (runs_openPrivateWritableFile (hh.privateFile (by decide) h.lock) _)).trans ?_
  refine (exec_bind_ok (runs_requireSameProfile hh.profile _)).trans ((exec_bind_ok (exec_acquireExclusive hfree)).trans ?_)
  rw [hk]
  have hh := hh.withLocks k
  refine exec_bind_ok (a := ()) (exec_holding_ok ?_)
  refine (exec_bind_ok (a := ()) (exec_io_run rfl rfl)).trans ?_
  refine (exec_bind_ok (runs_openPrivateWritableFile (hh.privateFile (by decide) hj) _)).trans ?_
  refine (exec_bind_ok (runs_requireSameProfile hh.profile _)).trans ?_
  refine (exec_bind_ok (runs_openPrivateReadFile (hh.privateFile (by decide) hc))).trans ?_
  refine (exec_bind_ok (runs_requireSameProfile hh.profile _)).trans ?_
  have hpoint : Runs me (readCommitPoint c) (s.withLocks k) (.ok CommitPoint.empty) := by
    have hr : Runs me (readCommitPoint c) (s.withLocks k) _ := runs_readCommitPoint c
    rwa [show (s.withLocks k).content c = _ from hC, CommitPoint.decode_empty] at hr
  refine (exec_bind_ok hpoint).trans ?_
  have hpoint : ¬CommitPoint.empty ≠ CommitPoint.empty := fun h => h rfl
  have hempty : ¬((s.withLocks k).content j).length ≠ 0 := by
    rw [show (s.withLocks k).content j = [] from hJ]
    exact fun h => h rfl
  refine (congrArg (fun p : Store Unit => p.run.exec (Op.run me) (s.withLocks k)) (if_neg hpoint)).trans ?_
  refine (exec_bind_ok (runs_fileLen j)).trans ?_
  refine (congrArg (fun p : Store Unit => p.run.exec (Op.run me) (s.withLocks k)) (if_neg hempty)).trans ?_
  exact exec_initializeWitness hh h.publish

/-- A first open of a missing path that is stopped before it makes the witness. -/
theorem leads_unwitnessed (h : Vacant s) :
    ∃ q : Store Nat, Leads me openWriter s q (s.withDirectory.unwitnessed me) ∧ told (q.run >>= fun _ => .ret []) = [] :=
  ⟨_, (leads_bind (exec_ensureStateDirectory_vacant h)).trans
    (leads_openArtifacts_bare h.healthy s.withDirectory_entries h.locks), rfl⟩

end

end

open Sample in
/-- The first open is stopped before it makes the witness. The next completes the store, and a load finds no entries. -/
theorem initialization_runs_sample : ∃ d d' d'' lock,
    Disk.Run (·.appends = false) (.settled emptyFs) [] d ∧ d.fs.Completable ∧
    Prog.Steps (Op.DiskStep 2 fun _ => True) openWriter.run d (.ret (.ok lock)) d' ∧ d'.fs.Initialized ∧
    Disk.Run (·.appends = false) (.settled emptyFs) [.read []] d'' := by
  have hrun₀ : Disk.Run (·.appends = false) (.settled emptyFs) [] (.settled emptyFs) := .start
  obtain ⟨q, hleads, hq⟩ : ∃ q : Store Nat, Leads 1 openWriter _ q _ ∧ _ := leads_unwitnessed emptyFs_vacant
  obtain ⟨d₁, hsteps₁, hd₁⟩ := (Prog.Steps.bind hleads fun _ => .ret []).onDisk (d := .settled emptyFs) rfl
  have hrun₁ := hrun₀.call (A := (·.appends = false)) (c := .openWriter) 1 rfl hsteps₁
  rw [hq] at hrun₁
  have hrun₂ := hrun₁.exit 1
  have hlocks : (d₁.fs.release 1).locks = [] := by
    rw [hd₁]
    rfl
  rw [hlocks] at hrun₂
  have hu : Unwitnessed (d₁.withLocks []).fs emptyFs.withDirectory.next := by
    rw [Disk.withLocks_fs, hd₁]
    exact Fs.unwitnessed_unlocked emptyFs_vacant.healthy emptyFs.withDirectory_entries
  generalize d₁.withLocks [] = d at hrun₂ hu
  -- the second open
  obtain ⟨k, hexec⟩ := exec_openWriter_unwitnessed 2 hu
  have hopen : Prog.Steps (Normal 2) openWriter.run d.fs _ _ := Prog.steps_exec openWriter.run d.fs
  rw [hexec] at hopen
  obtain ⟨d', hsteps, hd'⟩ := hopen.onDisk rfl
  obtain ⟨hsame, -, hok⟩ := (initialization_runs (fun _ => rfl) hrun₂ 2 d').2.2.1 _ hsteps
  have hdone := hok _ rfl
  have himage : d.fs.Completable := by
    rcases hsame with hsame | hnone | himage
    · have hnone : d.fs.image .publish = none := congrArg (Option.map _) hu.publish
      rw [hsame] at hdone
      cases hnone.symm.trans hdone.publish
    · have hlock := hu.lock
      rw [hnone] at hlock
      cases hlock
    · exact himage
  -- the load
  have hrun₃ := hrun₂.call (A := (·.appends = false)) (c := .openWriter) 2 rfl (hsteps.bind fun _ => .ret [])
  have hhealthy : Healthy d'.fs d.fs.uid := by
    rw [hd']
    exact ((hu.healthy.withLocks k).created .publish).setContent _ _
  have hlock : d'.fs.entries .lock = some emptyFs.withDirectory.next := by
    rw [hd']
    exact hu.lock
  have hload : Runs 2 (loadCommitted _) d'.fs _ := runs_loadCommitted hhealthy hdone hlock
  rw [show readerResult [] _ _ = .ok [] by rw [readerResult, cleanImage_empty.reads]; rfl] at hload
  obtain ⟨d'', hrun₄, -⟩ := hrun₃.exec (A := (·.appends = false)) (c := .load _) rfl 2 (exec_loadCall hload)
  exact ⟨d, d', d'', _, hrun₂, himage, hsteps, hdone, hrun₄⟩

end Aizign
