import Aizign.StoreCrash
import Aizign.RecordStream
import Aizign.EngineService
import Mathlib.Data.List.Induction

/-!
# What a store has committed

The commit point decides: it stands for the first entries of the journal, and
whatever a writer leaves behind them or in the witness does not count. An open
never changes the committed entries; an append changes them at one operation,
the rename of the commit metadata.
-/

namespace Aizign

open Store

variable [SerdeJson]

/-- The entries that the commit metadata stands for. -/
def Fs.committed (s : Fs) : List JournalEntry :=
  match s.image .journal, s.image .commit with
  | some journal, some commit =>
    match CommitPoint.decode commit maxJournalBytes with
    | .ok point =>
      match checkCommittedPrefix (journal.take point.committedBytes) point with
      | .ok snap => snap.entries
      | .error _ => []
    | .error _ => []
  | _, _ => []

/-- The journal begins with the lines of `es`, and the commit metadata stands for them. -/
structure Published (s : Fs) (es : List JournalEntry) : Prop where
  numbered : Numbered es
  journal : ∃ rest, s.image .journal = some (utf8 (streamText es) ++ rest)
  commit : ∃ C, s.image .commit = some C ∧
    CommitPoint.decode C maxJournalBytes = .ok (CommitPoint.forPrefix (utf8 (streamText es)) es.length)

omit [SerdeJson] in
theorem streamText_snoc (es : List JournalEntry) (e : JournalEntry) :
    utf8 (streamText (es ++ [e])) = utf8 (streamText es) ++ entryLine e := by
  rw [entryLine, ← utf8_append]
  simp [streamText, joinLines]

omit [SerdeJson] in
theorem streamText_length {es : List JournalEntry} (h : ∀ e ∈ es, e.seq ≤ maxJournalEntries) :
    (utf8 (streamText es)).length ≤ es.length * lineLengthMax := by
  induction es using List.reverseRecOn with
  | nil => exact Nat.zero_le _
  | append_singleton es e ih =>
    have hline : (entryLine e).length ≤ lineLengthMax := e.length_line (h e (by simp))
    have hes := ih fun x hx => h x (List.mem_append_left _ hx)
    rw [streamText_snoc, List.length_append, List.length_append, List.length_singleton, Nat.add_mul]
    omega

omit [SerdeJson] in
theorem Numbered.snoc {es : List JournalEntry} (h : Numbered es) (event : WorkflowEvent) (time : BoundedTimestamp) :
    Numbered (es ++ [nextEntry es event time]) := by
  intro i hi
  by_cases hlt : i < es.length
  · rw [List.getElem_append_left hlt]
    exact h i hlt
  · have : i = es.length := by
      rw [List.length_append, List.length_singleton] at hi
      omega
    subst this
    rw [List.getElem_append_right (Nat.le_refl _)]
    simp [nextEntry]

section
variable {s t : Fs} {es : List JournalEntry}

theorem Published.entries_le (h : Published s es) : es.length ≤ maxJournalEntries := by
  obtain ⟨C, -, hd⟩ := h.commit
  exact (CommitPoint.decode_valid hd).entries

theorem Published.decodes (h : Published s es) : decodeContents (streamText es) = .ok es :=
  decodeContents_streamText h.numbered h.entries_le

theorem Published.committed (h : Published s es) : s.committed = es := by
  obtain ⟨rest, hj⟩ := h.journal
  obtain ⟨C, hc, hd⟩ := h.commit
  have hcheck : checkCommittedPrefix (utf8 (streamText es)) (CommitPoint.forPrefix (utf8 (streamText es)) es.length) =
      .ok ⟨CommitPoint.forPrefix (utf8 (streamText es)) es.length, utf8 (streamText es), es⟩ :=
    checkCommittedPrefix_eq_ok.mpr ⟨rfl, rfl, rfl, rfl, _, rfl, h.decodes⟩
  have htake : (utf8 (streamText es) ++ rest).take
      (CommitPoint.forPrefix (utf8 (streamText es)) es.length).committedBytes = utf8 (streamText es) :=
    List.take_left
  unfold Fs.committed
  simp only [hj, hc, hd, htake, hcheck]

structure SameData (s t : Fs) : Prop where
  journal : t.image .journal = s.image .journal
  commit : t.image .commit = s.image .commit

theorem Published.sameData (h : Published s es) (hs : SameData s t) : Published t es := by
  obtain ⟨rest, hj⟩ := h.journal
  obtain ⟨C, hc, hd⟩ := h.commit
  exact ⟨h.numbered, ⟨rest, hs.journal.trans hj⟩, C, hs.commit.trans hc, hd⟩

theorem Published.withLocks (h : Published s es) (l : List Lock) : Published (s.withLocks l) es :=
  h.sameData ⟨rfl, rfl⟩

/-- A clean read of published files returns what is committed, and the journal ends with it. -/
theorem Published.read {J C W : Bytes} {snap : Snapshot} (h : Published s es) (hs : Shows s J C W)
    (hc : CleanImage J C W snap) : snap.entries = es ∧ J = utf8 (streamText es) := by
  obtain ⟨rest, hj⟩ := h.journal
  obtain ⟨C', hC', hd⟩ := h.commit
  have hJ : J = utf8 (streamText es) ++ rest := Option.some.inj (hs.journal.symm.trans hj)
  have hC : C = C' := Option.some.inj (hs.commit.symm.trans hC')
  have hpoint : snap.point = CommitPoint.forPrefix (utf8 (streamText es)) es.length := by
    have := hc.commit
    rw [hC, hd] at this
    exact (Except.ok.inj this).symm
  have hlen : J.length = (utf8 (streamText es)).length := by
    have := congrArg CommitPoint.committedBytes (hc.point.symm.trans hpoint)
    exact this
  have hrest : rest = [] := by
    rw [hJ, List.length_append] at hlen
    exact List.eq_nil_of_length_eq_zero (by omega)
  rw [hrest, List.append_nil] at hJ
  obtain ⟨x, hx, hes⟩ := hc.text
  have : x = streamText es := utf8_inj (hx.symm.trans hJ)
  rw [this, h.decodes] at hes
  exact ⟨(Except.ok.inj hes).symm, hJ⟩

end

/-! ## Appends -/

section
variable {me : Nat} {allow : OpError → Prop} {s t : Fs} {es : List JournalEntry} {event : WorkflowEvent}
  {time : BoundedTimestamp}

/-- One more entry stays inside the byte bound. -/
theorem Published.fits (h : Published s es) (hlt : es.length < maxJournalEntries) (event : WorkflowEvent)
    (time : BoundedTimestamp) : (utf8 (streamText es) ++ entryLine (nextEntry es event time)).length ≤ maxJournalBytes := by
  have hlen : (es ++ [nextEntry es event time]).length ≤ maxJournalEntries := by
    rw [List.length_append, List.length_singleton]
    omega
  have hrange := (h.numbered.snoc event time).range hlen
  have hbytes := streamText_length fun e he => (hrange e he).2
  rw [streamText_snoc] at hbytes
  have hmax : maxJournalEntries * lineLengthMax ≤ maxJournalBytes := by decide
  exact hbytes.trans ((Nat.mul_le_mul_right _ hlen).trans hmax)

/-- Every image of an append shows the old entries or these and the new one; its last image the latter. -/
theorem AppendPlan.published (plan : AppendPlan s event time) (h : Published s es) (hi : plan.Image t) :
    (Published t es ∨ Published t (es ++ [nextEntry es event time])) ∧
      (plan.Finished t → Published t (es ++ [nextEntry es event time])) := by
  have hclean := readImage_eq_ok.mp plan.image
  obtain ⟨hes, hJ⟩ := h.read plan.shows hclean
  obtain ⟨C, hC, hd⟩ := h.commit
  have hCc : s.content plan.commit = C := Option.some.inj (plan.shows.commit.symm.trans hC)
  have hgen := hclean.generation
  have hle := hclean.entries_le
  have hbound := plan.bound
  have hm : plan.snap.point.generation ≤ maxJournalEntries := by omega
  have hlt : es.length < maxJournalEntries := by rw [← hes]; omega
  have hentry : plan.entry = nextEntry es event time := by rw [AppendPlan.entry, hes]; rfl
  have hold : ∀ rest, t.image .journal = some (s.content plan.journal ++ rest) →
      t.image .commit = some (s.content plan.commit) → Published t es := by
    intro rest hj hc
    rw [hJ] at hj
    rw [hCc] at hc
    exact ⟨h.numbered, ⟨rest, hj⟩, C, hc, hd⟩
  have hseq : (nextEntry es event time).seq = plan.snap.entries.length + 1 := by rw [hes]; rfl
  have hnext : CommitPoint.decode plan.point.encode maxJournalBytes = .ok plan.point := by
    rw [AppendPlan.point, hclean.bytes, plan.lineBytes_eq, hentry]
    refine hclean.nextPoint hm hseq ?_
    rw [hJ]
    exact h.fits hlt event time
  have hpoint : plan.point = CommitPoint.forPrefix (utf8 (streamText (es ++ [nextEntry es event time])))
      (es ++ [nextEntry es event time]).length := by
    rw [AppendPlan.point, hclean.bytes, plan.lineBytes_eq, hentry, hJ, streamText_snoc, List.length_append,
      List.length_singleton]
    rfl
  have hnew : t.image .journal = some (s.content plan.journal ++ plan.lineBytes) →
      t.image .commit = some plan.point.encode → Published t (es ++ [nextEntry es event time]) := by
    intro hj hc
    refine ⟨h.numbered.snoc event time, ⟨[], ?_⟩, _, hc, ?_⟩
    · rw [hj, hJ, plan.lineBytes_eq, hentry, streamText_snoc, List.append_nil]
    · rw [hnext, hpoint]
  refine ⟨?_, fun hf => hnew hf.journal hf.commit⟩
  obtain ⟨J', C', W', hs', hi'⟩ := hi
  cases hi' with
  | before => exact .inl (hold [] (by rw [List.append_nil]; exact hs'.journal) hs'.commit)
  | preparing k => exact .inl (hold [] (by rw [List.append_nil]; exact hs'.journal) hs'.commit)
  | writing k => exact .inl (hold _ hs'.journal hs'.commit)
  | committed => exact .inr (hnew hs'.journal hs'.commit)
  | cleaning k => exact .inr (hnew hs'.journal hs'.commit)

theorem wp_append_published (h : Published s es) (lock : Nat) :
    Store.wp me allow (fun h => ∃ es', Published h.fs es' ∧ (es' = es ∨ es' = es ++ [nextEntry es event time]))
      (appendWithOps lock event time) (fun r h => ∃ es', Published h.fs es' ∧ appendStep es event time r es')
      ⟨s, []⟩ := by
  have halong : ∀ (plan : AppendPlan s event time) x, Along me plan.script s x →
      ∃ es', Published x.fs es' ∧ (es' = es ∨ es' = es ++ [nextEntry es event time]) := by
    intro plan x ha
    obtain ⟨l, hl⟩ := ha.fs_eq
    rw [hl]
    rcases (plan.published h (plan.keeps_image.along ha)).1 with hp | hp
    · exact ⟨es, hp.withLocks l, .inl rfl⟩
    · exact ⟨_, hp.withLocks l, .inr rfl⟩
  refine wp_mono (wp_appendWithOps lock) ?_ ?_
  · rintro x (rfl | ⟨plan, ha⟩)
    · exact ⟨es, h, .inl rfl⟩
    · exact halong plan x ha
  · intro r x _ hr
    cases r with
    | error e =>
      rcases hr with rfl | ⟨plan, ha, d, rfl⟩
      · exact ⟨es, h, fun _ => rfl, .inl rfl⟩
      · obtain ⟨es', hp, hes⟩ := halong plan x ha
        exact ⟨es', hp, (fun hk => by cases hk), hes⟩
    | ok entry =>
      obtain ⟨plan, ha, rfl, -⟩ := hr
      obtain ⟨l, hl⟩ := ha.along.fs_eq
      have hclean := readImage_eq_ok.mp plan.image
      have hentry : plan.entry = nextEntry es event time := by
        rw [AppendPlan.entry, (h.read plan.shows hclean).1]; rfl
      refine ⟨_, ?_, hentry, rfl⟩
      rw [hl, hentry]
      exact ((plan.published h (plan.keeps_image.along ha.along)).2 (plan.keeps_image.finish ha)).withLocks l

end

/-! ## Opens -/

section
variable {me : Nat} {allow : OpError → Prop} {s t : Fs} {es : List JournalEntry}

omit [SerdeJson] in
theorem SameData.refl (s : Fs) : SameData s s := ⟨rfl, rfl⟩

omit [SerdeJson] in
theorem SameData.setContent (h : SameData s t) {i : Nat} (hj : t.entries .journal ≠ some i)
    (hc : t.entries .commit ≠ some i) (b : Bytes) : SameData s (t.setContent i b) :=
  ⟨(Fs.image_setContent_ne hj b).trans h.journal, (Fs.image_setContent_ne hc b).trans h.commit⟩

omit [SerdeJson] in
theorem keeps_complete {p : Nat} (h : SameData s t) (hj : t.entries .journal ≠ some p)
    (hc : t.entries .commit ≠ some p) :
    Keeps (Event.onFs me) (SameData s) (fun _ => True) (completeScript p) t := by
  refine keeps_noop (.inr ⟨_, rfl⟩) ?_
  rw [← List.append_nil (rewriteScript _ _)]
  exact keeps_rewrite h (fun k => h.setContent hj hc _) ⟨h.setContent hj hc _, trivial⟩

/-- No script that completes a store touches the journal or the commit metadata. -/
theorem ResumeScript.keeps {script : List Op} (h : ResumeScript s script) :
    Keeps (Event.onFs me) (SameData s) (fun _ => True) script s := by
  cases h with
  | @bare j he hp =>
    have hd : s.dir.isSome = true := by
      obtain ⟨_, owner, ⟨d, hd, _⟩, _⟩ := he.journal
      rw [hd]; rfl
    have hnew : ∀ n, n ≠ .publish → ((s.create .publish).private_ s.next).entries n ≠ some s.next := by
      intro n hn he
      rw [Fs.private_entries, Fs.create_entries, if_neg hn] at he
      exact absurd (s.fresh n _ he) (Nat.lt_irrefl _)
    have hsame : SameData s (s.create .publish) := ⟨Fs.image_create_ne (by decide), Fs.image_create_ne (by decide)⟩
    have hpriv : SameData s ((s.create .publish).private_ s.next) :=
      ⟨(Fs.image_private _ _).trans hsame.journal, (Fs.image_private _ _).trans hsame.commit⟩
    have hset := fun b => hpriv.setContent (hnew _ (by decide)) (hnew _ (by decide)) b
    refine keeps_create hp hd (.refl s) hsame (keeps_rewrite hpriv (fun k => hset _) ?_)
    exact keeps_complete (hset _) (hnew .journal (by decide)) (hnew .commit (by decide))
  | @resume j p he hp hw =>
    have hone : ∀ n, n ≠ .publish → s.entries n ≠ some p := fun n hn he => hn (Fs.one_name hp.nlink he hp.entry)
    exact keeps_noop (.inl ⟨p, rfl⟩) (keeps_complete (.refl s) (hone _ (by decide)) (hone _ (by decide)))

theorem OpenHist.sameData {h : Hist} (ho : OpenHist me (ResumeScript s) s h) : SameData s h.fs := by
  rcases ho with ⟨l, rfl⟩ | ⟨script, hs, ha⟩
  · exact ⟨rfl, rfl⟩
  · obtain ⟨l, hl⟩ := ha.fs_eq
    have hk : SameData s (follow (Event.onFs me) h.done s) := hs.keeps.along ha
    rw [hl]
    exact ⟨hk.journal, hk.commit⟩

/-- Under the lock, whatever was seen before it: an open leaves what is committed. -/
theorem wp_openLocked_published (h : Published s es) {seen : Seen} (hany : seen.any = true)
    (hinc : seen.incomplete = false) (profile : ProfileObservation) (lock : Nat) :
    Store.wp me allow (fun h => Published h.fs es) (openLocked seen profile lock) (fun _ h => Published h.fs es)
      ⟨s, []⟩ := by
  refine wp_openLocked_seen hany hinc (Untouched.start s) (fun x hx => h.sameData hx.sameData) fun r x hr => ?_
  have hopen : OpenHist me (ResumeScript s) s x := by
    cases r with
    | error e => exact hr.1
    | ok u => exact hr.imp (·.1) fun ⟨script, hs, ha⟩ => ⟨script, hs, ha.along⟩
  exact h.sameData hopen.sameData

/-- Whatever fails, a load returns the entries of a snapshot or an error. -/
theorem gives_loadCommitted_reads (lock : Nat) :
    Gives me allow (loadCommitted lock) s (fun _ => True) fun r => ∃ snap, Reads s snap ∧ r = snap.entries := by
  have hany : ∀ {α : Type} {p : Store α} {E P}, Gives me allow p s E P → Gives me allow p s (fun _ => True) P :=
    fun hp => gives_mono hp (fun _ _ => trivial) fun _ h => h
  refine gives_bind (hany gives_openExistingPrivateDir) fun _ _ => ?_
  refine gives_bind (hany (gives_qualifyDirectory _)) fun profile _ => ?_
  refine gives_bind (hany (gives_revalidateLock _ _)) fun _ _ => ?_
  exact gives_bind (hany (gives_readSnapshot _)) fun snap hsnap => gives_pure ⟨snap, hsnap, rfl⟩

/-- Whatever fails, a load returns what is committed or an error. -/
theorem gives_loadCommitted (h : Published s es) (lock : Nat) :
    Gives me allow (loadCommitted lock) s (fun _ => True) fun r => r = es := by
  refine gives_mono (gives_loadCommitted_reads lock) (fun _ h => h) ?_
  rintro r ⟨snap, ⟨j, c, p, hj, hc, hp, himage⟩, rfl⟩
  refine (h.read ⟨?_, ?_, ?_⟩ (readImage_eq_ok.mp himage)).1
  · exact Fs.image_eq hj.entry
  · exact Fs.image_eq hc.entry
  · exact Fs.image_eq hp.entry

end

end Aizign
