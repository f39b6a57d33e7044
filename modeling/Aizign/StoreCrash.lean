import Aizign.StoreExecAppend

/-!
# Process crashes during an append

A process crash stops a program between two operations or in the middle of a
write; everything written so far is visible. Whatever an append leaves behind,
a cold read classifies it by its witness alone, as long as the journal with the
new line stays within the byte bound: the append itself does not check that
bound, and beyond it the visible commit point is one that no reader accepts.
-/

namespace Aizign

open Store

/-- The files `s'` that a process running `p` from `s` leaves when it stops at some point. -/
def Prog.CrashedAt {α : Type} (me : Nat) (p : Prog Op.Res α) (s s' : Fs) : Prop :=
  ∃ q t, Prog.Steps (Store.Normal me) p s q t ∧ (s' = t ∨ ∃ o k n, q = .call o k ∧ s' = o.torn n t)

theorem Op.step_of_normal {me : Nat} {allow : OpError → Prop} {o : Op} {s s' : Fs} {r : o.Res}
    (h : Store.Normal me o s r s') (d : List Event) :
    o.Step me allow ⟨s, d⟩ r ⟨s', d ++ o.event r .full⟩ := by
  have h : o.run me s = (r, s') := h
  refine ⟨.full, ?_, ?_⟩
  · have hn : o.Outcome me allow s (o.run me s).1 .full := .normal
    rwa [h] at hn
  · simp [Op.effect, h]

theorem Prog.steps_of_normal {α : Type} {me : Nat} {allow : OpError → Prop} {p q : Prog Op.Res α} {s t : Fs}
    (h : Prog.Steps (Store.Normal me) p s q t) (d : List Event) :
    ∃ d', Prog.Steps (Op.Step me allow) p ⟨s, d⟩ q ⟨t, d'⟩ := by
  induction h generalizing d with
  | refl => exact ⟨d, .refl⟩
  | head hs _ ih =>
    obtain ⟨d', h'⟩ := ih _
    exact ⟨d', .head (Op.step_of_normal hs d) h'⟩

/-- A crash is a run in which the last operation failed halfway. -/
theorem Prog.CrashedAt.steps {α : Type} {me : Nat} {p : Prog Op.Res α} {s s' : Fs} (h : p.CrashedAt me s s') :
    ∃ q d, Prog.Steps (Op.Step me fun _ => True) p ⟨s, []⟩ q ⟨s', d⟩ := by
  obtain ⟨q, t, hs, h⟩ := h
  obtain ⟨d, hd⟩ : ∃ d, Prog.Steps (Op.Step me fun _ => True) p ⟨s, []⟩ q ⟨t, d⟩ := Prog.steps_of_normal hs []
  rcases h with rfl | ⟨o, k, n, rfl, rfl⟩
  · exact ⟨q, d, hd⟩
  · have hstep : o.Step me (fun _ => True) ⟨t, d⟩ (.error (.io [])) ⟨o.torn n t, d ++ o.event (.error (.io [])) (.torn n)⟩ :=
      ⟨.torn n, .failed _ _ trivial, rfl⟩
    exact ⟨_, _, hd.trans (.head hstep .refl)⟩

/-- The result `r` of a cold read is the one that the witness bytes `b` show, after an append of `entry` over the
witness `W`, and no other. -/
def ReadAsVisible (snap : Snapshot) (entry : JournalEntry) (W b : Bytes) (r : Except JournalError (List JournalEntry)) :
    Prop :=
  (∀ c : AppendCase, c.Result snap.entries entry r ↔ c.Visible W snap.point.generation b) ∧
    ∃ c : AppendCase, c.Result snap.entries entry r

/-- Wherever an append stops, a fresh reader and a fresh writer see what the witness shows. -/
def CrashClassified [SerdeJson] (me l : Nat) (s : Fs) (snap : Snapshot) (event : WorkflowEvent) (time : BoundedTimestamp) : Prop :=
  ∀ s', (appendWithOps l event time).run.CrashedAt me s s' → ∀ you, ∃ W b,
    s.image .publish = some W ∧ s'.image .publish = some b ∧
    ReadAsVisible snap ⟨snap.entries.length + 1, time, event⟩ W b (coldRead.run.exec (Op.run you) (s'.withLocks [])).1 ∧
    ReadAsVisible snap ⟨snap.entries.length + 1, time, event⟩ W b
      (coldWriterRead.run.exec (Op.run you) (s'.withLocks [])).1

section
variable {me : Nat} {s : Fs} {owner l : Nat} {snap : Snapshot} {event : WorkflowEvent} {time : BoundedTimestamp}

theorem Fs.lockConflict_nil (s : Fs) (me i : Nat) (ex : Bool) : (s.withLocks []).lockConflict me i ex = false := rfl

theorem AppendPlan.lineBytes_eq [SerdeJson] (plan : AppendPlan s event time) : plan.lineBytes = entryLine plan.entry := by
  obtain ⟨-, -, hl⟩ := encodeEntry_eq_ok plan.encoded
  rw [AppendPlan.lineBytes, hl]; rfl

/-- An append over a clean store passes through the images of the entry that it was given. -/
theorem AppendPlan.image_clean [SerdeJson] (plan : AppendPlan s event time) {J C W : Bytes} (hs : Shows s J C W)
    (hc : CleanImage J C W snap) {t : Fs} (hi : plan.Image t) :
    ∃ J' C' W', Shows t J' C' W' ∧ AppendImage J C W (entryLine ⟨snap.entries.length + 1, time, event⟩)
      snap.point.generation (CommitPoint.forPrefix (J ++ entryLine ⟨snap.entries.length + 1, time, event⟩)
        (snap.entries.length + 1)) J' C' W' := by
  have hsh := plan.shows
  have hJ : s.content plan.journal = J := Option.some.inj (hsh.journal.symm.trans hs.journal)
  have hC : s.content plan.commit = C := Option.some.inj (hsh.commit.symm.trans hs.commit)
  have hW : s.content plan.publish = W := Option.some.inj (hsh.publish.symm.trans hs.publish)
  have hsnap : plan.snap = snap := by
    have := plan.image
    rw [hJ, hC, hW, hc.reads] at this
    exact (Except.ok.inj this).symm
  have hentry : plan.entry = ⟨snap.entries.length + 1, time, event⟩ := by rw [AppendPlan.entry, hsnap]
  obtain ⟨J', C', W', hsh', ha⟩ := hi
  refine ⟨J', C', W', hsh', ?_⟩
  have hpoint : plan.point = CommitPoint.forPrefix (J ++ entryLine ⟨snap.entries.length + 1, time, event⟩)
      (snap.entries.length + 1) := by
    rw [AppendPlan.point, plan.lineBytes_eq, hentry, hsnap, hc.bytes]
  rwa [hJ, hC, hW, hpoint, plan.lineBytes_eq, hentry, AppendPlan.generation, hsnap] at ha

/-- What an append over a clean store leaves behind: healthy files with one of its images. -/
theorem CleanFiles.crashed [SerdeJson] (h : CleanFiles s owner l snap) {J C W : Bytes} (hs : Shows s J C W)
    (hc : CleanImage J C W snap) {s' : Fs} (hcrash : (appendWithOps l event time).run.CrashedAt me s s') :
    Healthy s' owner ∧ s'.entries .lock = some l ∧ ∃ J' C' W', Shows s' J' C' W' ∧
      AppendImage J C W (entryLine ⟨snap.entries.length + 1, time, event⟩) snap.point.generation
        (CommitPoint.forPrefix (J ++ entryLine ⟨snap.entries.length + 1, time, event⟩) (snap.entries.length + 1))
        J' C' W' := by
  obtain ⟨q, d, hsteps⟩ := hcrash.steps
  rcases Prog.wp_between (wp_appendWithOps l) hsteps with heq | ⟨plan, ha⟩
  · obtain ⟨rfl, rfl⟩ := Hist.mk.inj heq
    exact ⟨h.healthy, h.lock, J, C, W, hs, .before⟩
  · obtain ⟨k, hfs⟩ := ha.fs_eq
    have hfs : s' = _ := hfs
    obtain ⟨J', C', W', hsh, hi⟩ := plan.image_clean hs hc (plan.keeps_image.along ha)
    obtain ⟨hh, hl⟩ := (plan.keeps_healthy h.healthy).along ha
    rw [hfs]
    exact ⟨hh.withLocks k, hl.trans h.lock, J', C', W', hsh.withLocks k, hi⟩

/-- The images of an append never hold the initialization witness. -/
theorem AppendCase.not_initializing [SerdeJson] {J C W b : Bytes} (hc : CleanImage J C W snap)
    (hm : snap.point.generation ≤ maxJournalEntries) {c : AppendCase} (hv : c.Visible W snap.point.generation b) :
    ∀ w, PublishWitness.decode b = .ok w → w.isInitializing = false := by
  have hg : 0 < snap.point.generation := by rw [hc.generation]; omega
  intro w hw
  cases c with
  | before =>
    rw [show b = W from hv, hc.witness] at hw
    rw [← Except.ok.inj hw]
    exact PublishWitness.clean_isInitializing _
  | torn =>
    obtain ⟨d, hd⟩ : ∃ d, PublishWitness.decode b = .error (.corrupt d) := by
      rcases hv with ⟨hp, hne⟩ | ⟨hp, hne⟩
      · exact PublishWitness.decode_torn hp hne
      · exact PublishWitness.decode_torn hp hne
    rw [hd] at hw; cases hw
  | prepared =>
    rw [show b = _ from hv, PublishWitness.decode_encode (PublishWitness.prepared_valid hg hm)] at hw
    rw [← Except.ok.inj hw]
    exact PublishWitness.prepared_isInitializing hg
  | clean =>
    rw [show b = _ from hv, PublishWitness.decode_encode
      (PublishWitness.clean_valid (Nat.succ_pos _) (Nat.succ_le_succ hm))] at hw
    rw [← Except.ok.inj hw]
    exact PublishWitness.clean_isInitializing _

theorem CleanFiles.classified [SerdeJson] (h : CleanFiles s owner l snap) (hm : snap.point.generation ≤ maxJournalEntries)
    (hb : snap.bytes.length + (entryLine ⟨snap.entries.length + 1, time, event⟩).length ≤ maxJournalBytes) :
    CrashClassified me l s snap event time := by
  intro s' hcrash you
  obtain ⟨J, C, W, hs, hc⟩ := h.image
  obtain ⟨hh, hl, J', C', W', hs', hi⟩ := h.crashed hs hc hcrash
  rw [hc.bytes, ← List.length_append] at hb
  obtain ⟨c, hv, hr, hw⟩ := AppendImage.case hc hm rfl hb hi
  have hread := exec_coldRead (hh.withLocks []) (hs'.withLocks []) hl (Fs.lockConflict_nil s' you l false)
  have hwrite := exec_coldWriterRead (hh.withLocks []) (hs'.withLocks []) hl (Fs.lockConflict_nil s' you l true)
    (AppendCase.not_initializing hc hm hv)
  rw [← hread] at hr
  rw [← hwrite] at hw
  exact ⟨W, W', hs.publish, hs'.publish, ⟨AppendCase.exactly hc hm hv hr, c, hr⟩, AppendCase.exactly hc hm hv hw, c, hw⟩

/-- Beyond the byte bound the renamed commit point is one no reader accepts, while the witness is PREPARED. -/
theorem CleanStore.unclassified [SerdeJson] (h : CleanStore s owner l snap) (hm : snap.point.generation ≤ maxJournalEntries)
    (hb : maxJournalBytes < snap.bytes.length + (entryLine ⟨snap.entries.length + 1, time, event⟩).length) :
    ¬CrashClassified me l s snap event time := by
  intro hall
  obtain ⟨C, W, p, t, hc, hW, hready, hs, hl, -, -, hleads⟩ := h.written me hm rfl
  generalize he : (⟨snap.entries.length + 1, time, event⟩ : JournalEntry) = e at *
  have hseq : e.seq = snap.entries.length + 1 := by rw [← he]
  rw [← List.length_append] at hb
  obtain ⟨d, hd⟩ := hc.nextPoint_long hm hseq hb
  generalize hpoint : CommitPoint.forPrefix (snap.bytes ++ entryLine e) e.seq = point at *
  have hcrash : (appendWithOps l event time).run.CrashedAt me s (t.published point) :=
    ⟨_, _, hleads.trans ((leads_publishCommit hready rfl point true).bind _), Or.inl rfl⟩
  obtain ⟨W', b, hW', hb', ⟨hread, -⟩, -⟩ := hall _ hcrash 0
  have hs' := hs.renamed point.encode
  obtain rfl : W' = W := Option.some.inj (hW'.symm.trans hW)
  obtain rfl : b = _ := Option.some.inj (hb'.symm.trans hs'.publish)
  obtain ⟨d', hd'⟩ := (hread .prepared).mpr rfl
  have hh := hready.toHealthy.renamed point.encode
  have hlock : (t.published point).entries .lock = some l := (Fs.renamed_entries _ (by decide) (by decide)).trans hl
  have hr := exec_coldRead (hh.withLocks []) (hs'.withLocks []) hlock (Fs.lockConflict_nil _ 0 l false)
  rw [readerResult_commit hd] at hr
  exact nomatch hr.symm.trans hd'

/-- Wherever an append over a clean store stops, both readers classify what it left by the witness alone, if and only if
the journal with the new line is within the byte bound. A temporary commit file left behind matters for the second half
only: one that is not private stops every append before it renames. -/
theorem append_crash_classified_iff [SerdeJson] (h : CleanFiles s owner l snap)
    (hm : snap.point.generation ≤ maxJournalEntries) :
    (snap.bytes.length + (entryLine ⟨snap.entries.length + 1, time, event⟩).length ≤ maxJournalBytes →
      CrashClassified me l s snap event time) ∧
    ((∀ i, s.entries .commitTemp = some i → PrivateInode s owner i) →
      (CrashClassified me l s snap event time ↔
        snap.bytes.length + (entryLine ⟨snap.entries.length + 1, time, event⟩).length ≤ maxJournalBytes)) := by
  refine ⟨h.classified hm, fun htemp => ⟨fun hc => ?_, h.classified hm⟩⟩
  have hstore : CleanStore s owner l snap := ⟨h, htemp⟩
  by_contra hb
  exact hstore.unclassified hm (Nat.not_le.mp hb) hc

end

/-! ## A clean store whose next line passes the bound -/

open Sample in
theorem first_append_crash_classified :
    CrashClassified 1 0 newStore ⟨CommitPoint.empty, [], []⟩ sampleEvent sampleTime ↔
      (entryLine ⟨1, sampleTime, sampleEvent⟩).length ≤ maxJournalBytes := by
  have h : CrashClassified 1 0 _ _ sampleEvent sampleTime ↔ _ :=
    (append_crash_classified_iff newStore_clean.toCleanFiles (by decide)).2 newStore_clean.temp
  simpa using h

theorem isAscii_spaces (n : Nat) : isAscii (List.replicate n ' ') = true := by
  simp only [isAscii, List.all_replicate]
  cases n <;> rfl

theorem ws_spaces (n : Nat) : (List.replicate n ' ').all isWs = true := by
  rw [List.all_replicate]
  cases n <;> rfl

def JournalEntry.padded (e : JournalEntry) : Text :=
  e.dto.cst.text ++ List.replicate (maxJournalBytes - 1 - e.dto.cst.text.length) ' '

def JournalEntry.filled (e : JournalEntry) : Bytes := utf8 (e.padded ++ ['\n'])

section
variable {e : JournalEntry} (hs : e.seq = 1)
include hs

theorem length_filled : e.filled.length = maxJournalBytes := by
  have hline : (utf8 (e.dto.cst.text ++ ['\n'])).length ≤ lineLengthMax := e.length_line (hs ▸ by decide)
  have ha : isAscii (e.padded ++ ['\n']) = true := by
    rw [isAscii_append, JournalEntry.padded, isAscii_append, e.ascii, isAscii_spaces]
    rfl
  have ha' : isAscii (e.dto.cst.text ++ ['\n']) = true := by
    rw [isAscii_append, e.ascii]
    rfl
  have hb : lineLengthMax ≤ maxJournalBytes := by decide
  rw [length_utf8_ascii ha', List.length_append, List.length_singleton] at hline
  rw [JournalEntry.filled, length_utf8_ascii ha, JournalEntry.padded]
  simp only [List.length_append, List.length_replicate, List.length_singleton]
  omega

theorem decodeContents_padded [SerdeJson] : decodeContents (e.padded ++ ['\n']) = .ok [e] := by
  have hd : decodeLine 1 e.padded = .ok e :=
    decodeLine_doc 1 (by omega) (hs ▸ by decide) (d := ⟨Ws.nil, e.dto.cst, ⟨_, ws_spaces _⟩⟩) rfl
  refine decodeContents_line ?_ hd hs
  rw [JournalEntry.padded, List.mem_append, not_or]
  exact ⟨e.printable.no_newline, fun h => absurd (List.eq_of_mem_replicate h) (by decide)⟩

theorem cleanImage_filled [SerdeJson] : CleanImage e.filled (CommitPoint.forPrefix e.filled 1).encode (PublishWitness.clean 2).encode
    ⟨CommitPoint.forPrefix e.filled 1, e.filled, [e]⟩ := by
  have hlen : (CommitPoint.forPrefix e.filled 1).committedBytes = maxJournalBytes := length_filled hs
  have hb : maxJournalBytes ≤ u64Max := by decide
  refine ⟨?_, PublishWitness.decode_encode (PublishWitness.clean_valid (by decide) (by decide)), rfl, rfl,
    _, rfl, decodeContents_padded hs⟩
  have he : 1 ≤ maxJournalEntries ∧ 2 ≤ u64Max ∧ 1 ≤ u64Max := by decide
  rw [CommitPoint.decode_encode ⟨he.2.1, hlen ▸ hb, he.2.2⟩,
    CommitPoint.ofDto_dto ⟨Nat.le_of_eq hlen, he.1, rfl⟩]

theorem filled_not_classified [SerdeJson] (me : Nat) (event : WorkflowEvent) (time : BoundedTimestamp) :
    ¬CrashClassified me 0 (storeWith e.filled (CommitPoint.forPrefix e.filled 1).encode (PublishWitness.clean 2).encode)
      ⟨CommitPoint.forPrefix e.filled 1, e.filled, [e]⟩ event time := by
  have hg : 2 ≤ maxJournalEntries := by decide
  refine (storeWith_clean (cleanImage_filled hs)).unclassified hg ?_
  show maxJournalBytes < e.filled.length + (entryLine ⟨2, time, event⟩).length
  rw [length_filled hs, entryLine, utf8_append, List.length_append]
  exact Nat.lt_add_of_pos_right (Nat.add_pos_right _ (by decide))

end

open Sample in
/-- A journal of one record that fills the byte bound: the next append can leave a PREPARED witness over a commit point
that reads as corrupt. -/
theorem padded_append_not_classified :
    ¬CrashClassified 1 0 (storeWith sampleEntry.filled (CommitPoint.forPrefix sampleEntry.filled 1).encode
        (PublishWitness.clean 2).encode)
      ⟨CommitPoint.forPrefix sampleEntry.filled 1, sampleEntry.filled, [sampleEntry]⟩ sampleEvent sampleTime :=
  filled_not_classified (e := sampleEntry) rfl 1 sampleEvent sampleTime

end Aizign
