import Aizign.StoreImage
import Aizign.RecordStream

/-!
# What the images of an append read as

`CleanImage` spells out when three contents read as a known snapshot. From a
clean image, every image an append passes through reads in one way: as before
until the witness is truncated, corrupt while the witness is torn, unknown while
it is PREPARED, and with the new entry once it is CLEAN.
-/

namespace Aizign

variable [SerdeJson]

structure CleanImage (J C W : Bytes) (snap : Snapshot) : Prop where
  commit : CommitPoint.decode C maxJournalBytes = .ok snap.point
  witness : PublishWitness.decode W = .ok (.clean snap.point.generation)
  bytes : snap.bytes = J
  point : snap.point = CommitPoint.forPrefix J snap.entries.length
  text : ∃ t, J = utf8 t ∧ decodeContents t = .ok snap.entries

omit [SerdeJson] in
theorem PublishWitness.clean_isInitializing (g : Nat) : (PublishWitness.clean g).isInitializing = false := by
  refine decide_eq_false ?_
  rintro ⟨h₁ : g = 1, h₀ : g = 0⟩
  omega

omit [SerdeJson] in
theorem PublishWitness.clean_isPreparedSuccessor (g : Nat) : (PublishWitness.clean g).isPreparedSuccessor = false := by
  refine decide_eq_false ?_
  rintro ⟨-, h : g = g + 1⟩
  omega

theorem checkCommittedPrefix_eq_ok {b : Bytes} {point : CommitPoint} {snap : Snapshot} :
    checkCommittedPrefix b point = .ok snap ↔ snap.point = point ∧ snap.bytes = b ∧ sha256 b = point.digest ∧
      snap.entries.length = point.committedEntries ∧ ∃ t, b = utf8 t ∧ decodeContents t = .ok snap.entries := by
  unfold checkCommittedPrefix
  constructor
  · intro h
    split at h
    · cases h
    rename_i hd
    split at h
    · cases h
    rename_i t ht
    split at h
    · cases h
    rename_i es hes
    split at h
    · cases h
    rename_i hn
    cases h
    exact ⟨rfl, rfl, not_not.mp hd, not_not.mp hn, t, fromUtf8_eq_some.mp ht, hes⟩
  · rintro ⟨rfl, rfl, hd, hn, t, ht, hes⟩
    rw [if_neg (not_not.mpr hd), fromUtf8_eq_some.mpr ht]
    simp only [hes]
    rw [if_neg (not_not.mpr hn)]

theorem readImage_eq_ok {J C W : Bytes} {snap : Snapshot} : readImage J C W = .ok snap ↔ CleanImage J C W snap := by
  constructor
  · intro h
    unfold readImage at h
    cases hc : CommitPoint.decode C maxJournalBytes with
    | error e => simp [hc, bind, Except.bind] at h
    | ok point =>
      cases hw : PublishWitness.decode W with
      | error e => simp [hc, hw, bind, Except.bind] at h
      | ok w =>
        simp only [hc, hw, bind, Except.bind] at h
        unfold readDecoded at h
        split at h
        · repeat' split at h
          all_goals cases h
        split at h
        · cases hr : requirePreparedCommitRelation w point with
          | error e => simp [hr, bind, Except.bind] at h
          | ok u =>
            cases hk : checkPreparedImage J point w with
            | error e => simp [hr, hk, bind, Except.bind] at h
            | ok u => simp [hr, hk, bind, Except.bind] at h
        split at h
        · cases h
        rename_i hclean
        split at h
        · cases h
        split at h
        · cases h
        obtain ⟨hp, hb, hd, hn, t, ht, hes⟩ := checkCommittedPrefix_eq_ok.mp h
        have hv := CommitPoint.decode_valid hc
        have hlen : J.length = point.committedBytes := by omega
        refine ⟨hc.trans (by rw [hp]), hw.trans (by rw [not_not.mp hclean, hp]), hb, ?_, t, ht, hes⟩
        rw [hp, CommitPoint.forPrefix, hd, hlen, hn, ← hv.generation]
  · intro h
    obtain ⟨t, ht, hes⟩ := h.text
    rw [readImage_of_decoded h.commit h.witness, readDecoded, if_neg (by simp [PublishWitness.clean_isInitializing]),
      if_neg (by simp [PublishWitness.clean_isPreparedSuccessor]), if_neg (by simp)]
    have hlen : snap.point.committedBytes = J.length := congrArg CommitPoint.committedBytes h.point
    rw [if_neg (by omega), if_neg (by omega), checkCommittedPrefix_eq_ok]
    refine ⟨rfl, h.bytes, ?_, ?_, t, ht, hes⟩
    · rw [h.point]; rfl
    · rw [h.point]; rfl

namespace CleanImage

variable {J C W : Bytes} {snap : Snapshot} (h : CleanImage J C W snap)

include h

theorem generation : snap.point.generation = snap.entries.length + 1 := congrArg CommitPoint.generation h.point

theorem entries_le : snap.entries.length ≤ maxJournalEntries := by
  obtain ⟨t, -, hes⟩ := h.text
  exact (decodeContents_entries hes).2

theorem bytes_le : J.length ≤ maxJournalBytes := by
  have := (CommitPoint.decode_valid h.commit).bytes
  rwa [h.point] at this

theorem reads : readImage J C W = .ok snap := readImage_eq_ok.mpr h

end CleanImage

/-! ## Witnesses -/

omit [SerdeJson] in
theorem PublishWitness.prepared_valid {g : Nat} (hg : 0 < g) (hm : g ≤ maxJournalEntries) :
    (PublishWitness.prepared (g + 1)).Valid := by
  refine ⟨by simp [PublishWitness.prepared], ?_, ?_, ?_⟩
  · simp only [PublishWitness.prepared]; omega
  · simp only [PublishWitness.prepared]; omega
  · simp [PublishWitness.prepared, PublishWitness.isPreparedSuccessor, hg]

omit [SerdeJson] in
theorem PublishWitness.clean_valid {g : Nat} (hg : 0 < g) (hm : g ≤ maxJournalEntries + 1) :
    (PublishWitness.clean g).Valid :=
  ⟨hg, hm, hm, by simp [PublishWitness.clean, PublishWitness.isClean]⟩

omit [SerdeJson] in
theorem PublishWitness.initializing_valid : PublishWitness.initializing.Valid := by
  refine ⟨by decide, by decide, by decide, by decide⟩

omit [SerdeJson] in
theorem PublishWitness.prepared_isInitializing {g : Nat} (hg : 0 < g) :
    (PublishWitness.prepared (g + 1)).isInitializing = false := by
  refine decide_eq_false ?_
  rintro ⟨h : g + 1 = 1, -⟩
  omega

omit [SerdeJson] in
theorem PublishWitness.prepared_isPreparedSuccessor {g : Nat} (hg : 0 < g) :
    (PublishWitness.prepared (g + 1)).isPreparedSuccessor = true := by
  simp [PublishWitness.prepared, PublishWitness.isPreparedSuccessor, hg]

/-! ## Reading and validating an image -/

/-- `resume_or_validate_existing` on the three contents, for a witness that is not (1,0). -/
def validateImage (J C W : Bytes) : Except JournalError Unit := do
  let point ← CommitPoint.decode C maxJournalBytes
  let w ← PublishWitness.decode W
  if w.isPreparedSuccessor then do
    requirePreparedCommitRelation w point
    checkPreparedImage J point w
    .error (outcomeUnknown "store is left at a PREPARED publication generation")
  else do
    let _ ← readImage J C W
    pure ()

def ReadsAs (J C W : Bytes) (es : List JournalEntry) : Prop :=
  (∃ snap, readImage J C W = .ok snap ∧ snap.entries = es) ∧ validateImage J C W = .ok ()

def ReadsError (J C W : Bytes) (P : JournalError → Prop) : Prop :=
  (∃ e, readImage J C W = .error e ∧ P e) ∧ ∃ e, validateImage J C W = .error e ∧ P e

section
variable {J C W : Bytes}

theorem CleanImage.readsAs {snap : Snapshot} (h : CleanImage J C W snap) : ReadsAs J C W snap.entries := by
  refine ⟨⟨snap, h.reads, rfl⟩, ?_⟩
  simp [validateImage, h.commit, h.witness, h.reads, PublishWitness.clean_isPreparedSuccessor, bind, Except.bind, pure,
    Except.pure]

theorem readsError_witness {point : CommitPoint} {e : JournalError} {P : JournalError → Prop}
    (hc : CommitPoint.decode C maxJournalBytes = .ok point) (h : PublishWitness.decode W = .error e) (he : P e) :
    ReadsError J C W P := by
  refine ⟨⟨e, ?_, he⟩, e, ?_, he⟩
  · simp [readImage, hc, h, bind, Except.bind]
  · simp [validateImage, hc, h, bind, Except.bind]

/-- A PREPARED witness over a commit point it can come from has no known result. -/
theorem readsError_prepared {point : CommitPoint} {w : PublishWitness} {P : JournalError → Prop}
    (hc : CommitPoint.decode C maxJournalBytes = .ok point) (hw : PublishWitness.decode W = .ok w)
    (hi : w.isInitializing = false) (hs : w.isPreparedSuccessor = true)
    (hr : requirePreparedCommitRelation w point = .ok ()) (hk : checkPreparedImage J point w = .ok ())
    (hP : ∀ d, P (.outcomeUnknown d)) : ReadsError J C W P := by
  refine ⟨⟨outcomeUnknown "store publication is PREPARED and has no known result", ?_, hP _⟩,
    outcomeUnknown "store is left at a PREPARED publication generation", ?_, hP _⟩
  · simp [readImage_of_decoded hc hw, readDecoded, hi, hs, hr, hk, bind, Except.bind]
  · simp [validateImage, hc, hw, hs, hr, hk, bind, Except.bind]

theorem checkPreparedPrefix_eq_ok {b : Bytes} {t : Text} {es : List JournalEntry} {point : CommitPoint} (ht : b = utf8 t)
    (hes : decodeContents t = .ok es) (hp : point = CommitPoint.forPrefix b es.length) :
    checkPreparedPrefix b point = .ok () := by
  unfold checkPreparedPrefix
  rw [if_neg (by rw [hp]; simp [CommitPoint.forPrefix]), if_neg (by rw [hp]; simp [CommitPoint.forPrefix]),
    fromUtf8_eq_some.mpr ht]
  simp only [hes]
  rw [if_neg (by rw [hp]; simp [CommitPoint.forPrefix])]

end

/-! ## The images of an append -/

theorem CommitPoint.decode_empty : CommitPoint.decode CommitPoint.empty.encode maxJournalBytes = .ok CommitPoint.empty := by
  rw [CommitPoint.decode_encode ⟨by decide, by decide, by decide⟩, CommitPoint.ofDto_dto ⟨by decide, by decide, rfl⟩]

/-- A store without entries. -/
theorem cleanImage_empty : CleanImage [] CommitPoint.empty.encode (PublishWitness.clean 1).encode
    ⟨CommitPoint.empty, [], []⟩ :=
  ⟨CommitPoint.decode_empty, PublishWitness.decode_encode (PublishWitness.clean_valid (by decide) (by decide)), rfl, rfl,
    [], rfl, rfl⟩

def entryLine (e : JournalEntry) : Bytes := utf8 (e.dto.cst.text ++ ['\n'])

section
variable {J C W : Bytes} {snap : Snapshot} {e : JournalEntry}

theorem CleanImage.seq (h : CleanImage J C W snap) (hm : snap.point.generation ≤ maxJournalEntries)
    (hs : e.seq = snap.entries.length + 1) : e.seq ≠ 0 ∧ e.seq ≤ maxJournalEntries := by
  have := h.generation
  omega

/-- The contents after the append. -/
theorem CleanImage.decode_snoc (h : CleanImage J C W snap) (hm : snap.point.generation ≤ maxJournalEntries)
    (hs : e.seq = snap.entries.length + 1) :
    ∃ t, J ++ entryLine e = utf8 t ∧ decodeContents t = .ok (snap.entries ++ [e]) := by
  obtain ⟨t, ht, hes⟩ := h.text
  obtain ⟨h₀, h₁⟩ := h.seq hm hs
  refine ⟨t ++ (e.dto.cst.text ++ ['\n']), by rw [utf8_append, ← ht]; rfl, ?_⟩
  exact decodeContents_snoc hes (by have := h.generation; omega) hs (encodeEntry_ok h₀ h₁)

theorem CleanImage.nextPoint (h : CleanImage J C W snap) (hm : snap.point.generation ≤ maxJournalEntries)
    (hs : e.seq = snap.entries.length + 1) (hb : (J ++ entryLine e).length ≤ maxJournalBytes) :
    CommitPoint.decode (CommitPoint.forPrefix (J ++ entryLine e) e.seq).encode maxJournalBytes =
      .ok (CommitPoint.forPrefix (J ++ entryLine e) e.seq) := by
  obtain ⟨h₀, h₁⟩ := h.seq hm hs
  have hmax : maxJournalEntries + 1 ≤ u64Max := by decide
  have hbytes : maxJournalBytes ≤ u64Max := by decide
  rw [CommitPoint.decode_encode ⟨?_, ?_, ?_⟩, CommitPoint.ofDto_dto ⟨hb, h₁, rfl⟩]
  · exact Nat.le_trans (Nat.succ_le_succ h₁) hmax
  · exact Nat.le_trans hb hbytes
  · exact Nat.le_trans h₁ (Nat.le_of_succ_le hmax)

/-- The commit point of too long a journal is refused. -/
theorem CleanImage.nextPoint_long (h : CleanImage J C W snap) (hm : snap.point.generation ≤ maxJournalEntries)
    (hs : e.seq = snap.entries.length + 1) (hb : maxJournalBytes < (J ++ entryLine e).length) :
    ∃ d, CommitPoint.decode (CommitPoint.forPrefix (J ++ entryLine e) e.seq).encode maxJournalBytes =
      .error (.corrupt d) := by
  obtain ⟨h₀, h₁⟩ := h.seq hm hs
  have hmax : maxJournalEntries + 1 ≤ u64Max := by decide
  have hline : (entryLine e).length ≤ lineLengthMax := e.length_line h₁
  have hlen : (J ++ entryLine e).length ≤ u64Max := by
    have := h.bytes_le
    have hsum : maxJournalBytes + lineLengthMax ≤ u64Max := by decide
    rw [List.length_append]
    omega
  refine ⟨"committedBytes exceeds the journal byte bound".toList, ?_⟩
  rw [CommitPoint.decode_encode ⟨Nat.le_trans (Nat.succ_le_succ h₁) hmax, hlen,
    Nat.le_trans h₁ (Nat.le_of_succ_le hmax)⟩, CommitPoint.ofDto]
  exact if_pos hb

theorem CleanImage.next (h : CleanImage J C W snap) (hm : snap.point.generation ≤ maxJournalEntries)
    (hs : e.seq = snap.entries.length + 1) (hb : (J ++ entryLine e).length ≤ maxJournalBytes) :
    CleanImage (J ++ entryLine e) (CommitPoint.forPrefix (J ++ entryLine e) e.seq).encode
      (PublishWitness.clean (snap.point.generation + 1)).encode
      ⟨CommitPoint.forPrefix (J ++ entryLine e) e.seq, J ++ entryLine e, snap.entries ++ [e]⟩ := by
  have hg : (CommitPoint.forPrefix (J ++ entryLine e) e.seq).generation = snap.point.generation + 1 := by
    rw [h.generation, CommitPoint.forPrefix, hs]
  refine ⟨h.nextPoint hm hs hb, ?_, rfl, ?_, h.decode_snoc hm hs⟩
  · rw [hg]
    exact PublishWitness.decode_encode (PublishWitness.clean_valid (Nat.succ_pos _) (Nat.succ_le_succ hm))
  · rw [List.length_append, List.length_singleton, ← hs]

end

/-- How far an append has got, as its witness shows it. -/
inductive AppendCase
  | before
  | torn
  | prepared
  | clean
  deriving DecidableEq

/-- The witness bytes of each case, for an append over the witness `W` at generation `G`. -/
def AppendCase.Visible (W : Bytes) (G : Nat) : AppendCase → Bytes → Prop
  | .before, b => b = W
  | .torn, b => (b <+: (PublishWitness.prepared (G + 1)).encode ∧ b ≠ (PublishWitness.prepared (G + 1)).encode) ∨
      (b <+: (PublishWitness.clean (G + 1)).encode ∧ b ≠ (PublishWitness.clean (G + 1)).encode)
  | .prepared, b => b = (PublishWitness.prepared (G + 1)).encode
  | .clean, b => b = (PublishWitness.clean (G + 1)).encode

/-- What a cold read returns in each case, for an append of `e` to `es`. -/
def AppendCase.Result (es : List JournalEntry) (e : JournalEntry) :
    AppendCase → Except JournalError (List JournalEntry) → Prop
  | .before, r => r = .ok es
  | .torn, r => ∃ d, r = .error (.corrupt d)
  | .prepared, r => ∃ d, r = .error (.outcomeUnknown d)
  | .clean, r => r = .ok (es ++ [e])

/-- A cold read through the reader, and one through a writer open. -/
def readerResult (J C W : Bytes) : Except JournalError (List JournalEntry) := (readImage J C W).map Snapshot.entries

def writerResult (J C W : Bytes) : Except JournalError (List JournalEntry) := do
  validateImage J C W
  readerResult J C W

theorem ReadsAs.results {J C W : Bytes} {es : List JournalEntry} (h : ReadsAs J C W es) :
    readerResult J C W = .ok es ∧ writerResult J C W = .ok es := by
  obtain ⟨⟨snap, hr, rfl⟩, hv⟩ := h
  have : readerResult J C W = .ok snap.entries := by rw [readerResult, hr]; rfl
  exact ⟨this, by rw [writerResult, hv, this]; rfl⟩

theorem ReadsError.results {J C W : Bytes} {P : JournalError → Prop} (h : ReadsError J C W P) :
    (∃ e, readerResult J C W = .error e ∧ P e) ∧ ∃ e, writerResult J C W = .error e ∧ P e := by
  obtain ⟨⟨e, hr, he⟩, e', hv, he'⟩ := h
  exact ⟨⟨e, by rw [readerResult, hr]; rfl, he⟩, e', by rw [writerResult, hv]; rfl, he'⟩

omit [SerdeJson] in
theorem AppendCase.result_unique {es : List JournalEntry} {e : JournalEntry} {c c' : AppendCase}
    {r : Except JournalError (List JournalEntry)} (hc : c.Result es e r) (hc' : c'.Result es e r) : c = c' := by
  cases c <;> cases c' <;> simp_all [AppendCase.Result]
  all_goals (obtain ⟨d, hd⟩ := hc'; simp_all)

omit [SerdeJson] in
theorem preparedRelation_before (point : CommitPoint) :
    requirePreparedCommitRelation (.prepared (point.generation + 1)) point = .ok () := by
  rw [requirePreparedCommitRelation, if_neg]
  simp [PublishWitness.prepared]

section
variable {J C W : Bytes} {snap : Snapshot} {e : JournalEntry} (h : CleanImage J C W snap)
  (hm : snap.point.generation ≤ maxJournalEntries)

include h hm

/-- The cases exclude one another: each decodes in its own way. -/
theorem AppendCase.visible_unique {c c' : AppendCase} {b : Bytes} (hc : c.Visible W snap.point.generation b)
    (hc' : c'.Visible W snap.point.generation b) : c = c' := by
  have hg : 0 < snap.point.generation := by rw [h.generation]; omega
  -- the decoding that each case has
  have hd : ∀ c : AppendCase, c.Visible W snap.point.generation b →
      match c with
      | .before => PublishWitness.decode b = .ok (.clean snap.point.generation)
      | .torn => ∃ d, PublishWitness.decode b = .error (.corrupt d)
      | .prepared => PublishWitness.decode b = .ok (.prepared (snap.point.generation + 1))
      | .clean => PublishWitness.decode b = .ok (.clean (snap.point.generation + 1)) := by
    intro c hc
    cases c with
    | before => rw [show b = W from hc]; exact h.witness
    | torn =>
      rcases hc with ⟨hp, hne⟩ | ⟨hp, hne⟩
      · exact PublishWitness.decode_torn hp hne
      · exact PublishWitness.decode_torn hp hne
    | prepared =>
      rw [show b = _ from hc]
      exact PublishWitness.decode_encode (PublishWitness.prepared_valid hg hm)
    | clean =>
      rw [show b = _ from hc]
      exact PublishWitness.decode_encode (PublishWitness.clean_valid (Nat.succ_pos _) (Nat.succ_le_succ hm))
  have h₁ := hd c hc
  have h₂ := hd c' hc'
  cases c <;> cases c' <;> simp_all [PublishWitness.clean, PublishWitness.prepared]

theorem AppendCase.exactly {c : AppendCase} {b : Bytes} {r : Except JournalError (List JournalEntry)}
    (hv : c.Visible W snap.point.generation b)
    (hr : c.Result snap.entries e r) (c' : AppendCase) :
    c'.Result snap.entries e r ↔ c'.Visible W snap.point.generation b := by
  constructor
  · intro h'
    rw [← AppendCase.result_unique hr h']; exact hv
  · intro h'
    rw [← AppendCase.visible_unique h hm hv h']; exact hr

theorem readsError_writing (line : Bytes) (k : Nat) :
    ReadsError (J ++ line.take k) C (PublishWitness.prepared (snap.point.generation + 1)).encode
      fun e => ∃ d, e = .outcomeUnknown d := by
  have hg : 0 < snap.point.generation := by rw [h.generation]; omega
  obtain ⟨t, ht, hes⟩ := h.text
  have hlen : snap.point.committedBytes = J.length := congrArg CommitPoint.committedBytes h.point
  refine readsError_prepared h.commit (PublishWitness.decode_encode (PublishWitness.prepared_valid hg hm))
    (PublishWitness.prepared_isInitializing hg) (PublishWitness.prepared_isPreparedSuccessor hg)
    (preparedRelation_before _) ?_ fun d => ⟨d, rfl⟩
  unfold checkPreparedImage
  rw [if_neg (by rw [hlen, List.length_append]; omega), if_neg (by simp [PublishWitness.prepared]), hlen,
    List.take_left' rfl]
  exact checkPreparedPrefix_eq_ok ht hes h.point

theorem readsError_committed (hs : e.seq = snap.entries.length + 1)
    (hb : (J ++ entryLine e).length ≤ maxJournalBytes) :
    ReadsError (J ++ entryLine e) (CommitPoint.forPrefix (J ++ entryLine e) e.seq).encode
      (PublishWitness.prepared (snap.point.generation + 1)).encode fun e => ∃ d, e = .outcomeUnknown d := by
  have hg : 0 < snap.point.generation := by rw [h.generation]; omega
  obtain ⟨t, ht, hes⟩ := h.decode_snoc hm hs
  refine readsError_prepared (h.nextPoint hm hs hb)
    (PublishWitness.decode_encode (PublishWitness.prepared_valid hg hm))
    (PublishWitness.prepared_isInitializing hg) (PublishWitness.prepared_isPreparedSuccessor hg) ?_ ?_ fun d => ⟨d, rfl⟩
  · rw [requirePreparedCommitRelation, if_neg]
    simp [PublishWitness.prepared, CommitPoint.forPrefix, h.generation, hs]
  · unfold checkPreparedImage
    have htake : (J ++ entryLine e).take (CommitPoint.forPrefix (J ++ entryLine e) e.seq).committedBytes =
      J ++ entryLine e := List.take_of_length_le (Nat.le_refl _)
    rw [if_neg (by simp [CommitPoint.forPrefix]), if_neg (by simp [CommitPoint.forPrefix]), htake]
    refine checkPreparedPrefix_eq_ok ht hes ?_
    rw [List.length_append, List.length_singleton, hs]

/-- Every image of an append, within the byte bound, is read by both readers as its witness shows. -/
theorem AppendImage.case (hs : e.seq = snap.entries.length + 1) (hb : (J ++ entryLine e).length ≤ maxJournalBytes)
    {J' C' W' : Bytes} (hi : AppendImage J C W (entryLine e) snap.point.generation
      (CommitPoint.forPrefix (J ++ entryLine e) e.seq) J' C' W') :
    ∃ c : AppendCase, c.Visible W snap.point.generation W' ∧ c.Result snap.entries e (readerResult J' C' W') ∧
      c.Result snap.entries e (writerResult J' C' W') := by
  have hunknown : ∀ {J' C' : Bytes}, ReadsError J' C' (PublishWitness.prepared (snap.point.generation + 1)).encode
      (fun e => ∃ d, e = .outcomeUnknown d) → ∃ c : AppendCase,
        c.Visible W snap.point.generation (PublishWitness.prepared (snap.point.generation + 1)).encode ∧
        c.Result snap.entries e (readerResult J' C' (PublishWitness.prepared (snap.point.generation + 1)).encode) ∧
        c.Result snap.entries e (writerResult J' C' (PublishWitness.prepared (snap.point.generation + 1)).encode) := by
    intro J' C' hr
    obtain ⟨⟨_, h₁, d, rfl⟩, _, h₂, d', rfl⟩ := hr.results
    exact ⟨.prepared, rfl, ⟨d, h₁⟩, d', h₂⟩
  have htorn : ∀ {J' C' W' : Bytes} {w : PublishWitness} {point : CommitPoint}, W' <+: w.encode → W' ≠ w.encode →
      CommitPoint.decode C' maxJournalBytes = .ok point → (∃ d, readerResult J' C' W' = .error (.corrupt d)) ∧
        ∃ d, writerResult J' C' W' = .error (.corrupt d) := by
    intro J' C' W' w point hp hne hc
    obtain ⟨d, hd⟩ := PublishWitness.decode_torn hp hne
    obtain ⟨⟨_, h₁, d, rfl⟩, _, h₂, d', rfl⟩ :=
      (readsError_witness (J := J') (P := fun e => ∃ d, e = .corrupt d) hc hd ⟨d, rfl⟩).results
    exact ⟨⟨d, h₁⟩, d', h₂⟩
  cases hi with
  | before => exact ⟨.before, rfl, h.readsAs.results⟩
  | preparing k =>
    by_cases hk : (PublishWitness.prepared (snap.point.generation + 1)).encode.take k =
        (PublishWitness.prepared (snap.point.generation + 1)).encode
    · rw [hk]
      have := readsError_writing h hm [] 0
      rw [List.take_nil, List.append_nil] at this
      exact hunknown this
    · exact ⟨.torn, Or.inl ⟨List.take_prefix .., hk⟩, htorn (List.take_prefix ..) hk h.commit⟩
  | writing k => exact hunknown (readsError_writing h hm _ k)
  | committed => exact hunknown (readsError_committed h hm hs hb)
  | cleaning k =>
    by_cases hk : (PublishWitness.clean (snap.point.generation + 1)).encode.take k =
        (PublishWitness.clean (snap.point.generation + 1)).encode
    · rw [hk]
      exact ⟨.clean, rfl, (h.next hm hs hb).readsAs.results⟩
    · exact ⟨.torn, Or.inr ⟨List.take_prefix .., hk⟩, htorn (List.take_prefix ..) hk (h.nextPoint hm hs hb)⟩

end

end Aizign
