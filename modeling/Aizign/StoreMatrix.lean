import Aizign.StoreExecAppend

/-!
# What a reader makes of any three documents

For every journal, commit document and witness document, read without failures:
which triples are clean, which have no known result, which are an unfinished
initialization and which are refused; and that a writer open judges them as a
reader does.
-/

namespace Aizign

open Store

section
variable [SerdeJson]

/-! ## Refusals -/

omit [SerdeJson] in
theorem lineField_refusal {α : Type} {n : Nat} {name : Text} {x : Except IdentityError α} {e : JournalError}
    (h : lineField n name x = .error e) : e.isRefusal = true := by
  cases x with
  | ok a => cases h
  | error d => cases h; rfl

omit [SerdeJson] in
theorem lineOption_refusal {α : Type} {n : Nat} {name : Text} {new : Text → Except IdentityError α} {v : Option Text}
    {e : JournalError} (h : lineOption n name new v = .error e) : e.isRefusal = true := by
  cases v with
  | none => cases h
  | some v =>
    simp only [lineOption] at h
    cases hf : lineField n name (new v) with
    | ok a => rw [hf] at h; cases h
    | error d => rw [hf] at h; cases h; exact lineField_refusal hf

omit [SerdeJson] in
theorem refusal_bind {α β : Type} {x : Except JournalError α} {f : α → Except JournalError β} {e : JournalError}
    (hx : ∀ d, x = .error d → d.isRefusal = true) (hf : ∀ a d, f a = .error d → d.isRefusal = true)
    (h : (x >>= f) = .error e) : e.isRefusal = true := by
  cases x with
  | error d => cases h; exact hx e rfl
  | ok a => exact hf a e h

omit [SerdeJson] in
theorem SignalDto.parts_refusal {n : Nat} {d : SignalDto} {e : JournalError} (h : d.parts n = .error e) :
    e.isRefusal = true := by
  unfold SignalDto.parts at h
  refine refusal_bind (fun _ => lineField_refusal) (fun _ _ => ?_) h
  refine refusal_bind (fun _ => lineField_refusal) fun _ _ => ?_
  refine refusal_bind (fun _ => lineField_refusal) fun _ _ => ?_
  refine refusal_bind (fun _ => lineField_refusal) fun _ _ => ?_
  refine refusal_bind (fun _ => lineField_refusal) fun _ _ => ?_
  refine refusal_bind (fun _ => lineField_refusal) fun _ _ => ?_
  refine refusal_bind (fun _ => lineOption_refusal) fun _ _ => ?_
  refine refusal_bind (fun _ => lineOption_refusal) fun _ _ h => ?_
  cases h

theorem decodeLine_refusal {n : Nat} {line : Text} {e : JournalError} (h : decodeLine n line = .error e) :
    e.isRefusal = true := by
  unfold decodeLine at h
  split at h
  · cases h; rfl
  split at h
  · cases h; rfl
  · cases h; rfl
  split at h
  · cases h; rfl
  split at h
  · cases h; rfl
  unfold RecordDto.entry at h
  split at h
  · cases h; rfl
  split at h
  · cases h; rfl
  split at h
  · cases h; rfl
  refine refusal_bind (fun _ => SignalDto.parts_refusal) (fun parts d hd => ?_) h
  split at hd <;> cases hd
  rfl

theorem decodeLines_refusal {lines : List Text} {es : List JournalEntry} {e : JournalError}
    (h : decodeLines es lines = .error e) : e.isRefusal = true := by
  induction lines generalizing es with
  | nil => cases h
  | cons line lines ih =>
    rw [decodeLines] at h
    split at h
    · cases h; rfl
    simp only at h
    split at h
    · rename_i d hd
      cases h
      exact decodeLine_refusal hd
    · split at h
      · cases h; rfl
      · exact ih h

theorem decodeContents_refusal {t : Text} {e : JournalError} (h : decodeContents t = .error e) : e.isRefusal = true := by
  unfold decodeContents at h
  split at h
  · cases h
  split at h
  · cases h; rfl
  · exact decodeLines_refusal h

theorem checkCommittedPrefix_refusal {b : Bytes} {point : CommitPoint} {e : JournalError}
    (h : checkCommittedPrefix b point = .error e) : e.isRefusal = true := by
  unfold checkCommittedPrefix at h
  split at h
  · cases h; rfl
  split at h
  · cases h; rfl
  split at h
  · rename_i d hd
    cases h
    exact decodeContents_refusal hd
  split at h
  · cases h; rfl
  · cases h

theorem checkPreparedPrefix_refusal {b : Bytes} {point : CommitPoint} {e : JournalError}
    (h : checkPreparedPrefix b point = .error e) : e.isRefusal = true := by
  unfold checkPreparedPrefix at h
  split at h
  · cases h; rfl
  split at h
  · cases h; rfl
  split at h
  · cases h; rfl
  split at h
  · rename_i d hd
    cases h
    exact decodeContents_refusal hd
  split at h
  · cases h; rfl
  · cases h

/-! ## The matrix -/

structure CommittedAs (b : Bytes) (point : CommitPoint) (es : List JournalEntry) : Prop where
  bytes : b.length = point.committedBytes
  digest : sha256 b = point.digest
  text : ∃ t, b = utf8 t ∧ decodeContents t = .ok es
  count : es.length = point.committedEntries

def CleanTriple (J C W : Bytes) (es : List JournalEntry) : Prop :=
  ∃ G point, PublishWitness.decode W = .ok (.clean G) ∧ CommitPoint.decode C maxJournalBytes = .ok point ∧
    point.generation = G ∧ CommittedAs J point es

/-- A clean witness over a journal that is too long, or a PREPARED one over a commit point of its append. -/
def UnknownTriple (J C W : Bytes) : Prop :=
  ∃ G point, CommitPoint.decode C maxJournalBytes = .ok point ∧
    (PublishWitness.decode W = .ok (.clean G) ∧ point.generation = G ∧ point.committedBytes < J.length ∨
      1 ≤ G ∧ PublishWitness.decode W = .ok ⟨G + 1, G⟩ ∧ (point.generation = G ∨ point.generation = G + 1) ∧
        point.committedBytes ≤ J.length ∧ (point.generation = G + 1 → J.length = point.committedBytes) ∧
        ∃ es, CommittedAs (J.take point.committedBytes) point es)

def InitializingTriple (J C W : Bytes) : Prop :=
  PublishWitness.decode W = .ok .initializing ∧ CommitPoint.decode C maxJournalBytes = .ok .empty ∧ J = []

section
variable {J C W : Bytes} {point : CommitPoint} {w : PublishWitness}

theorem checkPreparedPrefix_ok_iff {b : Bytes} :
    checkPreparedPrefix b point = .ok () ↔ ∃ es, CommittedAs b point es := by
  unfold checkPreparedPrefix
  constructor
  · intro h
    split at h
    · cases h
    rename_i hb
    split at h
    · cases h
    rename_i hd
    split at h
    · cases h
    rename_i t ht
    split at h
    · cases h
    rename_i es hes
    split at h
    · cases h
    rename_i hn
    exact ⟨es, not_not.mp hb, not_not.mp hd, ⟨t, fromUtf8_eq_some.mp ht, hes⟩, not_not.mp hn⟩
  · rintro ⟨es, hb, hd, ⟨t, ht, hes⟩, hn⟩
    rw [if_neg (not_not.mpr hb), if_neg (not_not.mpr hd), fromUtf8_eq_some.mpr ht]
    simp only [hes]
    rw [if_neg (not_not.mpr hn)]

theorem checkPreparedImage_ok_iff : checkPreparedImage J point w = .ok () ↔ point.committedBytes ≤ J.length ∧
    (point.generation = w.startedGeneration → J.length = point.committedBytes) ∧
    ∃ es, CommittedAs (J.take point.committedBytes) point es := by
  unfold checkPreparedImage
  by_cases hlt : J.length < point.committedBytes
  · rw [if_pos hlt]
    exact ⟨fun h => (by cases h), fun h => absurd hlt (Nat.not_lt.mpr h.1)⟩
  rw [if_neg hlt]
  by_cases hg : point.generation = w.startedGeneration ∧ J.length ≠ point.committedBytes
  · rw [if_pos hg]
    exact ⟨fun h => (by cases h), fun h => absurd (h.2.1 hg.1) hg.2⟩
  rw [if_neg hg, checkPreparedPrefix_ok_iff]
  refine ⟨fun h => ⟨Nat.not_lt.mp hlt, fun he => ?_, h⟩, fun h => h.2.2⟩
  by_contra hne
  exact hg ⟨he, hne⟩

omit [SerdeJson] in
theorem requirePreparedCommitRelation_ok_iff : requirePreparedCommitRelation w point = .ok () ↔
    point.generation = w.publishedGeneration ∨ point.generation = w.startedGeneration := by
  unfold requirePreparedCommitRelation
  split
  · rename_i h
    exact ⟨fun h' => (by cases h'), fun h' => absurd h' (not_or.mpr h)⟩
  · rename_i h
    refine ⟨fun _ => ?_, fun _ => rfl⟩
    by_contra hn
    exact h (not_or.mp hn)

omit [SerdeJson] in
/-- The three kinds of a witness that was read. -/
theorem PublishWitness.Valid.kinds (h : w.Valid) :
    w = .initializing ∨ (∃ G, w = .clean G) ∨ ∃ G, 1 ≤ G ∧ w = ⟨G + 1, G⟩ := by
  obtain ⟨a, b⟩ := w
  have hr := h.relation
  simp only [PublishWitness.isClean, PublishWitness.isInitializing, PublishWitness.isPreparedSuccessor,
    Bool.or_eq_true, decide_eq_true_eq] at hr
  rcases hr with (rfl | ⟨rfl, rfl⟩) | ⟨hb, rfl⟩
  · exact .inr (.inl ⟨a, rfl⟩)
  · exact .inl rfl
  · exact .inr (.inr ⟨b, hb, rfl⟩)

omit [SerdeJson] in
theorem PublishWitness.successor_kind {G : Nat} (hG : 1 ≤ G) :
    (⟨G + 1, G⟩ : PublishWitness).isInitializing = false ∧ (⟨G + 1, G⟩ : PublishWitness).isPreparedSuccessor = true := by
  refine ⟨decide_eq_false ?_, decide_eq_true ⟨hG, rfl⟩⟩
  rintro ⟨-, h : G = 0⟩
  omega

/-! ### What each triple reads as -/

theorem readImage_of_clean {es : List JournalEntry} (h : CleanTriple J C W es) :
    ∃ snap, readImage J C W = .ok snap ∧ snap.entries = es := by
  obtain ⟨G, point, hw, hc, rfl, hb, hd, ht, hn⟩ := h
  refine ⟨⟨point, J, es⟩, readImage_eq_ok.mpr ⟨hc, hw, rfl, ?_, ht⟩, rfl⟩
  have hv := CommitPoint.decode_valid hc
  show point = CommitPoint.forPrefix J es.length
  rw [CommitPoint.forPrefix, hd, hb, hn, ← hv.generation]

theorem cleanTriple_of_readImage {snap : Snapshot} (h : readImage J C W = .ok snap) : CleanTriple J C W snap.entries := by
  have hc := readImage_eq_ok.mp h
  refine ⟨_, snap.point, hc.witness, hc.commit, rfl, ?_, ?_, hc.text, ?_⟩
  · rw [hc.point]; rfl
  · rw [hc.point]; rfl
  · rw [hc.point]; rfl

theorem readImage_of_unknown (h : UnknownTriple J C W) : ∃ d, readImage J C W = .error (.outcomeUnknown d) := by
  obtain ⟨G, point, hc, ⟨hw, rfl, hlt⟩ | ⟨hG, hw, hg, hle, heq, hes⟩⟩ := h
  · rw [readImage_of_decoded hc hw, readDecoded, if_neg (by simp [PublishWitness.clean_isInitializing]),
      if_neg (by simp [PublishWitness.clean_isPreparedSuccessor]), if_neg (by simp), if_pos hlt]
    exact ⟨_, rfl⟩
  · obtain ⟨hi, hs⟩ := PublishWitness.successor_kind hG
    have hr : requirePreparedCommitRelation ⟨G + 1, G⟩ point = .ok () := requirePreparedCommitRelation_ok_iff.mpr hg
    have hk : checkPreparedImage J point ⟨G + 1, G⟩ = .ok () := checkPreparedImage_ok_iff.mpr ⟨hle, heq, hes⟩
    rw [readImage_of_decoded hc hw, readDecoded, hi, if_neg (by simp), if_pos hs, hr, hk]
    exact ⟨_, rfl⟩

theorem readImage_of_initializing (h : InitializingTriple J C W) : ∃ d, readImage J C W = .error (.unavailable d) := by
  obtain ⟨hw, hc, rfl⟩ := h
  rw [readImage_of_decoded hc hw, readDecoded, if_pos (by decide), if_neg (by simp), if_neg (by simp)]
  exact ⟨_, rfl⟩

/-- There is no fourth triple that reads as anything but a refusal. -/
theorem readImage_cases (J C W : Bytes) : (∃ es, CleanTriple J C W es) ∨ UnknownTriple J C W ∨ InitializingTriple J C W ∨
    ∃ e, readImage J C W = .error e ∧ e.isRefusal = true := by
  cases hr : readImage J C W with
  | ok snap => exact .inl ⟨_, cleanTriple_of_readImage hr⟩
  | error e =>
    cases hc : CommitPoint.decode C maxJournalBytes with
    | error d =>
      rw [readImage, hc] at hr
      cases hr
      exact .inr (.inr (.inr ⟨e, rfl, CommitPoint.decode_refusal hc⟩))
    | ok point =>
      cases hw : PublishWitness.decode W with
      | error d =>
        rw [readImage, hc, hw] at hr
        cases hr
        exact .inr (.inr (.inr ⟨e, rfl, PublishWitness.decode_refusal hw⟩))
      | ok w =>
        rw [readImage_of_decoded hc hw, readDecoded] at hr
        rcases (PublishWitness.decode_valid hw).kinds with rfl | ⟨G, rfl⟩ | ⟨G, hG, rfl⟩
        · rw [if_pos (by decide)] at hr
          by_cases hp : point ≠ CommitPoint.empty
          · rw [if_pos hp] at hr
            cases hr
            exact .inr (.inr (.inr ⟨_, rfl, rfl⟩))
          rw [if_neg hp] at hr
          by_cases hj : J.length ≠ 0
          · rw [if_pos hj] at hr
            cases hr
            exact .inr (.inr (.inr ⟨_, rfl, rfl⟩))
          rw [not_not] at hp hj
          exact .inr (.inr (.inl ⟨hw, hp ▸ hc, List.eq_nil_of_length_eq_zero hj⟩))
        · rw [if_neg (by simp [PublishWitness.clean_isInitializing]),
            if_neg (by simp [PublishWitness.clean_isPreparedSuccessor])] at hr
          by_cases hg : PublishWitness.clean G ≠ PublishWitness.clean point.generation
          · rw [if_pos hg] at hr
            cases hr
            exact .inr (.inr (.inr ⟨_, rfl, rfl⟩))
          rw [if_neg hg] at hr
          have hG : point.generation = G := (congrArg PublishWitness.startedGeneration (not_not.mp hg)).symm
          by_cases hlt : point.committedBytes < J.length
          · exact .inr (.inl ⟨G, point, hc, .inl ⟨hw, hG, hlt⟩⟩)
          rw [if_neg hlt] at hr
          by_cases hgt : J.length < point.committedBytes
          · rw [if_pos hgt] at hr
            cases hr
            exact .inr (.inr (.inr ⟨_, rfl, rfl⟩))
          rw [if_neg hgt] at hr
          exact .inr (.inr (.inr ⟨e, rfl, checkCommittedPrefix_refusal hr⟩))
        · obtain ⟨hi, hs⟩ := PublishWitness.successor_kind hG
          rw [hi, if_neg (by simp), if_pos hs] at hr
          cases hrel : requirePreparedCommitRelation ⟨G + 1, G⟩ point with
          | error d =>
            rw [hrel] at hr
            cases hr
            unfold requirePreparedCommitRelation at hrel
            split at hrel <;> cases hrel
            exact .inr (.inr (.inr ⟨_, rfl, rfl⟩))
          | ok u =>
            cases hk : checkPreparedImage J point ⟨G + 1, G⟩ with
            | error d =>
              rw [hrel, hk] at hr
              cases hr
              refine .inr (.inr (.inr ⟨e, rfl, ?_⟩))
              unfold checkPreparedImage at hk
              split at hk
              · cases hk; rfl
              split at hk
              · cases hk; rfl
              · exact checkPreparedPrefix_refusal hk
            | ok u =>
              obtain ⟨hle, heq, hes⟩ := checkPreparedImage_ok_iff.mp hk
              exact .inr (.inl ⟨G, point, hc, .inr ⟨hG, hw, requirePreparedCommitRelation_ok_iff.mp hrel, hle, heq, hes⟩⟩)

/-! ### A writer open judges as a reader does -/

/-- Two results that succeed or fail alike, with errors of one kind. -/
def SameVerdict {α β : Type} : Except JournalError α → Except JournalError β → Prop
  | .ok _, .ok _ => True
  | .error e, .error e' => e'.code = e.code
  | _, _ => False

theorem validateImage_same (J C W : Bytes) : SameVerdict (readImage J C W) (validateImage J C W) := by
  cases hc : CommitPoint.decode C maxJournalBytes with
  | error e => simp [readImage, validateImage, hc, bind, Except.bind, SameVerdict]
  | ok point =>
    cases hw : PublishWitness.decode W with
    | error e => simp [readImage, validateImage, hc, hw, bind, Except.bind, SameVerdict]
    | ok w =>
      by_cases hs : w.isPreparedSuccessor = true
      · have hi : w.isInitializing = false := by
          refine decide_eq_false fun h => ?_
          have hs := (of_decide_eq_true hs).1
          omega
        cases hr : requirePreparedCommitRelation w point with
        | error e =>
          simp [readImage, readDecoded, validateImage, hc, hw, hs, hi, hr, bind, Except.bind, SameVerdict]
        | ok u =>
          cases hk : checkPreparedImage J point w with
          | error e =>
            simp [readImage, readDecoded, validateImage, hc, hw, hs, hi, hr, hk, bind, Except.bind, SameVerdict]
          | ok u =>
            obtain ⟨⟨e, he, d, rfl⟩, e', he', d', rfl⟩ := readsError_prepared hc hw hi hs hr hk
              (P := fun e => ∃ d, e = .outcomeUnknown d) fun d => ⟨d, rfl⟩
            rw [he, he']
            rfl
      · have hv : validateImage J C W = (readImage J C W).map fun _ => () := by
          simp only [validateImage, hc, hw, bind, Except.bind]
          rw [if_neg hs]
          cases readImage J C W <;> rfl
        rw [hv]
        cases readImage J C W <;> trivial

end

theorem unknownTriple_writing {J C W : Bytes} {snap : Snapshot} (h : CleanImage J C W snap)
    (hm : snap.point.generation ≤ maxJournalEntries) (line : Bytes) :
    UnknownTriple (J ++ line) C (PublishWitness.prepared (snap.point.generation + 1)).encode := by
  have hg : 0 < snap.point.generation := by
    rw [h.generation]
    omega
  have hlen : snap.point.committedBytes = J.length := congrArg CommitPoint.committedBytes h.point
  have hdecode := PublishWitness.decode_encode (PublishWitness.prepared_valid hg hm)
  have hcommitted : CommittedAs J snap.point snap.entries := by
    refine ⟨hlen.symm, ?_, h.text, ?_⟩
    · rw [h.point]
      rfl
    · rw [h.point]
      rfl
  refine ⟨_, snap.point, h.commit, .inr ⟨hg, hdecode, .inl rfl, ?_, fun he => by omega, snap.entries, ?_⟩⟩
  · rw [hlen, List.length_append]
    exact Nat.le_add_right _ _
  · rwa [hlen, List.take_left' rfl]

/-- The whole matrix, for the files of any state directory in order. -/
theorem snapshot_matrix {me : Nat} {s : Fs} {owner : Nat} {J C W : Bytes} (h : Healthy s owner) (hs : Shows s J C W) :
    ∃ r, Runs me (readSnapshot s.profile) s r ∧
      (∀ es, (∃ snap, r = .ok snap ∧ snap.entries = es) ↔ CleanTriple J C W es) ∧
      ((∃ d, r = .error (.outcomeUnknown d)) ↔ UnknownTriple J C W) ∧
      ((∃ d, r = .error (.unavailable d)) ↔ InitializingTriple J C W) ∧
      ((∀ es, ¬CleanTriple J C W es) → ¬UnknownTriple J C W → ¬InitializingTriple J C W →
        ∃ e, r = .error e ∧ e.isRefusal = true) ∧
      (PublishWitness.decode W ≠ .ok .initializing →
        ∃ r', Runs me (resumeOrValidateExisting s.profile) s r' ∧ SameVerdict r r') := by
  refine ⟨readImage J C W, runs_readSnapshot_shows h hs, ?_, ?_, ?_, ?_, ?_⟩
  · intro es
    refine ⟨?_, readImage_of_clean⟩
    rintro ⟨snap, hr, rfl⟩
    exact cleanTriple_of_readImage hr
  · refine ⟨?_, readImage_of_unknown⟩
    rintro ⟨d, hd⟩
    rcases readImage_cases J C W with ⟨es, hc⟩ | hu | hi | ⟨e, he, hr⟩
    · obtain ⟨snap, hs, -⟩ := readImage_of_clean hc
      rw [hs] at hd
      cases hd
    · exact hu
    · obtain ⟨d', hd'⟩ := readImage_of_initializing hi
      rw [hd'] at hd
      cases hd
    · rw [hd] at he
      cases he
      cases hr
  · refine ⟨?_, readImage_of_initializing⟩
    rintro ⟨d, hd⟩
    rcases readImage_cases J C W with ⟨es, hc⟩ | hu | hi | ⟨e, he, hr⟩
    · obtain ⟨snap, hs, -⟩ := readImage_of_clean hc
      rw [hs] at hd
      cases hd
    · obtain ⟨d', hd'⟩ := readImage_of_unknown hu
      rw [hd'] at hd
      cases hd
    · exact hi
    · rw [hd] at he
      cases he
      cases hr
  · intro hc hu hi
    rcases readImage_cases J C W with ⟨es, hc'⟩ | hu' | hi' | hr
    · exact absurd hc' (hc es)
    · exact absurd hu' hu
    · exact absurd hi' hi
    · exact hr
  · intro hw
    refine ⟨validateImage J C W, runs_resumeOrValidateExisting h hs fun w hd => ?_, validateImage_same J C W⟩
    refine decide_eq_false fun hi => hw ?_
    obtain ⟨a, b⟩ := w
    obtain ⟨h₁ : a = 1, h₀ : b = 0⟩ := hi
    rw [hd, h₁, h₀]
    rfl

end

open Sample in
/-- Two entries under a clean triple, and the second of them behind a PREPARED witness. -/
theorem appended_snapshot_matrix :
    (∃ C W snap, Runs 1 (readSnapshot cleanProfile) (storeWith (entryLine sampleEntry ++ entryLine repeatedEntry) C W) (.ok snap) ∧
      snap.entries = [sampleEntry, repeatedEntry]) ∧
    ∃ C detail, Runs 1 (readSnapshot cleanProfile)
      (storeWith (entryLine sampleEntry ++ entryLine repeatedEntry) C (PublishWitness.prepared 3).encode)
      (.error (.outcomeUnknown detail)) := by
  have hone : ([] ++ entryLine sampleEntry).length ≤ maxJournalBytes :=
    Nat.le_trans (sampleEntry.length_line (by decide)) (by decide)
  have htwo : (([] ++ entryLine sampleEntry) ++ entryLine repeatedEntry).length ≤ maxJournalBytes := by
    rw [List.length_append]
    exact Nat.le_trans (Nat.add_le_add (sampleEntry.length_line (by decide)) (repeatedEntry.length_line (by decide))) (by decide)
  have h₁ := cleanImage_empty.next (by decide) (show sampleEntry.seq = _ from rfl) hone
  have h₂ := h₁.next (by decide) (show repeatedEntry.seq = _ from rfl) htwo
  constructor
  · obtain ⟨r, hr, hok, -⟩ := snapshot_matrix (storeWith_healthy _ _ _) ⟨rfl, rfl, rfl⟩
    obtain ⟨snap, rfl, hes⟩ := (hok _).mpr (cleanTriple_of_readImage h₂.reads)
    exact ⟨_, _, snap, hr, hes⟩
  · obtain ⟨r, hr, -, hunknown, -⟩ := snapshot_matrix (storeWith_healthy _ _ _) ⟨rfl, rfl, rfl⟩
    obtain ⟨detail, rfl⟩ := hunknown.mpr (unknownTriple_writing h₁ (by decide) (entryLine repeatedEntry))
    exact ⟨_, detail, hr⟩

end Aizign
