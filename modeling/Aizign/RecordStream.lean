import Aizign.RecordSound

/-!
# Journals as streams of lines

The text that appends build line by line reads back as its entries; every cut
that is not at the end of a line, every gap in the sequence and every line
beyond the bound is refused.
-/

namespace Aizign

def Numbered (es : List JournalEntry) : Prop := ∀ (i : Nat) (hi : i < es.length), es[i].seq = i + 1

def joinLines (lines : List Text) : Text := lines.flatMap fun line => line ++ ['\n']

def encodeStream (es : List JournalEntry) : Except JournalError Text := do
  let lines ← es.mapM encodeEntry
  return joinLines lines

def streamText (es : List JournalEntry) : Text := joinLines (es.map fun e => e.dto.cst.text)

section
variable {es fs : List JournalEntry} {t : Text} {lines : List Text}

theorem joinLines_cons (line : Text) (lines : List Text) :
    joinLines (line :: lines) = line ++ '\n' :: joinLines lines := by
  simp [joinLines]

theorem streamText_cons (e : JournalEntry) (es : List JournalEntry) :
    streamText (e :: es) = e.dto.cst.text ++ '\n' :: streamText es := joinLines_cons _ _

theorem endsLine_joinLines : ∀ lines : List Text, EndsLine (joinLines lines)
  | [] => .inl rfl
  | line :: lines => by
    rw [joinLines_cons]
    rcases endsLine_joinLines lines with h | h
    · rw [h]
      exact .inr (by simp)
    · refine .inr ?_
      rw [List.getLast?_append, List.getLast?_cons, h]
      rfl

theorem splitLines_joinLines (h : ∀ line ∈ lines, '\n' ∉ line) : splitLines (joinLines lines) = lines := by
  induction lines with
  | nil => rfl
  | cons line lines ih =>
    rw [List.forall_mem_cons] at h
    rw [joinLines_cons, splitLines_line h.1, ih h.2]

theorem decodeContents_joinLines [SerdeJson] (h : ∀ line ∈ lines, '\n' ∉ line) :
    decodeContents (joinLines lines) = decodeLines [] lines := by
  unfold decodeContents
  rcases endsLine_joinLines lines with he | he
  · cases lines with
    | nil => rfl
    | cons line lines =>
      rw [joinLines_cons] at he
      exact absurd he (by simp)
  · rw [if_neg, if_neg (by rw [he]; simp), splitLines_joinLines h]
    intro hn
    rw [List.isEmpty_iff.mp hn] at he
    cases he

/-! ## Encoding -/

theorem encodeStream_eq_ok : encodeStream es = .ok t ↔
    (∀ e ∈ es, e.seq ≠ 0 ∧ e.seq ≤ maxJournalEntries) ∧ t = streamText es := by
  have key : ∀ lines, es.mapM encodeEntry = .ok lines ↔
      (∀ e ∈ es, e.seq ≠ 0 ∧ e.seq ≤ maxJournalEntries) ∧ lines = es.map fun e => e.dto.cst.text := by
    induction es with
    | nil =>
      intro lines
      rw [List.mapM_nil]
      refine ⟨fun h => ⟨by simp, (Except.ok.inj h).symm⟩, fun h => congrArg Except.ok h.2.symm⟩
    | cons e es ih =>
      intro lines
      rw [List.mapM_cons, List.forall_mem_cons]
      constructor
      · intro h
        cases he : encodeEntry e with
        | error d => rw [he] at h; cases h
        | ok line =>
          cases hes : es.mapM encodeEntry with
          | error d => rw [he, hes] at h; cases h
          | ok rest =>
            rw [he, hes] at h
            obtain ⟨h₀, hm, rfl⟩ := encodeEntry_eq_ok he
            obtain ⟨hall, rfl⟩ := (ih rest).mp hes
            exact ⟨⟨⟨h₀, hm⟩, hall⟩, (Except.ok.inj h).symm⟩
      · rintro ⟨⟨⟨h₀, hm⟩, hall⟩, rfl⟩
        rw [encodeEntry_ok h₀ hm, (ih _).mpr ⟨hall, rfl⟩]
        rfl
  unfold encodeStream
  constructor
  · intro h
    cases hl : es.mapM encodeEntry with
    | error d => rw [hl] at h; cases h
    | ok lines =>
      rw [hl] at h
      obtain ⟨hall, rfl⟩ := (key lines).mp hl
      exact ⟨hall, (Except.ok.inj h).symm⟩
  · rintro ⟨hall, rfl⟩
    rw [(key _).mpr ⟨hall, rfl⟩]
    rfl

theorem Numbered.range (hn : Numbered es) (hm : es.length ≤ maxJournalEntries) :
    ∀ e ∈ es, e.seq ≠ 0 ∧ e.seq ≤ maxJournalEntries := by
  intro e he
  obtain ⟨i, hi, rfl⟩ := List.getElem_of_mem he
  have := hn i hi
  omega

theorem streamLines_no_newline (es : List JournalEntry) : ∀ line ∈ es.map fun e => e.dto.cst.text, '\n' ∉ line := by
  intro line hl
  obtain ⟨e, -, rfl⟩ := List.mem_map.mp hl
  exact e.printable.no_newline

theorem isAscii_streamText : ∀ es : List JournalEntry, isAscii (streamText es) = true
  | [] => rfl
  | e :: es => by
    rw [streamText_cons, isAscii_append, isAscii_cons, e.ascii, isAscii_streamText es]
    rfl

/-! ## Decoding -/

theorem decodeLines_cons_ok [SerdeJson] {before : List JournalEntry} {line : Text} : decodeLines before (line :: lines) = .ok es ↔
    before.length < maxJournalEntries ∧ ∃ e, decodeLine (before.length + 1) line = .ok e ∧ e.seq = before.length + 1 ∧
      decodeLines (before ++ [e]) lines = .ok es := by
  rw [decodeLines]
  by_cases hm : maxJournalEntries ≤ before.length
  · rw [if_pos hm]
    exact ⟨fun h => (by cases h), fun h => absurd h.1 (Nat.not_lt.mpr hm)⟩
  rw [if_neg hm]
  simp only
  cases hd : decodeLine (before.length + 1) line with
  | error d =>
    refine ⟨fun h => (by cases h), fun h => ?_⟩
    obtain ⟨-, e, he, -⟩ := h
    cases he
  | ok e =>
    simp only
    by_cases hs : e.seq = before.length + 1
    · rw [if_neg (not_not.mpr hs)]
      refine ⟨fun h => ⟨Nat.not_le.mp hm, e, rfl, hs, h⟩, fun h => ?_⟩
      obtain ⟨-, e', he, -, h⟩ := h
      rwa [Except.ok.inj he]
    · rw [if_pos hs]
      refine ⟨fun h => (by cases h), fun h => absurd ?_ hs⟩
      obtain ⟨-, e', he, hs', -⟩ := h
      rwa [Except.ok.inj he]

/-- Lines of entries can only decode to these entries. -/
theorem decodeLines_encoded [SerdeJson] {before : List JournalEntry} (hr : ∀ e ∈ fs, e.seq ≠ 0 ∧ e.seq ≤ maxJournalEntries)
    (h : decodeLines before (fs.map fun e => e.dto.cst.text) = .ok es) : es = before ++ fs := by
  induction fs generalizing before with
  | nil => rw [List.append_nil]; exact (Except.ok.inj h).symm
  | cons e fs ih =>
    rw [List.forall_mem_cons] at hr
    have hd := decodeLine_encodeEntry (before.length + 1) (encodeEntry_ok hr.1.1 hr.1.2)
    obtain ⟨-, e', he, -, h⟩ := decodeLines_cons_ok.mp h
    rw [hd] at he
    rw [← Except.ok.inj he] at h
    have := ih hr.2 h
    rwa [List.append_assoc] at this

theorem decodeLines_numbered [SerdeJson] {before : List JournalEntry} (hn : Numbered (before ++ fs))
    (hm : (before ++ fs).length ≤ maxJournalEntries) :
    decodeLines before (fs.map fun e => e.dto.cst.text) = .ok (before ++ fs) := by
  induction fs generalizing before with
  | nil => rw [List.append_nil]; rfl
  | cons e fs ih =>
    have hr := hn.range hm e (by simp)
    have hd := decodeLine_encodeEntry (before.length + 1) (encodeEntry_ok hr.1 hr.2)
    have hs : e.seq = before.length + 1 := by
      have := hn before.length (by simp)
      simpa using this
    have happ : before ++ e :: fs = (before ++ [e]) ++ fs := by simp
    have hlt : before.length < maxJournalEntries := by
      rw [List.length_append, List.length_cons] at hm
      omega
    rw [happ] at hn hm ⊢
    exact decodeLines_cons_ok.mpr ⟨hlt, e, hd, hs, ih hn hm⟩

theorem decodeLines_length [SerdeJson] {before : List JournalEntry} (h : decodeLines before lines = .ok es) :
    es.length = before.length + lines.length := by
  induction lines generalizing before with
  | nil => rw [← Except.ok.inj h]; rfl
  | cons line lines ih =>
    obtain ⟨-, e, -, -, h⟩ := decodeLines_cons_ok.mp h
    have := ih h
    rw [List.length_append, List.length_singleton] at this
    rw [List.length_cons]
    omega

/-- A line beyond the bound, after lines that are in order. -/
theorem decodeLines_bound [SerdeJson] {before : List JournalEntry} (hb : before.length ≤ maxJournalEntries)
    (hm : maxJournalEntries < before.length + lines.length)
    (h : ∀ (i : Nat) (hi : i < lines.length), before.length + i < maxJournalEntries →
      ∃ e, decodeLine (before.length + i + 1) lines[i] = .ok e ∧ e.seq = before.length + i + 1) :
    decodeLines before lines = .error (.boundExceeded maxJournalEntries) := by
  induction lines generalizing before with
  | nil => exact absurd hm (by simpa using hb)
  | cons line lines ih =>
    by_cases hfull : maxJournalEntries ≤ before.length
    · rw [decodeLines, if_pos hfull]
    obtain ⟨e, he, hs⟩ := h 0 (by simp) (by simpa using hfull)
    have hlen : (before ++ [e]).length = before.length + 1 := by simp
    have hrest : decodeLines (before ++ [e]) lines = .error (.boundExceeded maxJournalEntries) := by
      refine ih (by omega) (by rw [List.length_cons] at hm; omega) fun i hi hlt => ?_
      have := h (i + 1) (by simpa using hi) (by omega)
      rw [hlen, Nat.add_assoc before.length 1 i, Nat.add_comm 1 i]
      exact this
    rw [decodeLines, if_neg hfull]
    simp only [Nat.add_zero, List.getElem_cons_zero] at he hs
    simp only [he]
    rw [if_neg (by omega)]
    exact hrest

/-! ## Cuts -/

theorem endsLine_append {a b : Text} (h : EndsLine (a ++ '\n' :: b)) : EndsLine b := by
  cases b with
  | nil => exact .inl rfl
  | cons c b =>
    rcases h with h | h
    · simp at h
    · rw [List.getLast?_append, List.getLast?_cons_cons] at h
      refine .inr ?_
      cases hb : (c :: b).getLast? with
      | none => simp at hb
      | some d => rw [hb] at h; exact h

/-- A cut at the end of a line leaves the first entries. -/
theorem cut_streamText {p : Text} (hp : p <+: streamText es) (hl : EndsLine p) :
    ∃ k, k ≤ es.length ∧ p = streamText (es.take k) := by
  induction es generalizing p with
  | nil => exact ⟨0, Nat.le_refl _, List.prefix_nil.mp hp⟩
  | cons e es ih =>
    rw [streamText_cons] at hp
    have hnl := e.printable.no_newline
    rcases List.prefix_or_prefix_of_prefix hp (List.prefix_append _ _) with hp | ⟨q, rfl⟩
    · -- the cut is inside the first line, so it is empty
      rcases hl with rfl | hl
      · exact ⟨0, Nat.zero_le _, rfl⟩
      · exact absurd (hp.subset (List.mem_of_getLast? hl)) hnl
    · have hq := (List.prefix_append_right_inj _).mp hp
      cases q with
      | nil =>
        rw [List.append_nil] at hl ⊢
        rcases hl with hl | hl
        · exact ⟨0, Nat.zero_le _, hl⟩
        · exact absurd (List.mem_of_getLast? hl) hnl
      | cons c q =>
        obtain ⟨rfl, hq'⟩ := List.cons_prefix_cons.mp hq
        obtain ⟨k, hk, rfl⟩ := ih hq' (endsLine_append hl)
        exact ⟨k + 1, Nat.succ_le_succ hk, by rw [List.take_succ_cons, streamText_cons]⟩

end

/-! ## The round trip and its refusals -/

/-- What a cut `p` of the stream of `es` reads as. -/
def CutReads [SerdeJson] (es : List JournalEntry) (p : Bytes) : Prop :=
  ∃ t, fromUtf8 p = some t ∧
    ((∃ k, k ≤ es.length ∧ p = utf8 (streamText (es.take k)) ∧ decodeContents t = .ok (es.take k)) ∨
      ((∀ k, p ≠ utf8 (streamText (es.take k))) ∧ ∃ e, decodeContents t = .error e))

theorem Numbered.take {es : List JournalEntry} (hn : Numbered es) (k : Nat) : Numbered (es.take k) := by
  intro i hi
  rw [List.getElem_take]
  exact hn i _

theorem decodeContents_streamText [SerdeJson] {es : List JournalEntry} (hn : Numbered es) (hm : es.length ≤ maxJournalEntries) :
    decodeContents (streamText es) = .ok es := by
  rw [streamText, decodeContents_joinLines (streamLines_no_newline es)]
  exact @decodeLines_numbered es _ [] hn hm

theorem cutReads [SerdeJson] {es : List JournalEntry} (hn : Numbered es) (hm : es.length ≤ maxJournalEntries) {p : Bytes}
    (hp : p <+: utf8 (streamText es)) : CutReads es p := by
  obtain ⟨hcut, -⟩ := prefix_utf8_ascii (isAscii_streamText es) hp
  have htake : (streamText es).take p.length <+: streamText es := List.take_prefix _ _
  generalize (streamText es).take p.length = t at hcut htake
  refine ⟨t, fromUtf8_eq_some.mpr hcut, ?_⟩
  by_cases hl : EndsLine t
  · obtain ⟨k, hk, rfl⟩ := cut_streamText htake hl
    refine .inl ⟨k, hk, hcut, decodeContents_streamText (hn.take k) ?_⟩
    exact Nat.le_trans (List.length_take_le' _ _) hm
  · refine .inr ⟨fun k he => hl ?_, ?_⟩
    · rw [hcut] at he
      rw [utf8_inj he]
      exact endsLine_joinLines _
    · cases hd : decodeContents t with
      | error e => exact ⟨e, rfl⟩
      | ok fs => exact absurd (decodeContents_endsLine hd) hl

/-- Tampering with a stream: entries out of order are refused. -/
theorem decodeContents_unnumbered [SerdeJson] {fs : List JournalEntry} (hr : ∀ e ∈ fs, e.seq ≠ 0 ∧ e.seq ≤ maxJournalEntries)
    (hn : ¬Numbered fs) : ∃ e, decodeContents (streamText fs) = .error e := by
  cases hd : decodeContents (streamText fs) with
  | error e => exact ⟨e, rfl⟩
  | ok es =>
    refine absurd ?_ hn
    have hnum := (decodeContents_entries hd).1
    rw [streamText, decodeContents_joinLines (streamLines_no_newline fs)] at hd
    have := decodeLines_encoded hr hd
    rw [List.nil_append] at this
    rwa [← this]

theorem decodeContents_overlong [SerdeJson] {lines : List Text} (hl : ∀ line ∈ lines, '\n' ∉ line)
    (hm : maxJournalEntries < lines.length) : ∃ e, decodeContents (joinLines lines) = .error e ∧
      ((∀ (i : Nat) (hi : i < lines.length), i < maxJournalEntries →
        ∃ e, decodeLine (i + 1) lines[i] = .ok e ∧ e.seq = i + 1) → e = .boundExceeded maxJournalEntries) := by
  rw [decodeContents_joinLines hl]
  cases hd : decodeLines [] lines with
  | ok es =>
    have hlen := decodeLines_length hd
    have hle := (decodeLines_entries hd (by simp) (by simp)).2
    rw [List.length_nil, Nat.zero_add] at hlen
    omega
  | error e =>
    refine ⟨e, rfl, fun h => ?_⟩
    have hb : decodeLines [] lines = .error (.boundExceeded maxJournalEntries) :=
      decodeLines_bound (Nat.zero_le _) (by simpa using hm) (by simpa using h)
    rw [hd] at hb
    exact Except.error.inj hb

/-- Numbered entries within the bound encode to a stream that reads back as them; its lines hold no line breaks; a cut
reads as the entries before it exactly when it is at the end of a line; any entries out of sequence and any lines beyond
the bound are refused. -/
theorem journal_stream_roundtrip [SerdeJson] (es : List JournalEntry) (hn : Numbered es) (hm : es.length ≤ maxJournalEntries) :
    (∃ t, encodeStream es = .ok t ∧ decodeContents t = .ok es ∧ ∀ p, p <+: utf8 t → CutReads es p) ∧
      (∀ e line, encodeEntry e = .ok line → '\n' ∉ line ∧ '\r' ∉ line) ∧
      (∀ fs t, encodeStream fs = .ok t → ¬Numbered fs → ∃ e, decodeContents t = .error e) ∧
      ∀ lines : List Text, (∀ line ∈ lines, '\n' ∉ line) → maxJournalEntries < lines.length →
        ∃ e, decodeContents (joinLines lines) = .error e ∧
          ((∀ (i : Nat) (hi : i < lines.length), i < maxJournalEntries →
            ∃ e, decodeLine (i + 1) lines[i] = .ok e ∧ e.seq = i + 1) → e = .boundExceeded maxJournalEntries) := by
  refine ⟨⟨streamText es, encodeStream_eq_ok.mpr ⟨hn.range hm, rfl⟩, decodeContents_streamText hn hm,
    fun p hp => cutReads hn hm hp⟩, ?_, ?_, fun lines hl hm => decodeContents_overlong hl hm⟩
  · intro e line h
    obtain ⟨-, -, rfl⟩ := encodeEntry_eq_ok h
    exact ⟨e.printable.no_newline, e.printable.no_return⟩
  · intro fs t h hfs
    obtain ⟨hr, rfl⟩ := encodeStream_eq_ok.mp h
    exact decodeContents_unnumbered hr hfs

def sampleId {max : Nat} (t : Text) (h : validateIdentifier t max = .ok ()) : Identifier max := ⟨t, h⟩

def sampleDigest : Digest := ⟨.sha256, List.replicate 64 '0', by decide⟩

def sampleSignal (eventId : EventId) : WorkflowSignal where
  parts := {
    eventId := eventId
    workflowId := sampleId ['w'] rfl
    assignmentId := sampleId ['a'] rfl
    attemptId := sampleId ['t'] rfl
    role := .implementation
    artifactRevision := sampleId ['r'] rfl
    candidateDigest := sampleDigest
    kind := .implementationReady
    findingCount := none
    artifactRef := none
    shortErrorCode := none }
  ok := rfl

def sampleEvent : WorkflowEvent := .signalAccepted (sampleSignal (sampleId ['e'] rfl))

def sampleTime : BoundedTimestamp := ⟨1577836800, by decide, by decide⟩

def sampleEntry : JournalEntry := ⟨1, sampleTime, sampleEvent⟩

def repeatedEntry : JournalEntry := ⟨2, sampleTime, .signalAccepted (sampleSignal (sampleId ['f'] rfl))⟩

def sampleSubmission : WorkflowSignal :=
  match sampleEvent with
  | .signalAccepted signal => signal

def sampleExpected : ExpectedAssignment := ⟨sampleSubmission.parts.workflowId, sampleSubmission.parts.assignmentId,
  sampleSubmission.parts.attemptId, sampleSubmission.parts.role, sampleSubmission.parts.artifactRevision,
  sampleSubmission.parts.candidateDigest⟩

def sampleCommand : Command := .submitSignal sampleSubmission sampleExpected

def otherCommand : Command := .submitSignal (sampleSignal (sampleId ['f'] rfl)) sampleExpected

open Sample in
/-- Two entries, and a cut one byte into the second line. -/
theorem two_entries_roundtrip :
    (∃ t, encodeStream [sampleEntry, repeatedEntry] = .ok t ∧ decodeContents t = .ok [sampleEntry, repeatedEntry] ∧
      ∀ p, p <+: utf8 t → CutReads [sampleEntry, repeatedEntry] p) ∧
    ∃ p : Text, streamText [sampleEntry] <+: p ∧ streamText [sampleEntry] ≠ p ∧
      p <+: streamText [sampleEntry, repeatedEntry] ∧ ∃ e, decodeContents p = .error e := by
  have hn : Numbered [sampleEntry, repeatedEntry] := by
    intro i hi
    match i, hi with
    | 0, _ => rfl
    | 1, _ => rfl
  obtain ⟨⟨t, ht, hd, hcut⟩, -⟩ := journal_stream_roundtrip [sampleEntry, repeatedEntry] hn (by decide)
  obtain ⟨-, rfl⟩ := encodeStream_eq_ok.mp ht
  obtain ⟨rest, hrest⟩ : ∃ rest, repeatedEntry.dto.cst.text = '{' :: rest := jsonStruct_head _ _
  have hp : streamText [sampleEntry] ++ ['{'] <+: streamText [sampleEntry, repeatedEntry] := by
    refine ⟨rest ++ '\n' :: streamText [], ?_⟩
    simp only [streamText_cons, hrest, List.append_assoc, List.cons_append, List.nil_append]
    rfl
  refine ⟨⟨_, ht, hd, hcut⟩, streamText [sampleEntry] ++ ['{'], List.prefix_append _ _, by simp, hp, ?_⟩
  obtain ⟨t, hread, h⟩ := hcut (utf8 (streamText [sampleEntry] ++ ['{'])) (utf8_isPrefix hp)
  obtain rfl := utf8_inj (fromUtf8_eq_some.mp hread)
  rcases h with ⟨k, -, hk, -⟩ | ⟨-, he⟩
  · -- no cut at the end of a line ends with a brace
    have hend : EndsLine (streamText ([sampleEntry, repeatedEntry].take k)) := endsLine_joinLines _
    rw [← utf8_inj hk] at hend
    rcases hend with h | h
    · simp at h
    · simp at h
  · exact he

end Aizign
