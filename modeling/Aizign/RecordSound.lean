import Aizign.CommitSound
import Aizign.Record

/-!
# Journal records: round trip and journals that grow by a line

`decodeLine_encodeEntry` is the round trip of one record, `decodeContents_snoc`
what one more line does to a journal, and `length_line` the bound on a line that
keeps a full journal below its byte limit.
-/

namespace Aizign

/-! ## Enums and options -/

theorem deRole_wire (r : Role) : deRole (jsonString r.wire) = .ok r := by
  cases r <;> simp [deRole, deEnum, deVariant, jsonString, strValue_jsonBody] <;> rfl

theorem deKind_wire (k : SignalKind) : deKind (jsonString k.wire) = .ok k := by
  cases k <;> simp [deKind, deEnum, deVariant, jsonString, strValue_jsonBody] <;> rfl

theorem deAlgorithm_wire (a : DigestAlgorithm) : deAlgorithm (jsonString a.wire) = .ok a := by
  cases a; simp [deAlgorithm, deEnum, deVariant, jsonString, strValue_jsonBody]; rfl

theorem deU32_jsonNat (n : UInt32) : deU32 (jsonNat n.toNat) = .ok n := by
  have : n.toNat ≤ u32Max := by have := n.toNat_lt; simp only [u32Max]; omega
  rw [deU32, deUnsigned_jsonNat this]
  simp [Except.map]

theorem rejectNull_u32 [SerdeJson] (depth : Nat) (n : UInt32) : rejectNull depth deU32 (jsonNat n.toNat) = .ok (some n) := by
  have : n.toNat ≤ u32Max := by have := n.toNat_lt; simp only [u32Max]; omega
  have hv : deValue depth (jsonNat n.toNat) = .ok () := by
    simp [jsonNat, deValue, SerdeJson.outOfRange_decimal n.toNat (Nat.le_trans this (by decide))]
  simp only [rejectNull, hv, bind, Except.bind]
  show (deU32 (jsonNat n.toNat)).map some = _
  rw [deU32_jsonNat]; rfl

theorem rejectNull_string [SerdeJson] (depth : Nat) (t : Text) : rejectNull depth deString (jsonString t) = .ok (some t) := by
  have hv : deValue depth (jsonString t) = .ok () := by
    simp [jsonString, deValue, strValue_jsonBody]
  simp only [rejectNull, hv, bind, Except.bind]
  show (deString (jsonString t)).map some = _
  rw [deString_jsonString]; rfl

theorem optional_map {α : Type} {d : De (Option α)} {f : α → Cst} (h : ∀ a, d (f a) = .ok (some a)) (o : Option α) :
    optional d (o.map f) = .ok o := by
  cases o with
  | none => rfl
  | some a => exact h a

/-! ## Documents -/

theorem digestFields_nodup : (fieldNames digestFields).Nodup := by decide
theorem signalFields_nodup : (fieldNames signalFields).Nodup := by decide
theorem recordFields_nodup : (fieldNames recordFields).Nodup := by decide

theorem DigestDto.de_cst (d : DigestDto) : DigestDto.de d.cst = .ok d := by
  rw [DigestDto.de, DigestDto.cst, deStruct_jsonStruct true digestFields_nodup rfl (by simp [digestFields])]
  simp [bind, Except.bind, deAlgorithm_wire, deString_jsonString, pure, Except.pure]

theorem SignalDto.de_cst [SerdeJson] (d : SignalDto) : SignalDto.de d.cst = .ok d := by
  rw [SignalDto.de, SignalDto.cst, deStruct_jsonStruct true signalFields_nodup rfl (by simp [signalFields])]
  simp [bind, Except.bind, deRole_wire, deKind_wire, deString_jsonString, DigestDto.de_cst, pure, Except.pure,
    optional_map (rejectNull_u32 signalDepth), optional_map (rejectNull_string signalDepth)]

theorem RecordDto.de_cst [SerdeJson] {d : RecordDto} (hv : d.schemaVersion ≤ u64Max) (hs : d.seq ≤ u64Max) (ha : d.at ≤ u64Max) :
    RecordDto.de d.cst = .ok d := by
  rw [RecordDto.de, RecordDto.cst, deStruct_jsonStruct true recordFields_nodup rfl (by simp [recordFields])]
  simp [bind, Except.bind, deU64, deUnsigned_jsonNat, deString_jsonString, SignalDto.de_cst, pure, Except.pure, *]

theorem DigestDto.noDup [SerdeJson] (d : DigestDto) : d.cst.NoDup := by
  apply noDup_jsonStruct digestFields_nodup
  intro v hv
  simp only [List.mem_cons, Option.some.injEq, List.not_mem_nil, or_false] at hv
  rcases hv with rfl | rfl <;> exact noDup_str _

theorem SignalDto.values (d : SignalDto) {v : Cst} (hv : some v ∈ [some (jsonString d.eventId),
    some (jsonString d.workflowId), some (jsonString d.assignmentId), some (jsonString d.attemptId),
    some (jsonString d.role.wire), some (jsonString d.artifactRevision), some d.candidateDigest.cst,
    some (jsonString d.kind.wire), d.findingCount.map fun n => jsonNat n.toNat, d.artifactRef.map jsonString,
    d.shortErrorCode.map jsonString]) :
    (∃ t, v = jsonString t) ∨ (∃ n, v = jsonNat n) ∨ v = d.candidateDigest.cst := by
  simp only [List.mem_cons, Option.some.injEq, List.not_mem_nil, or_false, eq_comm (a := some v),
    Option.map_eq_some_iff] at hv
  rcases hv with rfl | rfl | rfl | rfl | rfl | rfl | rfl | rfl | ⟨n, -, rfl⟩ | ⟨t, -, rfl⟩ | ⟨t, -, rfl⟩
  all_goals first
    | exact Or.inl ⟨_, rfl⟩
    | exact Or.inr (Or.inl ⟨_, rfl⟩)
    | exact Or.inr (Or.inr rfl)

theorem SignalDto.noDup [SerdeJson] (d : SignalDto) : d.cst.NoDup := by
  apply noDup_jsonStruct signalFields_nodup
  intro v hv
  rcases d.values hv with ⟨t, rfl⟩ | ⟨n, rfl⟩ | rfl
  · exact noDup_str _
  · exact noDup_jsonNat n
  · exact d.candidateDigest.noDup

theorem RecordDto.values (d : RecordDto) {v : Cst} (hv : some v ∈ [some (jsonNat d.schemaVersion),
    some (jsonNat d.seq), some (jsonNat d.at), some (jsonString d.kind), some d.signal.cst]) :
    (∃ t, v = jsonString t) ∨ (∃ n, v = jsonNat n) ∨ v = d.signal.cst := by
  simp only [List.mem_cons, Option.some.injEq, List.not_mem_nil, or_false] at hv
  rcases hv with rfl | rfl | rfl | rfl | rfl
  all_goals first
    | exact Or.inl ⟨_, rfl⟩
    | exact Or.inr (Or.inl ⟨_, rfl⟩)
    | exact Or.inr (Or.inr rfl)

theorem RecordDto.noDup [SerdeJson] (d : RecordDto) : d.cst.NoDup := by
  apply noDup_jsonStruct recordFields_nodup
  intro v hv
  rcases d.values hv with ⟨t, rfl⟩ | ⟨n, rfl⟩ | rfl
  · exact noDup_str _
  · exact noDup_jsonNat n
  · exact d.signal.noDup

/-! ## One record -/

theorem lineOption_map {α : Type} {n : Nat} {name : Text} {new : Text → Except IdentityError α} {f : α → Text}
    (h : ∀ a, new (f a) = .ok a) (o : Option α) : lineOption n name new (o.map f) = .ok o := by
  cases o with
  | none => rfl
  | some a => simp [lineOption, h, lineField, Except.map]

theorem SignalParts.parts_dto (n : Nat) (p : SignalParts) : p.dto.parts n = .ok p := by
  have hid : ∀ {max : Nat} (x : Identifier max), Identifier.new max x.value = .ok x :=
    fun _ => Identifier.new_eq_ok.mpr rfl
  have hs : ∀ x : ShortErrorCode, ShortErrorCode.new x.value = .ok x := fun _ => ShortErrorCode.new_eq_ok.mpr rfl
  have hd : Digest.new p.candidateDigest.algorithm p.candidateDigest.hex = .ok p.candidateDigest :=
    Digest.new_eq_ok.mpr ⟨rfl, rfl⟩
  simp [SignalDto.parts, SignalParts.dto, EventId.new, WorkflowId.new, AssignmentId.new, AttemptId.new,
    ArtifactRevision.new, ArtifactRef.new, hid, hd, lineField, lineOption_map hid, lineOption_map hs, bind,
    Except.bind, pure, Except.pure]

theorem JournalEntry.entry_dto {e : JournalEntry} (n : Nat) (h₀ : e.seq ≠ 0) (h : e.seq ≤ maxJournalEntries) :
    e.dto.entry n = .ok e := by
  have ht : BoundedTimestamp.fromUnixSeconds e.at.unixSeconds = .ok e.at :=
    BoundedTimestamp.fromUnixSeconds_eq_ok.mpr rfl
  have hv : WorkflowSignal.validate e.event.signal.parts = .ok e.event.signal :=
    WorkflowSignal.validate_eq_ok.mpr rfl
  unfold RecordDto.entry JournalEntry.dto
  simp only [ne_eq, not_true_eq_false, ite_false, ht]
  rw [if_neg (by omega)]
  simp only [SignalParts.parts_dto, bind, Except.bind, hv]
  rfl

theorem encodeEntry_eq_ok {e : JournalEntry} {line : Text} (h : encodeEntry e = .ok line) :
    e.seq ≠ 0 ∧ e.seq ≤ maxJournalEntries ∧ line = e.dto.cst.text := by
  unfold encodeEntry at h
  split at h
  · cases h
  · simp only [Except.ok.injEq] at h
    exact ⟨by omega, by omega, h.symm⟩

theorem encodeEntry_ok {e : JournalEntry} (h₀ : e.seq ≠ 0) (h : e.seq ≤ maxJournalEntries) :
    encodeEntry e = .ok e.dto.cst.text := by
  rw [encodeEntry, if_neg (by omega)]

/-- A record with any whitespace around it reads as its entry. -/
theorem decodeLine_doc [SerdeJson] {e : JournalEntry} (n : Nat) (h₀ : e.seq ≠ 0) (hm : e.seq ≤ maxJournalEntries) {d : Doc}
    (hd : d.value = e.dto.cst) : decodeLine n d.text = .ok e := by
  have hv : journalSchemaVersion ≤ u64Max := by decide
  have hs : e.seq ≤ u64Max := Nat.le_trans hm (by decide)
  have ha : e.at.unixSeconds ≤ u64Max := Nat.le_trans e.at.max (by decide)
  have hp : versionProbe schemaVersionField e.dto.cst = .ok (some journalSchemaVersion) :=
    versionProbe_jsonStruct recordFields_nodup hv rfl rfl
  have hdup : hasDuplicateMembers d.text = false := by
    rw [hasDuplicateMembers_doc, hd]
    exact decide_eq_false (e.dto.noDup _)
  have hstr : fromStr d.text = .ok e.dto.cst := by rw [fromStr, parse_text, ← hd]
  unfold decodeLine
  rw [hdup, hstr]
  simp only [bind, Except.bind, hp]
  simp [RecordDto.de_cst (d := e.dto) hv hs ha, JournalEntry.entry_dto n h₀ hm]

theorem decodeLine_encodeEntry [SerdeJson] {e : JournalEntry} {line : Text} (n : Nat) (h : encodeEntry e = .ok line) :
    decodeLine n line = .ok e := by
  obtain ⟨h₀, hm, rfl⟩ := encodeEntry_eq_ok h
  have hd := decodeLine_doc n h₀ hm (d := e.dto.cst.doc) rfl
  rwa [Cst.doc_text] at hd

/-! ## The line as bytes -/

theorem isAscii_plainString {t : Text} (h : t.all isPlain = true) : isAscii (jsonString t).text = true :=
  strText_ascii (isAscii_of_plain h)

theorem Digest.ascii (d : Digest) : isAscii (DigestDto.cst ⟨d.algorithm, d.hex⟩).text = true := by
  apply jsonStruct_ascii (by decide)
  intro v hv
  simp only [List.mem_cons, Option.some.injEq, List.not_mem_nil, or_false] at hv
  rcases hv with rfl | rfl
  · exact strText_ascii (by cases d.algorithm; rfl)
  · exact isAscii_plainString d.plain

theorem SignalParts.ascii_values (p : SignalParts) {v : Cst} (hv : some v ∈ [some (jsonString p.dto.eventId),
    some (jsonString p.dto.workflowId), some (jsonString p.dto.assignmentId), some (jsonString p.dto.attemptId),
    some (jsonString p.dto.role.wire), some (jsonString p.dto.artifactRevision), some p.dto.candidateDigest.cst,
    some (jsonString p.dto.kind.wire), p.dto.findingCount.map fun n => jsonNat n.toNat, p.dto.artifactRef.map jsonString,
    p.dto.shortErrorCode.map jsonString]) : isAscii v.text = true := by
  have hid : ∀ {max : Nat} (x : Identifier max), isAscii (jsonString x.value).text = true :=
    fun x => isAscii_plainString x.plain
  simp only [SignalParts.dto, List.mem_cons, Option.some.injEq, List.not_mem_nil, or_false, eq_comm (a := some v),
    Option.map_eq_some_iff] at hv
  rcases hv with rfl | rfl | rfl | rfl | rfl | rfl | rfl | rfl | ⟨n, -, rfl⟩ | ⟨t, ⟨x, -, rfl⟩, rfl⟩ | ⟨t, ⟨x, -, rfl⟩, rfl⟩
  · exact hid _
  · exact hid _
  · exact hid _
  · exact hid _
  · exact strText_ascii (by cases p.role <;> rfl)
  · exact hid _
  · exact p.candidateDigest.ascii
  · exact strText_ascii (by cases p.kind <;> rfl)
  · exact jsonNat_ascii _
  · exact hid _
  · exact isAscii_plainString x.plain

theorem SignalParts.ascii (p : SignalParts) : isAscii p.dto.cst.text = true :=
  jsonStruct_ascii (by decide) fun _ => p.ascii_values

theorem JournalEntry.ascii (e : JournalEntry) : isAscii e.dto.cst.text = true := by
  apply jsonStruct_ascii (by decide)
  intro v hv
  simp only [JournalEntry.dto, List.mem_cons, Option.some.injEq, List.not_mem_nil, or_false] at hv
  rcases hv with rfl | rfl | rfl | rfl | rfl
  · exact jsonNat_ascii _
  · exact jsonNat_ascii _
  · exact jsonNat_ascii _
  · exact strText_ascii (by decide)
  · exact SignalParts.ascii _

theorem JournalEntry.printable (e : JournalEntry) : Printable e.dto.cst.text := by
  have hd : ∀ d : DigestDto, Printable d.cst.text := by
    intro d
    apply jsonStruct_printable
    intro v hv
    simp only [List.mem_cons, Option.some.injEq, List.not_mem_nil, or_false] at hv
    rcases hv with rfl | rfl <;> exact strText_printable _
  apply jsonStruct_printable
  intro v hv
  rcases e.dto.values hv with ⟨t, rfl⟩ | ⟨n, rfl⟩ | rfl
  · exact strText_printable _
  · exact jsonNat_printable n
  · apply jsonStruct_printable
    intro v hv
    rcases e.dto.signal.values hv with ⟨t, rfl⟩ | ⟨n, rfl⟩ | rfl
    · exact strText_printable _
    · exact jsonNat_printable n
    · exact hd _

/-! ## The length of a line -/

theorem length_plainString {t : Text} (h : t.all isPlain = true) : (jsonString t).text.length = t.length + 2 := by
  rw [jsonString, Cst.text, strText_plain (isRaw_of_plain h)]; simp

theorem length_option {α : Type} {f : α → Cst} {n : Nat} (h : ∀ a, (f a).text.length ≤ n) (o : Option α) :
    ((o.map f).elim 0 fun v => v.text.length) ≤ n := by
  cases o with
  | none => exact Nat.zero_le _
  | some a => exact h a

theorem length_digest (d : Digest) :
    (DigestDto.cst ⟨d.algorithm, d.hex⟩).text.length ≤ 110 := by
  refine Nat.le_trans (length_jsonStruct _ _) ?_
  have ha : (jsonString d.algorithm.wire).text.length = 8 := by cases d.algorithm; rfl
  have hh : (jsonString d.hex).text.length = 66 := by rw [length_plainString d.plain, d.length_hex]
  have hn : ∀ f ∈ digestFields, (strText (jsonBody f.name)).length ≤ 11 := by decide
  simp only [digestFields, List.forall_mem_cons, List.not_mem_nil] at hn
  obtain ⟨h₁, h₂, -⟩ := hn
  simp only [digestFields, List.zip_cons_cons, List.zip_nil_right, List.map_cons, List.map_nil, List.sum_cons,
    List.sum_nil, Option.elim_some]
  omega

def signalLengthMax : Nat := 1500

theorem SignalParts.length_cst (p : SignalParts) : p.dto.cst.text.length ≤ signalLengthMax := by
  have hid : ∀ {max : Nat} (x : Identifier max), (jsonString x.value).text.length ≤ max + 2 := by
    intro max x
    rw [length_plainString x.plain]
    exact Nat.add_le_add_right x.length_le 2
  have he : ∀ x : ShortErrorCode, (jsonString x.value).text.length ≤ shortErrorCodeMaxLen + 2 := by
    intro x
    rw [length_plainString x.plain]
    exact Nat.add_le_add_right x.length_le 2
  have hc : ∀ n : UInt32, (jsonNat n.toNat).text.length ≤ 10 := by
    intro n
    exact length_jsonNat (by decide) (Nat.lt_trans n.toNat_lt (by decide))
  have h₁ := hid p.eventId
  have h₂ := hid p.workflowId
  have h₃ := hid p.assignmentId
  have h₄ := hid p.attemptId
  have h₅ : (jsonString p.role.wire).text.length ≤ 16 := by cases p.role <;> decide
  have h₆ := hid p.artifactRevision
  have h₇ := length_digest p.candidateDigest
  have h₈ : (jsonString p.kind.wire).text.length ≤ 22 := by cases p.kind <;> decide
  have h₉ := length_option hc p.findingCount
  have h₁₀ : (((p.artifactRef.map Identifier.value).map jsonString).elim 0 fun v => v.text.length) ≤
      artifactRefMaxLen + 2 := by
    rw [Option.map_map]
    exact length_option hid p.artifactRef
  have h₁₁ : (((p.shortErrorCode.map ShortErrorCode.value).map jsonString).elim 0 fun v => v.text.length) ≤
      shortErrorCodeMaxLen + 2 := by
    rw [Option.map_map]
    exact length_option he p.shortErrorCode
  have hn : ∀ f ∈ signalFields, (strText (jsonBody f.name)).length ≤ 18 := by decide
  simp only [signalFields, List.forall_mem_cons, List.not_mem_nil] at hn
  obtain ⟨n₁, n₂, n₃, n₄, n₅, n₆, n₇, n₈, n₉, n₁₀, n₁₁, -⟩ := hn
  refine Nat.le_trans (length_jsonStruct _ _) ?_
  simp only [SignalParts.dto, signalFields, List.zip_cons_cons, List.zip_nil_right, List.map_cons, List.map_nil,
    List.sum_cons, List.sum_nil, Option.elim_some]
  have b₁ : identifierMaxLen = 128 := rfl
  have b₂ : artifactRefMaxLen = 256 := rfl
  have b₃ : shortErrorCodeMaxLen = 64 := rfl
  have b₄ : signalLengthMax = 1500 := rfl
  omega

def lineLengthMax : Nat := 1700

theorem JournalEntry.length_line (e : JournalEntry) (h : e.seq ≤ maxJournalEntries) :
    (utf8 (e.dto.cst.text ++ ['\n'])).length ≤ lineLengthMax := by
  have ha : isAscii (e.dto.cst.text ++ ['\n']) = true := by rw [isAscii_append, e.ascii]; rfl
  rw [length_utf8_ascii ha, List.length_append, List.length_singleton]
  have hv := length_jsonNat_u64 (show journalSchemaVersion ≤ u64Max by decide)
  have hs := length_jsonNat_u64 (Nat.le_trans h (show maxJournalEntries ≤ u64Max by decide))
  have ht := length_jsonNat_u64 (Nat.le_trans e.at.max (show maxUnixSeconds ≤ u64Max by decide))
  have hk : (jsonString kindSignalAccepted).text.length = 26 := by decide
  have hg := e.event.signal.parts.length_cst
  have hn : ∀ f ∈ recordFields, (strText (jsonBody f.name)).length ≤ 15 := by decide
  simp only [recordFields, List.forall_mem_cons, List.not_mem_nil] at hn
  obtain ⟨h₁, h₂, h₃, h₄, h₅, -⟩ := hn
  have hl := length_jsonStruct recordFields [some (jsonNat journalSchemaVersion), some (jsonNat e.seq),
    some (jsonNat e.at.unixSeconds), some (jsonString kindSignalAccepted), some e.event.signal.parts.dto.cst]
  simp only [recordFields, List.zip_cons_cons, List.zip_nil_right, List.map_cons, List.map_nil, List.sum_cons,
    List.sum_nil, Option.elim_some] at hl
  have hd : e.dto.cst.text.length ≤ 1699 := by
    refine Nat.le_trans hl ?_
    simp only [signalLengthMax] at hg
    omega
  simp only [lineLengthMax]
  omega

/-! ## A journal grows by a line -/

theorem splitLines_line {line : Text} (h : '\n' ∉ line) (r : Text) :
    splitLines (line ++ '\n' :: r) = line :: splitLines r := by
  induction line with
  | nil => simp [splitLines]
  | cons c line ih =>
    rw [List.mem_cons, not_or] at h
    rw [List.cons_append, splitLines, if_neg (Ne.symm h.1), ih h.2]

def EndsLine (t : Text) : Prop := t = [] ∨ t.getLast? = some '\n'

theorem splitLines_ne_nil {t : Text} (h : t ≠ []) : splitLines t ≠ [] := by
  cases t with
  | nil => exact absurd rfl h
  | cons c t =>
    rw [splitLines]
    split
    · simp
    · split <;> simp

theorem splitLines_append {a : Text} (b : Text) (h : EndsLine a) : splitLines (a ++ b) = splitLines a ++ splitLines b := by
  induction a with
  | nil => rfl
  | cons c a ih =>
    rw [List.cons_append, splitLines, splitLines]
    rcases h with h | h
    · cases h
    · by_cases hc : c = '\n'
      · have ha : EndsLine a := by
          cases a with
          | nil => exact Or.inl rfl
          | cons d a => exact Or.inr (by simpa [List.getLast?_cons_cons] using h)
        rw [if_pos hc, if_pos hc, ih ha]; rfl
      · cases a with
        | nil => simp at h; exact absurd h hc
        | cons d a =>
          have ha : EndsLine (d :: a) := Or.inr (by simpa [List.getLast?_cons_cons] using h)
          rw [if_neg hc, if_neg hc, ih ha]
          have hne := splitLines_ne_nil (t := d :: a) (by simp)
          cases hs : splitLines (d :: a) with
          | nil => exact absurd hs hne
          | cons l ls => rfl

theorem decodeLines_snoc [SerdeJson] {before es : List JournalEntry} {ls : List Text} {line : Text} {e : JournalEntry}
    (h : decodeLines before ls = .ok es) (hm : es.length < maxJournalEntries)
    (hl : decodeLine (es.length + 1) line = .ok e) (hs : e.seq = es.length + 1) :
    decodeLines before (ls ++ [line]) = .ok (es ++ [e]) := by
  induction ls generalizing before with
  | nil =>
    simp only [decodeLines, Except.ok.injEq] at h
    subst h
    rw [List.nil_append, decodeLines, if_neg (by omega)]
    simp only [hl, hs, ne_eq, not_true_eq_false, ite_false, decodeLines]
  | cons l ls ih =>
    rw [decodeLines] at h
    split at h
    · cases h
    · rename_i hb
      simp only at h
      cases hd : decodeLine (before.length + 1) l with
      | error x => rw [hd] at h; cases h
      | ok x =>
        rw [hd] at h
        simp only at h
        split at h
        · cases h
        · rename_i hx
          rw [List.cons_append, decodeLines, if_neg hb]
          simp only [hd, hx, ite_false]
          exact ih h

theorem decodeContents_endsLine [SerdeJson] {t : Text} {es : List JournalEntry} (h : decodeContents t = .ok es) : EndsLine t := by
  unfold decodeContents at h
  split at h
  · rename_i h'; exact Or.inl (List.isEmpty_iff.mp h')
  · split at h
    · cases h
    · rename_i h'; exact Or.inr (not_not.mp h')

theorem decodeContents_lines [SerdeJson] {t : Text} {es : List JournalEntry} (h : decodeContents t = .ok es) :
    decodeLines [] (splitLines t) = .ok es := by
  unfold decodeContents at h
  split at h
  · rename_i h'
    rw [List.isEmpty_iff.mp h']; exact h
  · split at h
    · cases h
    · exact h

/-- One more encoded entry on a journal that decodes. -/
theorem decodeContents_snoc [SerdeJson] {t line : Text} {es : List JournalEntry} {e : JournalEntry} (h : decodeContents t = .ok es)
    (hm : es.length < maxJournalEntries) (hs : e.seq = es.length + 1) (hl : encodeEntry e = .ok line) :
    decodeContents (t ++ (line ++ ['\n'])) = .ok (es ++ [e]) := by
  have hnl : '\n' ∉ line := by
    obtain ⟨-, -, rfl⟩ := encodeEntry_eq_ok hl
    exact e.printable.no_newline
  have hd := decodeLines_snoc (decodeContents_lines h) hm (decodeLine_encodeEntry _ hl) hs
  have hsp : splitLines (t ++ (line ++ ['\n'])) = splitLines t ++ [line] := by
    rw [splitLines_append _ (decodeContents_endsLine h), splitLines_line hnl]; rfl
  rw [decodeContents, if_neg (by simp), if_neg (by simp [List.getLast?_append]), hsp, hd]

theorem decodeLines_entries [SerdeJson] {before es : List JournalEntry} {ls : List Text} (h : decodeLines before ls = .ok es)
    (hb : ∀ (i : Nat) (hi : i < before.length), before[i].seq = i + 1) (hm : before.length ≤ maxJournalEntries) :
    (∀ (i : Nat) (hi : i < es.length), es[i].seq = i + 1) ∧ es.length ≤ maxJournalEntries := by
  induction ls generalizing before with
  | nil =>
    simp only [decodeLines, Except.ok.injEq] at h
    subst h; exact ⟨hb, hm⟩
  | cons l ls ih =>
    rw [decodeLines] at h
    split at h
    · cases h
    · simp only at h
      split at h
      · cases h
      · rename_i x _
        split at h
        · cases h
        · rename_i hx
          refine ih h ?_ (by rw [List.length_append, List.length_singleton]; omega)
          intro i hi
          by_cases hlt : i < before.length
          · rw [List.getElem_append_left hlt]; exact hb i hlt
          · have hi' : i = before.length := by
              rw [List.length_append, List.length_singleton] at hi; omega
            subst hi'
            simpa using hx

/-- A journal that decodes has at most the bounded number of entries, numbered from one. -/
theorem decodeContents_entries [SerdeJson] {t : Text} {es : List JournalEntry} (h : decodeContents t = .ok es) :
    (∀ (i : Nat) (hi : i < es.length), es[i].seq = i + 1) ∧ es.length ≤ maxJournalEntries :=
  decodeLines_entries (decodeContents_lines h) (by simp) (by simp)

theorem decodeContents_line [SerdeJson] {line : Text} {e : JournalEntry} (hn : '\n' ∉ line) (hd : decodeLine 1 line = .ok e)
    (hs : e.seq = 1) : decodeContents (line ++ ['\n']) = .ok [e] := by
  rw [decodeContents, if_neg (by simp), if_neg (by simp), splitLines_line hn]
  simp [splitLines, decodeLines, hd, hs, maxJournalEntries]

end Aizign
