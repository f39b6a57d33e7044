import Aizign.Framing
import Mathlib.Data.List.TakeWhile

/-!
# Soundness of process framing

A stream is judged by what stands before its first line feed and by what
follows. Both ends carry enough across a cut to judge it the same way, so how
it was cut into chunks does not matter.
-/

namespace Aizign

/-! ## The stream -/

def bodyOf (s : Bytes) : Bytes := s.takeWhile (· != lineFeed)

/-- The first line feed and what follows it; nothing when there is none. -/
def tailOf (s : Bytes) : Bytes := s.dropWhile (· != lineFeed)

theorem bodyOf_append_tailOf (s : Bytes) : bodyOf s ++ tailOf s = s := List.takeWhile_append_dropWhile

theorem notMem_bodyOf (s : Bytes) : lineFeed ∉ bodyOf s := by
  intro h
  have := List.mem_takeWhile_imp h
  simp at this

theorem tailOf_cases (s : Bytes) : (tailOf s = [] ∧ bodyOf s = s) ∨ ∃ r, tailOf s = lineFeed :: r := by
  cases h : tailOf s with
  | nil =>
    have hs := bodyOf_append_tailOf s
    rw [h, List.append_nil] at hs
    exact .inl ⟨rfl, hs⟩
  | cons b r =>
    have hb := List.head_dropWhile_not (· != lineFeed) (l := s) (by unfold tailOf at h; simp [h])
    have hb' : b = lineFeed := by
      unfold tailOf at h
      simpa [h] using hb
    exact .inr ⟨r, by rw [hb']⟩

theorem bodyOf_append {a : Bytes} (h : lineFeed ∉ a) (b : Bytes) : bodyOf (a ++ b) = a ++ bodyOf b := by
  refine List.takeWhile_append_of_pos fun x hx => ?_
  rw [bne_iff_ne]
  rintro rfl
  exact h hx

theorem tailOf_append {a : Bytes} (h : lineFeed ∉ a) (b : Bytes) : tailOf (a ++ b) = tailOf b := by
  refine List.dropWhile_append_of_pos fun x hx => ?_
  rw [bne_iff_ne]
  rintro rfl
  exact h hx

theorem bodyOf_lineFeed (r : Bytes) : bodyOf (lineFeed :: r) = [] := by simp [bodyOf]

theorem tailOf_lineFeed (r : Bytes) : tailOf (lineFeed :: r) = lineFeed :: r := by simp [tailOf]

/-- A stream with a line feed keeps its body when more comes. -/
theorem bodyOf_append_of_tailOf {a r : Bytes} (h : tailOf a = lineFeed :: r) (b : Bytes) :
    bodyOf (a ++ b) = bodyOf a ∧ tailOf (a ++ b) = lineFeed :: (r ++ b) := by
  have ha : a ++ b = bodyOf a ++ (lineFeed :: (r ++ b)) := by
    rw [← List.cons_append, ← h, ← List.append_assoc, bodyOf_append_tailOf]
  constructor
  · rw [ha, bodyOf_append (notMem_bodyOf a), bodyOf_lineFeed, List.append_nil]
  · rw [ha, tailOf_append (notMem_bodyOf a), tailOf_lineFeed]

theorem indexOfByte_lineFeed (s : Bytes) :
    indexOfByte lineFeed s = if tailOf s = [] then none else some (bodyOf s).length := by
  induction s with
  | nil => rfl
  | cons b s ih =>
    unfold indexOfByte at ih ⊢
    rw [List.findIdx?_cons]
    by_cases hb : b = lineFeed
    · rw [hb, tailOf_lineFeed, bodyOf_lineFeed]
      simp
    · have hb' : (b != lineFeed) = true := bne_iff_ne.mpr hb
      have hbody : bodyOf (b :: s) = b :: bodyOf s := List.takeWhile_cons_of_pos hb'
      have htail : tailOf (b :: s) = tailOf s := List.dropWhile_cons_of_pos hb'
      rw [if_neg (by simpa using hb), ih, hbody, htail]
      split <;> simp

/-- The two parts of a stream that `indexOf` cuts it into. -/
theorem cut_at_lineFeed {s r : Bytes} (h : tailOf s = lineFeed :: r) :
    s.take (bodyOf s).length = bodyOf s ∧ s.drop ((bodyOf s).length + 1) = r := by
  have hs : s = bodyOf s ++ lineFeed :: r := by rw [← h, bodyOf_append_tailOf]
  generalize bodyOf s = body at hs
  subst hs
  constructor
  · exact List.take_left
  · rw [← List.drop_drop, List.drop_left]
    rfl

/-! ## The child -/

/-- The stream is a body of a good size, a line feed and nothing else. -/
structure IsFrame (s body : Bytes) : Prop where
  stream : s = body ++ [lineFeed]
  nonempty : body ≠ []
  bound : body.length ≤ 65536
  lineFeed : lineFeed ∉ body
  carriageReturn : body.getLast? ≠ some carriageReturn

/-- More than the bound comes before the first line feed, or before the end when there is none. -/
def Oversized (s : Bytes) : Prop := 65536 < (bodyOf s).length

theorem isFrame_iff {s body : Bytes} : IsFrame s body ↔
    ¬Oversized s ∧ body = bodyOf s ∧ tailOf s = [lineFeed] ∧ body ≠ [] ∧ body.getLast? ≠ some carriageReturn := by
  constructor
  · rintro ⟨rfl, hne, hle, hlf, hcr⟩
    have hbody : bodyOf (body ++ [lineFeed]) = body := by
      rw [bodyOf_append hlf, bodyOf_lineFeed, List.append_nil]
    refine ⟨?_, hbody.symm, ?_, hne, hcr⟩
    · rw [Oversized, hbody]
      omega
    · rw [tailOf_append hlf, tailOf_lineFeed]
  · rintro ⟨hover, rfl, htail, hne, hcr⟩
    refine ⟨?_, hne, Nat.le_of_not_lt hover, notMem_bodyOf s, hcr⟩
    rw [← htail, bodyOf_append_tailOf]

def verdict (s : Bytes) : Stdin :=
  if 65536 < (bodyOf s).length then .tooLarge
  else if tailOf s = [lineFeed] ∧ bodyOf s ≠ [] ∧ (bodyOf s).getLast? ≠ some carriageReturn then .frame (bodyOf s)
  else .invalid

def atEnd : Except Stdin StdinState → Stdin
  | .error result => result
  | .ok s => if s.newlineSeen then .frame s.frame else .invalid

theorem readLoop_flatten {reads : List Bytes} (h : ∀ r ∈ reads, r ≠ []) :
    ∀ s, readLoop s reads = atEnd (reads.flatten.foldlM stdinByte s) := by
  induction reads with
  | nil => exact fun s => rfl
  | cons r reads ih =>
    intro s
    rw [List.forall_mem_cons] at h
    rw [readLoop, if_neg (by simpa using h.1), List.flatten_cons, List.foldlM_append]
    cases r.foldlM stdinByte s with
    | error result => rfl
    | ok s => exact ih h.2 s

theorem atEnd_newlineSeen (frame : Bytes) (s : Bytes) :
    atEnd (s.foldlM stdinByte ⟨frame, true⟩) = if s = [] then .frame frame else .invalid := by
  cases s with
  | nil => rfl
  | cons b s =>
    rw [List.foldlM_cons]
    rfl

/-- The child, from the bytes of the body it has read so far. -/
theorem atEnd_body : ∀ (s frame : Bytes), frame.length ≤ 65536 → lineFeed ∉ frame →
    atEnd (s.foldlM stdinByte ⟨frame, false⟩) = verdict (frame ++ s)
  | [], frame, hle, hlf => by
    have hbody : bodyOf (frame ++ []) = frame := by
      rw [bodyOf_append hlf]
      exact List.append_nil frame
    have htail : tailOf (frame ++ []) = [] := tailOf_append hlf []
    rw [verdict, hbody, htail, if_neg (Nat.not_lt.mpr hle), if_neg (by simp)]
    rfl
  | b :: s, frame, hle, hlf => by
    rw [List.foldlM_cons, stdinByte, if_neg (by simp)]
    by_cases hb : b = lineFeed
    · have hbody : bodyOf (frame ++ lineFeed :: s) = frame := by rw [bodyOf_append hlf, bodyOf_lineFeed, List.append_nil]
      have htail : tailOf (frame ++ lineFeed :: s) = lineFeed :: s := by rw [tailOf_append hlf, tailOf_lineFeed]
      rw [if_pos hb, hb, verdict, hbody, htail, if_neg (Nat.not_lt.mpr hle)]
      by_cases hbad : frame.isEmpty = true ∨ frame.getLast? = some carriageReturn
      · rw [if_pos hbad, if_neg]
        · rfl
        · rintro ⟨-, hne, hcr⟩
          rcases hbad with he | he
          · exact hne (List.isEmpty_iff.mp he)
          · exact hcr he
      · rw [if_neg hbad]
        rw [not_or, List.isEmpty_iff] at hbad
        have hread := atEnd_newlineSeen frame s
        by_cases hs : s = []
        · rw [if_pos ⟨by rw [hs], hbad.1, hbad.2⟩]
          rw [if_pos hs] at hread
          exact hread
        · rw [if_neg fun h => hs (List.cons.inj h.1).2]
          rw [if_neg hs] at hread
          exact hread
    · have hlf' : lineFeed ∉ frame ++ [b] := by simp [hlf, Ne.symm hb]
      have happ : frame ++ b :: s = frame ++ [b] ++ s := by simp
      rw [if_neg hb]
      by_cases hlen : frame.length = maxRequestBytes
      · have hlen' : frame.length = 65536 := hlen
        rw [if_pos hlen, happ, verdict, bodyOf_append hlf', if_pos]
        · rfl
        · simp only [List.length_append, List.length_singleton, hlen']
          omega
      · have hlen' : frame.length ≠ 65536 := hlen
        rw [if_neg hlen, happ, ← atEnd_body s (frame ++ [b]) (by simp; omega) hlf']
        rfl

theorem readStdin_eq {reads : List Bytes} (h : ∀ r ∈ reads, r ≠ []) : readStdin reads = verdict reads.flatten := by
  rw [readStdin, readLoop_flatten h, atEnd_body _ _ (by simp) (by simp), List.nil_append]

/-! ## The parent -/

theorem extractFrame_eq (s : Bytes) : extractFrame s =
    if tailOf s = [] then if bodyOf s = [] then .empty else .extra "frame is not LF-terminated".toList
    else if bodyOf s = [] then .empty
    else if (bodyOf s).getLast? = some carriageReturn then
      .extra "CRLF is not a valid process-profile terminator".toList
    else if 1 < (tailOf s).length then .extra "a byte followed the terminating LF".toList
    else .frame (bodyOf s) := by
  rw [extractFrame, indexOfByte_lineFeed]
  rcases tailOf_cases s with ⟨htail, hbody⟩ | ⟨r, htail⟩
  · simp only [htail, hbody, if_true, List.length_eq_zero_iff]
  · obtain ⟨htake, hdrop⟩ := cut_at_lineFeed htail
    simp only [htail, reduceCtorEq, if_false, htake, hdrop, List.length_eq_zero_iff, List.length_cons,
      Nat.lt_add_left_iff_pos]

namespace FrameCollector

theorem copyChunks_flatten : ∀ (chunks : List Bytes) (pre rest : Bytes), rest.length = chunks.flatten.length →
    copyChunks (pre ++ rest) pre.length chunks = pre ++ chunks.flatten
  | [], pre, rest, h => by
    obtain rfl : rest = [] := List.length_eq_zero_iff.mp h
    rfl
  | chunk :: chunks, pre, rest, h => by
    rw [List.flatten_cons, List.length_append] at h
    have hset : setBytes (pre ++ rest) pre.length chunk = pre ++ chunk ++ rest.drop chunk.length := by
      rw [setBytes, List.take_left, ← List.drop_drop, List.drop_left]
    rw [copyChunks, hset, ← List.length_append, copyChunks_flatten chunks (pre ++ chunk), List.flatten_cons,
      List.append_assoc]
    rw [List.length_drop]
    omega

/-- What the collector keeps of a stream that has not passed the bound. -/
structure Keeps (c : FrameCollector) (s : Bytes) : Prop where
  oversized : c.oversized = false
  chunks : c.chunks.flatten = bodyOf s
  frameBytes : c.frameBytes = (bodyOf s).length
  newlineSeen : c.newlineSeen = true ↔ tailOf s ≠ []
  invalidProfile : c.invalidProfile = true ↔ 1 < (tailOf s).length
  bound : (bodyOf s).length ≤ c.maxFrameBytes

def After (max : Nat) (c : FrameCollector) (s : Bytes) : Prop :=
  c.maxFrameBytes = max ∧ ((c.oversized = true ∧ max < (bodyOf s).length) ∨ c.Keeps s)

theorem after_new (max : Nat) : After max (new max) [] :=
  ⟨rfl, .inr ⟨rfl, rfl, rfl, by simp [new, tailOf], by simp [new, tailOf], Nat.zero_le _⟩⟩

theorem length_bodyOf_append (s chunk : Bytes) : (bodyOf s).length ≤ (bodyOf (s ++ chunk)).length := by
  rcases tailOf_cases s with ⟨-, hbody⟩ | ⟨r, htail⟩
  · have hlf : lineFeed ∉ s := by
      rw [← hbody]
      exact notMem_bodyOf s
    rw [bodyOf_append hlf, hbody, List.length_append]
    omega
  · rw [(bodyOf_append_of_tailOf htail chunk).1]

/-- Bytes after the line feed only raise the flag. -/
theorem append_afterNewline {c : FrameCollector} {s r : Bytes} (h : c.Keeps s) (htail : tailOf s = lineFeed :: r)
    (chunk : Bytes) : (c.append chunk).2.Keeps (s ++ chunk) := by
  have hseen : c.newlineSeen = true := h.newlineSeen.mpr (by simp [htail])
  obtain ⟨hbody, htail'⟩ := bodyOf_append_of_tailOf htail chunk
  rw [append, if_neg (by simp [h.oversized]), if_pos hseen, after]
  refine ⟨h.oversized, ?_, ?_, ?_, ?_, ?_⟩
  · rw [hbody]
    exact h.chunks
  · rw [hbody]
    exact h.frameBytes
  · simp [hseen, htail']
  · rw [Bool.or_eq_true, decide_eq_true_eq, h.invalidProfile, htail, htail', List.length_cons, List.length_cons,
      List.length_append]
    omega
  · rw [hbody]
    exact h.bound

/-- Bytes of the body are kept while they fit. -/
theorem append_beforeNewline {max : Nat} {c : FrameCollector} {s : Bytes} (hmax : c.maxFrameBytes = max) (h : c.Keeps s)
    (htail : tailOf s = []) (hbody : bodyOf s = s) (chunk : Bytes) : After max (c.append chunk).2 (s ++ chunk) := by
  have hlf : lineFeed ∉ s := by
    rw [← hbody]
    exact notMem_bodyOf s
  have hseen : c.newlineSeen = false := by
    rw [← Bool.not_eq_true, h.newlineSeen, htail]
    simp
  have hinvalid : c.invalidProfile = false := by
    rw [← Bool.not_eq_true, h.invalidProfile, htail]
    simp
  have hend : (indexOfByte lineFeed chunk).getD chunk.length = (bodyOf chunk).length := by
    rw [indexOfByte_lineFeed]
    rcases tailOf_cases chunk with ⟨ht, hb⟩ | ⟨r, ht⟩
    · simp [ht, hb]
    · simp [ht]
  have hbytes : c.frameBytes + (bodyOf chunk).length = (bodyOf (s ++ chunk)).length := by
    rw [h.frameBytes, bodyOf_append hlf, hbody, List.length_append]
  rw [append, if_neg (by simp [h.oversized]), if_neg (by simp [hseen])]
  simp only [hend]
  by_cases hover : c.maxFrameBytes < c.frameBytes + (bodyOf chunk).length
  · rw [if_pos hover]
    exact ⟨hmax, .inl ⟨rfl, by rw [← hmax, ← hbytes]; exact hover⟩⟩
  · rw [if_neg hover]
    have htake : chunk.take (bodyOf chunk).length = bodyOf chunk := by
      rcases tailOf_cases chunk with ⟨-, hb⟩ | ⟨r, ht⟩
      · rw [hb, List.take_length]
      · exact (cut_at_lineFeed ht).1
    generalize hkept : (if 0 < (bodyOf chunk).length then
        { c with chunks := c.chunks ++ [chunk.take (bodyOf chunk).length], frameBytes := c.frameBytes + (bodyOf chunk).length }
      else c) = c'
    have hc' : c' = { c with chunks := c'.chunks, frameBytes := (bodyOf (s ++ chunk)).length } ∧
        c'.chunks.flatten = bodyOf (s ++ chunk) := by
      rw [← hkept, ← hbytes]
      by_cases hpos : 0 < (bodyOf chunk).length
      · rw [if_pos hpos, htake]
        refine ⟨rfl, ?_⟩
        simp [h.chunks, hbody, bodyOf_append hlf]
      · rw [if_neg hpos]
        have hnil : bodyOf chunk = [] := List.length_eq_zero_iff.mp (by omega)
        simp [hnil, h.chunks, hbody, bodyOf_append hlf]
    obtain ⟨hc', hchunks⟩ := hc'
    rw [indexOfByte_lineFeed]
    rcases tailOf_cases chunk with ⟨ht, -⟩ | ⟨r, ht⟩
    · have htail' : tailOf (s ++ chunk) = [] := by rw [tailOf_append hlf, ht]
      rw [if_pos ht]
      refine ⟨by rw [hc']; exact hmax, .inr ⟨by rw [hc']; exact h.oversized, hchunks, by rw [hc'], ?_, ?_, ?_⟩⟩
      · rw [hc', htail']
        simp [hseen]
      · rw [hc', htail']
        simp [hinvalid]
      · rw [hc', ← hbytes]
        exact Nat.le_of_not_lt hover
    · have htail' : tailOf (s ++ chunk) = lineFeed :: r := by rw [tailOf_append hlf, ht]
      rw [if_neg (by simp [ht])]
      simp only [after, (cut_at_lineFeed ht).2]
      refine ⟨by rw [hc']; exact hmax, .inr ⟨by rw [hc']; exact h.oversized, hchunks, by rw [hc'], ?_, ?_, ?_⟩⟩
      · simp [htail']
      · rw [hc', htail']
        simp [hinvalid]
      · rw [hc', ← hbytes]
        exact Nat.le_of_not_lt hover

theorem after_append {max : Nat} {c : FrameCollector} {s : Bytes} (h : After max c s) (chunk : Bytes) :
    After max (c.append chunk).2 (s ++ chunk) := by
  obtain ⟨hmax, ⟨hover, hlt⟩ | hkeeps⟩ := h
  · rw [append, if_pos hover]
    exact ⟨hmax, .inl ⟨hover, Nat.lt_of_lt_of_le hlt (length_bodyOf_append s chunk)⟩⟩
  · rcases tailOf_cases s with ⟨htail, hbody⟩ | ⟨r, htail⟩
    · exact append_beforeNewline hmax hkeeps htail hbody chunk
    · refine ⟨?_, .inr (append_afterNewline hkeeps htail chunk)⟩
      have hseen : c.newlineSeen = true := hkeeps.newlineSeen.mpr (by simp [htail])
      rw [append, if_neg (by simp [hkeeps.oversized]), if_pos hseen, after]
      exact hmax

theorem after_collect {max : Nat} (chunks : List Bytes) : ∀ {c : FrameCollector} {s : Bytes}, After max c s →
    After max (c.collect chunks) (s ++ chunks.flatten) := by
  induction chunks with
  | nil =>
    intro c s h
    rw [List.flatten_nil, List.append_nil]
    exact h
  | cons chunk chunks ih =>
    intro c s h
    rw [List.flatten_cons, ← List.append_assoc]
    exact ih (after_append h chunk)

/-- What the collector reports of a stream is what the whole-buffer function reports, unless the bound was passed. -/
theorem extract_collect (max : Nat) (chunks : List Bytes) : ((new max).collect chunks).extract =
    if max < (bodyOf chunks.flatten).length then .oversized ("frame exceeds ".toList ++ decimal max ++ " bytes".toList)
    else extractFrame chunks.flatten := by
  obtain ⟨hmax, hstate⟩ := after_collect chunks (after_new max)
  rw [List.nil_append] at hstate
  generalize (new max).collect chunks = c at *
  generalize chunks.flatten = s at *
  rcases hstate with ⟨hover, hlt⟩ | h
  · rw [extract, if_pos hover, if_pos hlt, hmax]
  · have hle : ¬max < (bodyOf s).length := by
      rw [← hmax]
      exact Nat.not_lt.mpr h.bound
    have hframe : copyChunks (List.replicate c.frameBytes 0) 0 c.chunks = bodyOf s := by
      have := copyChunks_flatten c.chunks [] (List.replicate c.frameBytes 0) (by rw [List.length_replicate, h.frameBytes, h.chunks])
      rwa [List.nil_append, List.nil_append, h.chunks] at this
    have hseen : (!c.newlineSeen) = true ↔ tailOf s = [] := by
      rw [Bool.not_eq_true', ← Bool.not_eq_true, h.newlineSeen, not_not]
    rw [if_neg hle, extract, if_neg (by simp [h.oversized]), extractFrame_eq]
    simp only [hframe, List.length_eq_zero_iff, hseen, h.invalidProfile]

end FrameCollector

/-! ## Agreement -/

theorem verdict_frame {s body : Bytes} : verdict s = .frame body ↔ IsFrame s body := by
  rw [isFrame_iff, verdict, Oversized]
  by_cases hover : 65536 < (bodyOf s).length
  · simp [hover]
  · by_cases hgood : tailOf s = [lineFeed] ∧ bodyOf s ≠ [] ∧ (bodyOf s).getLast? ≠ some carriageReturn
    · rw [if_neg hover, if_pos hgood]
      constructor
      · intro h
        cases h
        exact ⟨hover, rfl, hgood⟩
      · rintro ⟨-, rfl, -⟩
        rfl
    · rw [if_neg hover, if_neg hgood]
      constructor
      · intro h
        cases h
      · rintro ⟨-, rfl, h⟩
        exact absurd h hgood

theorem verdict_tooLarge {s : Bytes} : verdict s = .tooLarge ↔ Oversized s := by
  rw [verdict, Oversized]
  by_cases hover : 65536 < (bodyOf s).length
  · simp [hover]
  · rw [if_neg hover]
    split <;> simp [hover]

theorem extractFrame_frame {s body : Bytes} (hover : ¬Oversized s) : extractFrame s = .frame body ↔ IsFrame s body := by
  rw [isFrame_iff, extractFrame_eq]
  rcases tailOf_cases s with ⟨htail, -⟩ | ⟨r, htail⟩
  · rw [if_pos htail, htail]
    split <;> simp
  · have hone : tailOf s = [lineFeed] ↔ ¬1 < (tailOf s).length := by
      rw [htail]
      cases r <;> simp
    rw [if_neg (by simp [htail]), hone]
    by_cases hne : bodyOf s = []
    · rw [if_pos hne, hne]
      constructor
      · intro h
        cases h
      · rintro ⟨-, rfl, -, h, -⟩
        exact absurd rfl h
    · by_cases hcr : (bodyOf s).getLast? = some carriageReturn
      · rw [if_neg hne, if_pos hcr]
        constructor
        · intro h
          cases h
        · rintro ⟨-, rfl, -, -, h⟩
          exact absurd hcr h
      · by_cases hlen : 1 < (tailOf s).length
        · simp [hne, hcr, hlen]
        · rw [if_neg hne, if_neg hcr, if_neg hlen, FrameExtraction.frame.injEq]
          constructor
          · rintro rfl
            exact ⟨hover, rfl, hlen, hne, hcr⟩
          · rintro ⟨-, rfl, -⟩
            rfl

theorem extractFrame_cases (s : Bytes) :
    (∃ body, extractFrame s = .frame body) ∨ extractFrame s = .empty ∨ ∃ detail, extractFrame s = .extra detail := by
  rw [extractFrame_eq]
  split
  · split
    · exact .inr (.inl rfl)
    · exact .inr (.inr ⟨_, rfl⟩)
  · split
    · exact .inr (.inl rfl)
    · split
      · exact .inr (.inr ⟨_, rfl⟩)
      · split
        · exact .inr (.inr ⟨_, rfl⟩)
        · exact .inl ⟨_, rfl⟩

/-- For every way of cutting a stream into reads and into chunks, both ends report the frame exactly when the stream is
one, an oversized body exactly when it is one, and otherwise that it is neither; within the bound the collector reports
what the whole-buffer function does. -/
theorem framing_agrees (s : Bytes) (reads chunks : List Bytes) (hreads : reads.flatten = s) (hread : ∀ r ∈ reads, r ≠ [])
    (hchunks : chunks.flatten = s) :
    let stdin := readStdin reads
    let extraction := ((FrameCollector.new 65536).collect chunks).extract
    (∀ body, stdin = .frame body ↔ IsFrame s body) ∧
    (∀ body, extraction = .frame body ↔ IsFrame s body) ∧
    (stdin = .tooLarge ↔ Oversized s) ∧
    ((∃ detail, extraction = .oversized detail) ↔ Oversized s) ∧
    (¬Oversized s → (∀ body, ¬IsFrame s body) →
      stdin = .invalid ∧ (extraction = .empty ∨ ∃ detail, extraction = .extra detail)) ∧
    (¬Oversized s → extraction = extractFrame s) := by
  intro stdin extraction
  have hstdin : stdin = verdict s := by
    rw [← hreads]
    exact readStdin_eq hread
  have hover : Oversized s → ∃ detail, extraction = .oversized detail := by
    intro h
    have he := FrameCollector.extract_collect 65536 chunks
    unfold Oversized at h
    rw [hchunks, if_pos h] at he
    exact ⟨_, he⟩
  have hwithin : ¬Oversized s → extraction = extractFrame s := by
    intro h
    have he := FrameCollector.extract_collect 65536 chunks
    unfold Oversized at h
    rwa [hchunks, if_neg h] at he
  refine ⟨?_, ?_, ?_, ?_, ?_, hwithin⟩
  · intro body
    rw [hstdin, verdict_frame]
  · intro body
    by_cases h : Oversized s
    · obtain ⟨detail, he⟩ := hover h
      rw [he]
      constructor
      · intro he
        cases he
      · intro hf
        exact absurd h (isFrame_iff.mp hf).1
    · rw [hwithin h, extractFrame_frame h]
  · rw [hstdin, verdict_tooLarge]
  · refine ⟨?_, hover⟩
    rintro ⟨detail, he⟩
    by_contra h
    rw [hwithin h] at he
    rcases extractFrame_cases s with ⟨body, hc⟩ | hc | ⟨d, hc⟩ <;> (rw [hc] at he; cases he)
  · intro h hnone
    constructor
    · rw [hstdin]
      cases hv : verdict s with
      | invalid => rfl
      | frame body => exact absurd (verdict_frame.mp hv) (hnone body)
      | tooLarge => exact absurd (verdict_tooLarge.mp hv) h
    · rw [hwithin h]
      rcases extractFrame_cases s with ⟨body, hc⟩ | hc
      · exact absurd ((extractFrame_frame h).mp hc) (hnone body)
      · exact hc

/-- The body `ab`, its line feed arriving in a read of its own. -/
theorem framing_agrees_split : readStdin [[0x61], [0x62], [0x0a]] = .frame [0x61, 0x62] :=
  ((framing_agrees [0x61, 0x62, 0x0a] [[0x61], [0x62], [0x0a]] [[], [0x61, 0x62], [0x0a]] rfl (by decide) rfl).1
    [0x61, 0x62]).mpr ⟨rfl, by decide, by decide, by decide, by decide⟩

end Aizign
