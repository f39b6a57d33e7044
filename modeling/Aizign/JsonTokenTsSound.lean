import Aizign.JsonTokenScan
import Aizign.JsonTokenTs

/-!
# The two lexical scans agree

Both scans are walks over the same tree, one with byte offsets and one with
UTF-16 offsets. `Agrees` relates their states; every token preserves it.
-/

namespace Aizign

/-! ## Decoded strings -/

theorem wellFormed_cons (u : Nat) (r : Units) : isWellFormedUnicode (u :: r) =
    if isHighSurrogate u then
      match r with
      | [] => false
      | l :: r => if isLowSurrogate l then isWellFormedUnicode r else false
    else if isLowSurrogate u then false
    else isWellFormedUnicode r := by
  rw [isWellFormedUnicode.eq_def]
  simp only [isHighSurrogate, isLowSurrogate, Bool.and_eq_true, decide_eq_true_eq]
  split
  · cases r with
    | nil => rfl
    | cons l r =>
      have hl : (l < 0xdc00 ∨ 0xdfff < l) ↔ ¬(0xdc00 ≤ l ∧ l ≤ 0xdfff) := by omega
      simp only [hl, ite_not]
  · rfl

theorem wellFormed_iff (u : Units) : isWellFormedUnicode u = (fromUtf16 u).isSome := by
  induction u using fromUtf16.induct with
  | case1 => rfl
  | case2 u hu => rw [wellFormed_cons, fromUtf16, if_pos hu, if_pos hu]; rfl
  | case3 u hu l r hl ih =>
    rw [wellFormed_cons, fromUtf16, if_pos hu, if_pos hu]
    simp only [hl, ite_true, Option.isSome_map, ih]
  | case4 u hu l r hl =>
    rw [wellFormed_cons, fromUtf16, if_pos hu, if_pos hu]
    simp only [hl, Bool.false_eq_true, ite_false, Option.isSome_none]
  | case5 u r hu hl => rw [wellFormed_cons, fromUtf16.eq_def]; simp [hu, hl]
  | case6 u r hu hl ih => rw [wellFormed_cons, fromUtf16.eq_def]; simp [hu, hl, ih]

theorem hexDigit_lt {c : Char} (h : isHex c = true) : hexDigit c < 16 := by
  have hu := hexUnit_toNat c
  rw [if_pos h, hexUnit] at hu
  have n₁ : '0'.toNat = 48 := rfl
  have n₂ : '9'.toNat = 57 := rfl
  have n₃ : 'a'.toNat = 97 := rfl
  have n₄ : 'f'.toNat = 102 := rfl
  have n₅ : 'A'.toNat = 65 := rfl
  have n₆ : 'F'.toNat = 70 := rfl
  split at hu
  · rw [Option.some.injEq] at hu; omega
  · split at hu
    · rw [Option.some.injEq] at hu; omega
    · split at hu
      · rw [Option.some.injEq] at hu; omega
      · cases hu

theorem units_lt (b : List StrChar) : ∀ u ∈ bodyUnits b, u < 0x10000 := by
  intro u hu
  obtain ⟨c, -, hc⟩ := List.mem_flatMap.mp hu
  cases c with
  | raw c ok =>
    have hlt := toNat_cases c
    rw [StrChar.units, utf16Char] at hc
    split at hc
    · rw [List.mem_singleton] at hc; omega
    · simp only [List.mem_cons, List.not_mem_nil, or_false] at hc
      omega
  | esc e ok =>
    rw [StrChar.units, List.mem_singleton] at hc
    have he : e.toNat < 0x80 := by
      rw [← isEscape_toNat] at ok
      exact escapeUnit_lt ok
    rw [hc, escapeCode]
    repeat' split
    all_goals omega
  | uni a b c d ok =>
    simp only [Bool.and_eq_true] at ok
    have ha := hexDigit_lt ok.1.1.1
    have hb := hexDigit_lt ok.1.1.2
    have hc' := hexDigit_lt ok.1.2
    have hd := hexDigit_lt ok.2
    rw [StrChar.units, List.mem_singleton] at hc
    omega

theorem utf16Char_ofNat {u : Nat} (hu : u < 0x10000) (h₁ : isHighSurrogate u = false) (h₂ : isLowSurrogate u = false) :
    utf16Char (Char.ofNat u) = [u] := by
  simp only [isHighSurrogate, isLowSurrogate, Bool.and_eq_false_iff, decide_eq_false_iff_not] at h₁ h₂
  have hv : u.isValidChar := by
    rw [Nat.isValidChar]; omega
  have hn : (Char.ofNat u).toNat = u := by
    rw [Char.ofNat, dif_pos hv]; rfl
  rw [utf16Char, hn, if_pos hu]

theorem utf16Char_pair {u l : Nat} (h₁ : isHighSurrogate u = true) (h₂ : isLowSurrogate l = true) :
    utf16Char (Char.ofNat (0x10000 + (u - 0xd800) * 0x400 + (l - 0xdc00))) = [u, l] := by
  simp only [isHighSurrogate, isLowSurrogate, Bool.and_eq_true, decide_eq_true_eq] at h₁ h₂
  have hv : (0x10000 + (u - 0xd800) * 0x400 + (l - 0xdc00)).isValidChar := by
    rw [Nat.isValidChar]; omega
  have hn : (Char.ofNat (0x10000 + (u - 0xd800) * 0x400 + (l - 0xdc00))).toNat =
      0x10000 + (u - 0xd800) * 0x400 + (l - 0xdc00) := by
    rw [Char.ofNat, dif_pos hv]; rfl
  rw [utf16Char, hn, if_neg (by omega)]
  simp only [List.cons.injEq, and_true]
  omega

theorem utf16_of_fromUtf16 {u : Units} {t : Text} (hu : ∀ x ∈ u, x < 0x10000) (h : fromUtf16 u = some t) : u = utf16 t := by
  have hcons : ∀ (c : Char) (t : Text), utf16 (c :: t) = utf16Char c ++ utf16 t := fun c t => by simp [utf16]
  induction u using fromUtf16.induct generalizing t with
  | case1 =>
    rw [fromUtf16, Option.some.injEq] at h
    rw [← h]; rfl
  | case2 u hs => rw [fromUtf16, if_pos hs] at h; cases h
  | case3 u hs l r hl ih =>
    simp only [fromUtf16, hs, hl, ite_true, Option.map_eq_some_iff] at h
    obtain ⟨t', ht, rfl⟩ := h
    have hr := ih (fun x hx => hu x (List.mem_cons_of_mem _ (List.mem_cons_of_mem _ hx))) ht
    rw [hcons, utf16Char_pair hs hl, ← hr]
    rfl
  | case4 u hs l r hl =>
    simp only [fromUtf16, hs, hl, ite_true, Bool.false_eq_true, ite_false] at h
    cases h
  | case5 u r hs hl =>
    rw [fromUtf16.eq_def] at h
    simp [hs, hl] at h
  | case6 u r hs hl ih =>
    rw [fromUtf16.eq_def] at h
    simp only [hs, hl, Bool.false_eq_true, ite_false, Option.map_eq_some_iff] at h
    obtain ⟨t', ht, rfl⟩ := h
    have hr := ih (fun x hx => hu x (List.mem_cons_of_mem _ hx)) ht
    rw [hcons, utf16Char_ofNat (hu u (List.mem_cons_self ..)) (by simpa using hs) (by simpa using hl), ← hr]
    rfl

theorem bodyUnits_eq_utf16 {b : List StrChar} {t : Text} : bodyUnits b = utf16 t ↔ strValue b = some t := by
  constructor
  · intro h
    rw [strValue, h, fromUtf16_utf16]
  · exact utf16_of_fromUtf16 (units_lt b)

theorem codes_eq_utf16 {t : Text} (h : isAscii t = true) : codes t = utf16 t := by
  rw [codes, ← utf16Encoding_text, Encoding.text_ascii _ h]

theorem jsonParse_utf16 (t : Text) : jsonParse (utf16 t) = parse t := by
  rw [jsonParse, fromUtf16_utf16, Option.bind_some]

theorem decodedString_body (b : List StrChar) (post : Units) :
    decodedString ('"'.toNat :: (utf16Encoding.text (bodyText b) ++ '"'.toNat :: post).take
      ((utf16Encoding.text (bodyText b)).length + 1)) = some (bodyUnits b) := by
  have htok : '"'.toNat :: (utf16Encoding.text (bodyText b) ++ '"'.toNat :: post).take
      ((utf16Encoding.text (bodyText b)).length + 1) = utf16Encoding.text (strText b) := by
    rw [strText, Encoding.text_cons_ascii _ (by decide), Encoding.text_append, Encoding.text_cons_ascii _ (by decide),
      List.take_length_add_append]
    rfl
  have hparse : parse (strText b) = some ⟨.nil, .str b, .nil⟩ := by
    have := parse_text ⟨.nil, .str b, .nil⟩
    simpa [Doc.text, Cst.text, Ws.nil] using this
  rw [htok, decodedString, utf16Encoding_text, jsonParse_utf16, hparse]

def tsHandler : Handler TsState where
  string s i b isName := s.onString i (utf16Encoding.size (strText b)) (some (bodyUnits b)) isName
  opened s _ isObject := s.onOpen isObject
  closed s _ := { s with levels := s.levels.tail }
  number s i n := s.onNumber i (utf16Encoding.text n.tok)
  word s _ w := s.recordValue (w.elim .null .boolean)

theorem tsReader_reads : tsReader.Reads utf16Encoding tsHandler where
  string s i b post isName := by
    have hsize : utf16Encoding.size (strText b) = (utf16Encoding.text (bodyText b)).length + 1 + 1 := by
      rw [strText, Encoding.size_cons _ (by decide), Encoding.size_append, Encoding.size_cons _ (by decide),
        Encoding.size_nil]
      rfl
    simp only [tsReader, tsHandler]
    rw [decodedString_body, hsize]
  opened _ _ _ := rfl
  closed _ _ := rfl
  number _ _ _ := rfl
  literal s i w post := by
    have key : ∀ t : Text, isAscii t = true → utf16Encoding.text t ++ post = codes t ++ post := by
      intro t ht
      rw [Encoding.text_ascii _ ht]; rfl
    cases w with
    | none => rw [key _ (by decide)]; rfl
    | some b =>
      cases b with
      | true => rw [key _ (by decide)]; rfl
      | false => rw [key _ (by decide)]; rfl

/-! ## The relation -/

def ProbeValue.units : ProbeValue → JsonProbeValue
  | .string s => .string (utf16 s)
  | .boolean b => .boolean b
  | .number tok => .number (utf16 tok)
  | .null => .null
  | .object => .object
  | .array => .array
  | .invalid => .invalid

structure ObjectsAgree (o : ObjectLevel) (p : TsObjectLevel) : Prop where
  keys : ∀ name : Text, name ∈ o.keys ↔ utf16 name ∈ p.keys
  inPayload : o.inPayload = p.inPayload
  directError : o.directError = p.directError

inductive LevelAgrees : Frame → Level → TsLevel → Prop
  | array {a} : LevelAgrees .array (.array a) (.array a.inPayload)
  | ready {o p} (h : ObjectsAgree o p) (ho : o.pendingKey = none) (hp : p.pendingKey = none) :
    LevelAgrees .ready (.object o) (.object p)
  | named {o p} (k : List StrChar) (h : ObjectsAgree o p) (ho : o.pendingKey = strValue k)
    (hp : p.pendingKey = some (bodyUnits k)) : LevelAgrees .named (.object o) (.object p)

inductive LevelsAgree : List Frame → List Level → List TsLevel → Prop
  | nil : LevelsAgree [] [] []
  | cons {f l m L ls ms} (h : LevelAgrees f l m) (hs : LevelsAgree L ls ms) : LevelsAgree (f :: L) (l :: ls) (m :: ms)

/-- The same kind of failure; for a number also the same payload flag. -/
def FailuresAgree : Option Failure → Option Failure → Prop
  | none, none => True
  | some f, some g => f.kind = g.kind ∧ (f.kind = .noncanonicalNumber → f.inPayload = g.inPayload)
  | _, _ => False

structure Agrees (L : List Frame) (i j : Nat) (s : ScanState) (t : TsState) : Prop where
  levels : LevelsAgree L s.levels t.levels
  early : s.Early i
  tsEarly : ∀ f ∈ t.failure, f.index < j
  values : ∀ name : Text, (s.topLevelValues name).map ProbeValue.units = t.topLevelValues (utf16 name)
  errorCode : s.errorCode.map utf16 = t.errorCode
  noSyntaxError : s.syntaxError = none
  tsNoSyntaxError : t.syntaxError = none
  failure : FailuresAgree s.failure t.failure
  safety : s.correlationSafety = .suppressed ↔ t.topLevelMemberNameUnicodeDefect = true

theorem objectsAgree {f : Frame} {o : ObjectLevel} {p : TsObjectLevel} (h : LevelAgrees f (.object o) (.object p)) :
    ObjectsAgree o p := by
  cases h with
  | ready h _ _ => exact h
  | named _ h _ _ => exact h

theorem rootMember_agrees {L : List Frame} {ls : List Level} {ms : List TsLevel} (h : LevelsAgree L ls ms) (key : Text)
    (hk : isAscii key = true) : rootMember ls key = tsRootMember ms key := by
  cases h with
  | nil => rfl
  | cons h hs =>
    cases hs with
    | cons h' hs =>
      cases h <;> rfl
    | nil =>
      cases h with
      | array => rfl
      | ready h ho hp => simp [rootMember, tsRootMember, Level.pendingKey, ho, hp]
      | named k h ho hp =>
        simp only [rootMember, tsRootMember, Level.pendingKey, ho, hp, codes_eq_utf16 hk]
        rw [Bool.eq_iff_iff, beq_iff_eq, beq_iff_eq, Option.some.injEq, bodyUnits_eq_utf16]

theorem length_agrees {L : List Frame} {ls : List Level} {ms : List TsLevel} (h : LevelsAgree L ls ms) :
    ls.length = ms.length := by
  induction h with
  | nil => rfl
  | cons _ _ ih => rw [List.length_cons, List.length_cons, ih]

theorem valueIsPayload_agrees {L : List Frame} {ls : List Level} {ms : List TsLevel} (h : LevelsAgree L ls ms) :
    valueIsPayload ls = tsValueIsPayload ms := by
  have hroot := rootMember_agrees h payloadKey (by decide)
  cases h with
  | nil => rfl
  | cons h hs =>
    rw [valueIsPayload, tsValueIsPayload, hroot]
    congr 1
    cases h with
    | array => rfl
    | ready h _ _ => exact h.inPayload
    | named _ h _ _ => exact h.inPayload

theorem consume_agrees {L : List Frame} {ls : List Level} {ms : List TsLevel} (h : LevelsAgree L ls ms) :
    LevelsAgree (doneTop L) (consumePendingKey ls) (tsConsumePendingKey ms) := by
  cases h with
  | nil => exact .nil
  | cons h hs =>
    cases h with
    | array => exact .cons .array hs
    | ready h ho hp => exact .cons (.ready ⟨h.keys, h.inPayload, h.directError⟩ rfl rfl) hs
    | named k h ho hp => exact .cons (.ready ⟨h.keys, h.inPayload, h.directError⟩ rfl rfl) hs

/-! ## Recorded values -/

def tsProbeValues (levels : List TsLevel) (value : JsonProbeValue) (map : Units → Option JsonProbeValue) :
    Units → Option JsonProbeValue :=
  match levels with
  | [.object o] => o.pendingKey.elim map fun key k => if k = key then some value else map k
  | _ => map

def tsProbeCode (levels : List TsLevel) (value : JsonProbeValue) (code : Option Units) : Option Units :=
  match levels with
  | .object o :: below =>
    match o.pendingKey with
    | none => code
    | some key =>
      if o.directError ∧ key = codes codeKey then value.string?
      else if below.isEmpty ∧ key = codes errorKey then none else code
  | _ => code

theorem tsRecordProbe_eq (s : TsState) (value : JsonProbeValue) : s.recordProbe value =
    { s with
      topLevelValues := tsProbeValues s.levels value s.topLevelValues
      errorCode := tsProbeCode s.levels value s.errorCode } := by
  obtain ⟨levels⟩ := s
  rcases levels with _ | ⟨⟨o⟩ | ⟨a⟩, below⟩
  · rfl
  · obtain ⟨keys, inPayload, directError, pendingKey⟩ := o
    cases pendingKey with
    | none => cases below <;> rfl
    | some key =>
      have hkeys : codes errorKey ≠ codes codeKey := by decide
      by_cases hd : directError = true ∧ key = codes codeKey
      · cases below <;> simp [TsState.recordProbe, tsProbeValues, tsProbeCode, hd]
      · cases below <;> by_cases he : key = codes errorKey <;>
          simp [TsState.recordProbe, tsProbeValues, tsProbeCode, hd, he, hkeys]
  · cases below <;> rfl

theorem utf16_inj {s t : Text} : utf16 s = utf16 t ↔ s = t := by
  constructor
  · intro h
    have := fromUtf16_utf16 s
    rw [h, fromUtf16_utf16, Option.some.injEq] at this
    exact this.symm
  · rintro rfl; rfl

theorem probeValues_agrees {L : List Frame} {ls : List Level} {ms : List TsLevel} (h : LevelsAgree L ls ms) (v : ProbeValue)
    {map : Text → Option ProbeValue} {map' : Units → Option JsonProbeValue}
    (hmap : ∀ name : Text, (map name).map ProbeValue.units = map' (utf16 name)) (name : Text) :
    (probeValues ls v map name).map ProbeValue.units = tsProbeValues ms v.units map' (utf16 name) := by
  cases h with
  | nil => exact hmap name
  | cons h hs =>
    cases hs with
    | cons h' hs => cases h <;> exact hmap name
    | nil =>
      cases h with
      | array => exact hmap name
      | ready h ho hp => simpa [probeValues, tsProbeValues, ho, hp] using hmap name
      | named k h ho hp =>
        simp only [probeValues, tsProbeValues, ho, hp, Option.elim_some]
        by_cases hk : strValue k = some name
        · rw [hk, bodyUnits_eq_utf16.mpr hk, if_pos rfl]
          simp [insertValue]
        · rw [if_neg fun e => hk (bodyUnits_eq_utf16.mp e.symm), ← hmap name]
          cases hs : strValue k with
          | none => rfl
          | some key =>
            rw [hs, Option.some.injEq] at hk
            rw [Option.elim_some, insertValue, if_neg (Ne.symm hk)]

theorem string?_units (v : ProbeValue) : v.string?.map utf16 = v.units.string? := by cases v <;> rfl

theorem probeCode_agrees {L : List Frame} {ls : List Level} {ms : List TsLevel} (h : LevelsAgree L ls ms) (v : ProbeValue)
    {c : Option Text} {c' : Option Units} (hc : c.map utf16 = c') :
    (probeCode ls v c).map utf16 = tsProbeCode ms v.units c' := by
  have herr : codes errorKey = utf16 errorKey := codes_eq_utf16 (by decide)
  have hcode : codes codeKey = utf16 codeKey := codes_eq_utf16 (by decide)
  cases h with
  | nil => exact hc
  | cons h hs =>
    have hempty : ∀ {L : List Frame} {ls : List Level} {ms : List TsLevel}, LevelsAgree L ls ms → ls.isEmpty = ms.isEmpty := by
      intro L ls ms h
      cases h <;> rfl
    cases h with
    | array => exact hc
    | ready h ho hp => simpa [probeCode, tsProbeCode, ho, hp] using hc
    | named k h ho hp =>
      simp only [probeCode, tsProbeCode, ho, hp, herr, hcode, bodyUnits_eq_utf16, h.directError, hempty hs]
      cases strValue k with
      | none => simpa using hc
      | some key =>
        simp only [Option.some.injEq]
        split
        · exact string?_units v
        · split
          · rfl
          · exact hc

theorem Agrees.recordValue {L : List Frame} {i j : Nat} {s : ScanState} {t : TsState} (h : Agrees L i j s t) (v : ProbeValue) :
    Agrees (doneTop L) i j (recordValue s v) (t.recordValue v.units) := by
  rw [Aizign.recordValue, TsState.recordValue, recordProbeValue_eq, tsRecordProbe_eq]
  exact ⟨consume_agrees h.levels, h.early, h.tsEarly, probeValues_agrees h.levels v h.values,
    probeCode_agrees h.levels v h.errorCode, h.noSyntaxError, h.tsNoSyntaxError, h.failure, h.safety⟩

/-! ## Single tokens -/

theorem recordFailure_early {x : Option Failure} {c : Failure} (h : ∀ f ∈ x, f.index < c.index) :
    recordFailure x c = x.or (some c) := by
  cases x with
  | none => rfl
  | some e =>
    have := h e rfl
    rw [recordFailure, if_neg (by omega), Option.some_or]

theorem recordFailure_late {x : Option Failure} {c e : Failure} (he : x = some e) (h : e.index ≤ c.index) :
    recordFailure x c = x := by
  rw [he, recordFailure, if_neg (by omega)]

theorem failuresAgree_or {x y : Option Failure} {f g : Failure} (h : FailuresAgree x y) (hk : f.kind = g.kind)
    (hp : f.kind = .noncanonicalNumber → f.inPayload = g.inPayload) : FailuresAgree (x.or (some f)) (y.or (some g)) := by
  cases x with
  | none =>
    cases y with
    | none => exact ⟨hk, hp⟩
    | some b => exact h.elim
  | some a =>
    cases y with
    | none => exact h.elim
    | some b => exact h

theorem failuresAgree_kind {x y : Option Failure} (h : FailuresAgree x y) : x.map Failure.kind = y.map Failure.kind := by
  cases x with
  | none =>
    cases y with
    | none => rfl
    | some b => exact h.elim
  | some a =>
    cases y with
    | none => exact h.elim
    | some b => exact congrArg some h.1

theorem Agrees.advance {L : List Frame} {i j : Nat} {s : ScanState} {t : TsState} (m n : Nat) (h : Agrees L i j s t) :
    Agrees L (i + m) (j + n) s t :=
  ⟨h.levels, h.early.mono (Nat.le_add_right i m), fun f hf => Nat.lt_of_lt_of_le (h.tsEarly f hf) (Nat.le_add_right j n),
    h.values, h.errorCode, h.noSyntaxError, h.tsNoSyntaxError, h.failure, h.safety⟩

/-- A failure of both scans at the token they have reached. -/
theorem Agrees.fail {L : List Frame} {i j : Nat} {s : ScanState} {t : TsState} (h : Agrees L i j s t) {f g : Failure}
    (hf : f.index = i) (hg : g.index = j) (hk : f.kind = g.kind)
    (hp : f.kind = .noncanonicalNumber → f.inPayload = g.inPayload) : Agrees L (i + 1) (j + 1) (s.fail f) (t.fail g) := by
  subst hf hg
  have he := recordFailure_early h.early
  have he' := recordFailure_early h.tsEarly
  have hlt : ∀ {x : Option Failure} {c : Failure}, (∀ f ∈ x, f.index < c.index) → ∀ f ∈ x.or (some c), f.index < c.index + 1 := by
    intro x c hx f hf
    rcases Option.or_eq_some_iff.mp hf with hf | ⟨-, hf⟩
    · exact Nat.lt_succ_of_lt (hx f hf)
    · rw [Option.some.injEq] at hf
      subst hf; exact Nat.lt_succ_self _
  refine ⟨h.levels, ?_, ?_, h.values, h.errorCode, h.noSyntaxError, h.tsNoSyntaxError, ?_, h.safety⟩
  · intro x hx
    rw [ScanState.fail, he] at hx
    exact hlt h.early x hx
  · intro x hx
    rw [TsState.fail, he'] at hx
    exact hlt h.tsEarly x hx
  · rw [ScanState.fail, TsState.fail, he, he']
    exact failuresAgree_or h.failure hk hp

theorem isCanonicalToken_utf16 {t : Text} (h : isAscii t = true) : isCanonicalToken (utf16 t) = isCanonicalInteger t := by
  have hinj : ∀ {s t : Text}, codes s = codes t ↔ s = t := fun {s t} =>
    ⟨fun e => List.map_injective_iff.mpr (fun _ _ => Char.toNat_inj.mp) e, fun e => e ▸ rfl⟩
  have hstrip : stripMinus (codes t) = codes (dropMinus t) := by
    have hd : isAscii (dropMinus t) = true := by
      cases t with
      | nil => rfl
      | cons c t =>
        by_cases hc : c = '-'
        · subst hc
          rw [isAscii_cons, Bool.and_eq_true] at h
          exact h.2
        · rw [show dropMinus (c :: t) = c :: t by simp [dropMinus, hc]]
          exact h
    rw [codes_eq_utf16 h, ← utf16Encoding_text, stripMinus_text, utf16Encoding_text, codes_eq_utf16 hd]
  have hzero : (codes t == ['0'.toNat]) = (t == ['0']) := by
    rw [Bool.eq_iff_iff, beq_iff_eq, beq_iff_eq]
    exact hinj (t := ['0'])
  have hall : ∀ u : Text, (codes u).all isDigitUnit = u.all Char.isDigit := by
    intro u
    rw [codes, List.all_map]
    exact congrArg u.all (funext fun c => (isDigit_iff c).symm)
  have hhead : ∀ u : Text, ((codes u).head? != some '0'.toNat) = (u.head? != some '0') := by
    intro u
    cases u with
    | nil => rfl
    | cons c u =>
      rw [Bool.eq_iff_iff, bne_iff_ne, bne_iff_ne]
      simp only [codes, List.map_cons, List.head?_cons, ne_eq, Option.some.injEq, Char.toNat_inj]
  have hempty : ∀ u : Text, (codes u).isEmpty = u.isEmpty := fun u => by cases u <;> rfl
  rw [← codes_eq_utf16 h, isCanonicalToken, isCanonicalInteger, hstrip, hzero, hhead, hall, hempty]

theorem num_ascii (n : Num) : isAscii n.tok = true := by
  rw [isAscii, List.all_eq_true]
  intro c hc
  have hn := List.all_eq_true.mp (all_numChar_of_isNumber n.ok) c hc
  simp only [isNumChar, Bool.or_eq_true, beq_iff_eq] at hn
  rcases hn with ((((hn | rfl) | rfl) | rfl) | rfl) | rfl
  · exact decide_eq_true (ascii_of_digit hn)
  all_goals decide

theorem Agrees.replace {L : List Frame} {i j : Nat} {s : ScanState} {t : TsState} (h : Agrees L i j s t) (start last : Nat)
    (r : Text) : Agrees L i j s (t.replace start last r) :=
  ⟨h.levels, h.early, h.tsEarly, h.values, h.errorCode, h.noSyntaxError, h.tsNoSyntaxError, h.failure, h.safety⟩

theorem Agrees.absorb {L : List Frame} {i j : Nat} {s : ScanState} {t : TsState} (h : Agrees L i j s t) {x : Found}
    (hx : x.failures = []) : Agrees L i j (s.absorb x) t := by
  have hf : (s.absorb x).failure = s.failure := by
    simp only [ScanState.absorb, hx, List.head?_nil, Option.or_none]
  refine ⟨h.levels, ?_, h.tsEarly, h.values, h.errorCode, h.noSyntaxError, h.tsNoSyntaxError, ?_, h.safety⟩
  · intro f hm
    rw [hf] at hm
    exact h.early f hm
  · rw [hf]
    exact h.failure

theorem Agrees.number {L : List Frame} {i j : Nat} {s : ScanState} {t : TsState} (n : Num) (h : Agrees L i j s t) :
    Agrees (doneTop L) (i + 1) (j + 1) (scanHandler.number s i n) (tsHandler.number t j n) := by
  have hnum : isJsonNumber (utf16 n.tok) = true := by
    rw [← utf16Encoding_text, isJsonNumber_text]; exact n.ok
  have hpay := valueIsPayload_agrees h.levels
  have hts : tsHandler.number t j n = TsState.recordValue (TsState.replace
      (if isCanonicalInteger n.tok then t else t.fail ⟨.noncanonicalNumber, j, tsValueIsPayload t.levels, numberMessage⟩)
      j (j + (utf16 n.tok).length) ['0']) (.number (utf16 n.tok)) := by
    simp only [tsHandler, TsState.onNumber, utf16Encoding_text, hnum, isCanonicalToken_utf16 (num_ascii n), Bool.not_true,
      Bool.false_eq_true, ite_false, TsState.recordValue, tsRecordProbe_eq]
    cases isCanonicalInteger n.tok <;> rfl
  rw [onNumber_eq h.early, after_scalar rfl, Cst.found, numFound, Cst.probe, hts]
  by_cases hc : isCanonicalInteger n.tok = true
  · simp only [hc, Bool.not_true, Bool.false_eq_true, ite_false, ite_true]
    refine ((Agrees.absorb h ?_).replace _ _ _).advance 1 1 |>.recordValue (.number n.tok)
    split <;> rfl
  · have hfail := h.fail (f := ⟨.noncanonicalNumber, i, valueIsPayload s.levels, numberMessage⟩)
      (g := ⟨.noncanonicalNumber, j, tsValueIsPayload t.levels, numberMessage⟩) rfl rfl rfl fun _ => hpay
    simp only [hc, Bool.not_false, Bool.false_eq_true, ite_true, ite_false]
    rw [← ScanState.Early.fail h.early]
    exact (hfail.replace _ _ _).recordValue (.number n.tok)

theorem Agrees.string {L : List Frame} {i j : Nat} {s : ScanState} {t : TsState} (b : List StrChar) (h : Agrees L i j s t) :
    Agrees (doneTop L) (i + 1) (j + 1) (scanHandler.string s i b false) (tsHandler.string t j b false) := by
  rw [onString_value h.early, after_scalar rfl, Cst.found, strFound, Cst.probe]
  simp only [tsHandler, TsState.onString, Bool.false_and, wellFormed_iff, Bool.false_eq_true, ite_false]
  cases hb : strValue b with
  | none =>
    have hfail := h.fail (f := ⟨.invalidUnicode, i, valueIsPayload s.levels, unicodeMessage⟩)
      (g := ⟨.invalidUnicode, j, tsValueIsPayload t.levels || t.levels.head?.any TsLevel.inPayload, unicodeMessage⟩)
      rfl rfl rfl fun e => by cases e
    rw [strValue] at hb
    simp only [hb, Option.isSome_none, Bool.not_false, Bool.false_eq_true, ite_true, ite_false, TsState.onIllFormed, false_and]
    rw [← ScanState.Early.fail h.early]
    exact (hfail.replace _ _ _).recordValue .invalid
  | some x =>
    have hr := (h.recordValue (.string x)).advance 1 1
    have hu : bodyUnits b = utf16 x := bodyUnits_eq_utf16.mpr hb
    rw [hu, fromUtf16_utf16]
    simp only [Option.isSome_some, Bool.not_true, Bool.false_eq_true, ite_true, ite_false, Option.elim_some]
    rw [ScanState.absorb_none]
    exact hr

/-- The object a name belongs to, with the name added on both sides. -/
theorem objectsAgree_named {o : ObjectLevel} {p : TsObjectLevel} (h : ObjectsAgree o p) (k : List StrChar) :
    LevelAgrees .named (.object (o.named k))
      (.object { p with keys := bodyUnits k :: p.keys, pendingKey := some (bodyUnits k) }) := by
  refine .named k ⟨fun name => ?_, h.inPayload, h.directError⟩ rfl rfl
  have hk : strValue k = some name ↔ utf16 name = bodyUnits k := by rw [eq_comm (b := bodyUnits k), bodyUnits_eq_utf16]
  simp only [ObjectLevel.named, seeName]
  rw [List.mem_cons, ← hk, ← h.keys name]
  cases hs : strValue k with
  | none => simp
  | some x => simp [eq_comm]

theorem Agrees.atName {L : List Frame} {i j : Nat} {s : ScanState} {t : TsState} {o : ObjectLevel} {below : List Level}
    {p : TsObjectLevel} {tsBelow : List TsLevel} (h : Agrees (.ready :: L) i j s t) (hl : s.levels = .object o :: below)
    (hm : t.levels = .object p :: tsBelow) (k : List StrChar) :
    Agrees (.named :: L) i j (s.atLevels (.object (o.named k) :: below))
      { t with levels := .object { p with keys := bodyUnits k :: p.keys, pendingKey := some (bodyUnits k) } :: tsBelow } := by
  have hlev := h.levels
  rw [hl, hm] at hlev
  cases hlev with
  | cons h₁ hs =>
    exact ⟨.cons (objectsAgree_named (objectsAgree h₁) k) hs, h.early, h.tsEarly, h.values, h.errorCode, h.noSyntaxError,
      h.tsNoSyntaxError, h.failure, h.safety⟩

theorem TsState.fail_late {t : TsState} {c e : Failure} (he : t.failure = some e) (h : e.index ≤ c.index) : t.fail c = t := by
  rw [TsState.fail, recordFailure_late he h]

theorem tsOnName_eq {t : TsState} {p : TsObjectLevel} {below : List TsLevel} (hm : t.levels = .object p :: below) (j : Nat)
    (u : Units) : t.onName j u =
      { (if u ∈ p.keys then t.fail ⟨.duplicateMember, j, p.inPayload || (below.isEmpty && u == codes payloadKey),
          duplicateMessage⟩ else t) with
        levels := .object { p with keys := u :: p.keys, pendingKey := some u } :: below } := by
  rw [TsState.onName, hm]

/-- An ill-formed name. That it may repeat another ill-formed one adds nothing: the scan has failed at this token already. -/
theorem Agrees.illName {L : List Frame} {i j : Nat} {s : ScanState} {t : TsState} {o : ObjectLevel} {below : List Level}
    {p : TsObjectLevel} {tsBelow : List TsLevel} (h : Agrees (.ready :: L) i j s t) (hl : s.levels = .object o :: below)
    (hm : t.levels = .object p :: tsBelow) (k : List StrChar) (b b' : Bool) (n : Nat) (r : Text) :
    Agrees (.named :: L) (i + 1) (j + 1)
      ((s.fail ⟨.invalidUnicode, i, b, unicodeMessage⟩).atLevels (.object (o.named k) :: below))
      (((t.fail ⟨.invalidUnicode, j, b', unicodeMessage⟩).replace j n r).onName j (bodyUnits k)) := by
  have hfail := h.fail (f := ⟨.invalidUnicode, i, b, unicodeMessage⟩) (g := ⟨.invalidUnicode, j, b', unicodeMessage⟩) rfl rfl
    rfl fun e => by cases e
  have hrec := recordFailure_early (x := t.failure) (c := ⟨.invalidUnicode, j, b', unicodeMessage⟩) h.tsEarly
  obtain ⟨e, he, hle⟩ : ∃ e, ((t.fail ⟨.invalidUnicode, j, b', unicodeMessage⟩).replace j n r).failure = some e ∧
      e.index ≤ j := by
    rw [TsState.replace, TsState.fail, hrec]
    cases ht : t.failure with
    | none => exact ⟨_, rfl, Nat.le_refl j⟩
    | some e => exact ⟨e, rfl, Nat.le_of_lt (h.tsEarly e ht)⟩
  rw [tsOnName_eq (t := (t.fail _).replace j n r) hm, TsState.fail_late he hle, ite_self]
  exact (hfail.replace j n r).atName hl hm k

theorem Agrees.name {L : List Frame} {i j : Nat} {s : ScanState} {t : TsState} (k : List StrChar)
    (h : Agrees (.ready :: L) i j s t) :
    Agrees (.named :: L) (i + 1) (j + 1) (scanHandler.string s i k true) (tsHandler.string t j k true) := by
  obtain ⟨o, below, p, tsBelow, hl, hm, hobj, hpend, hlen⟩ : ∃ o below p tsBelow, s.levels = .object o :: below ∧
      t.levels = .object p :: tsBelow ∧ ObjectsAgree o p ∧ o.pendingKey = none ∧ below.length = tsBelow.length := by
    have hlev := h.levels
    cases hs : s.levels with
    | nil => rw [hs] at hlev; cases hlev
    | cons l ls =>
      cases ht : t.levels with
      | nil => rw [hs, ht] at hlev; cases hlev
      | cons m ms =>
        rw [hs, ht] at hlev
        cases hlev with
        | cons h₁ h₂ =>
          cases h₁ with
          | ready hobj ho hp => exact ⟨_, _, _, _, rfl, rfl, hobj, ho, length_agrees h₂⟩
  have hin : t.inObject = true := by rw [TsState.inObject, hm]
  rw [onString_name hl hpend h.early, ScanState.named, nameFound]
  simp only [tsHandler, TsState.onString, Bool.true_and, hin, wellFormed_iff, ite_true]
  cases hk : strValue k with
  | none =>
    have hone : t.levels.length = 1 ↔ below = [] := by
      rw [hm, List.length_cons, ← hlen, ← List.length_eq_zero_iff]; omega
    rw [strValue] at hk
    simp only [hk, Option.isSome_none, Bool.not_false, ite_true, and_true, TsState.onIllFormed, true_and, hone]
    rw [← ScanState.Early.fail h.early]
    by_cases hb : below = []
    · simp only [hb, ite_true]
      have hdefect : Agrees (.ready :: L) i j { s with correlationSafety := .suppressed }
          { t with topLevelMemberNameUnicodeDefect := true } :=
        ⟨h.levels, h.early, h.tsEarly, h.values, h.errorCode, h.noSyntaxError, h.tsNoSyntaxError, h.failure, by simp⟩
      rw [hb] at hl
      exact hdefect.illName hl hm k _ _ _ _
    · simp only [hb, ite_false]
      exact h.illName hl hm k _ _ _ _
  | some name =>
    have hu : bodyUnits k = utf16 name := bodyUnits_eq_utf16.mpr hk
    have hmem : bodyUnits k ∈ p.keys ↔ name ∈ o.keys := by rw [hu, hobj.keys]
    rw [show fromUtf16 (bodyUnits k) = some name from hk]
    simp only [Option.isSome_some, Bool.not_true, Bool.false_eq_true, ite_false, reduceCtorEq, and_false]
    rw [tsOnName_eq hm]
    simp only [hmem]
    by_cases hn : name ∈ o.keys
    · have hfail := h.fail
        (f := ⟨.duplicateMember, i, memberInPayload o.inPayload (below.length + 1) (some name), duplicateMessage⟩)
        (g := ⟨.duplicateMember, j, p.inPayload || (tsBelow.isEmpty && bodyUnits k == codes payloadKey), duplicateMessage⟩)
        rfl rfl rfl fun e => by cases e
      simp only [hn, ite_true]
      rw [← ScanState.Early.fail h.early]
      exact hfail.atName hl hm k
    · simp only [hn, ite_false]
      rw [ScanState.absorb_none]
      exact (h.advance 1 1).atName hl hm k

theorem Agrees.opened {L : List Frame} {i j : Nat} {s : ScanState} {t : TsState} (isObject : Bool) (h : Agrees L i j s t) :
    Agrees ((if isObject then .ready else .array) :: doneTop L) (i + 1) (j + 1) (scanHandler.opened s i isObject)
      (tsHandler.opened t j isObject) := by
  have herr := rootMember_agrees h.levels errorKey (by decide)
  have hpay := valueIsPayload_agrees h.levels
  have hr := ((h.absorb (x := openFound (valueIsPayload s.levels) s.levels.length) rfl).recordValue
    (if isObject then .object else .array)).advance 1 1
  have hlev : LevelAgrees (if isObject then .ready else .array) (openLevel s.levels i isObject)
      (if isObject then .object ⟨[], tsValueIsPayload t.levels, isObject && tsRootMember t.levels errorKey, none⟩
        else .array (tsValueIsPayload t.levels)) := by
    cases isObject with
    | true => exact .ready ⟨fun name => by simp, hpay, herr⟩ rfl rfl
    | false =>
      rw [← hpay]
      exact .array
  have hunits : (if isObject then ProbeValue.object else .array).units = if isObject then .object else .array := by
    cases isObject <;> rfl
  rw [hunits, Aizign.recordValue, recordProbeValue_eq] at hr
  simp only [scanHandler, tsHandler]
  rw [onOpen_eq, recordProbeValue_eq]
  exact ⟨.cons hlev hr.levels, hr.early, hr.tsEarly, hr.values, hr.errorCode, hr.noSyntaxError, hr.tsNoSyntaxError, hr.failure,
    hr.safety⟩

theorem Agrees.closed {f : Frame} {L : List Frame} {i j : Nat} {s : ScanState} {t : TsState} (h : Agrees (f :: L) i j s t) :
    Agrees L (i + 1) (j + 1) (scanHandler.closed s i) (tsHandler.closed t j) := by
  have ha := h.advance 1 1
  have hlev := h.levels
  simp only [scanHandler, tsHandler, ScanState.onClose]
  cases hs : s.levels with
  | nil => rw [hs] at hlev; cases hlev
  | cons l ls =>
    cases ht : t.levels with
    | nil => rw [hs, ht] at hlev; cases hlev
    | cons m ms =>
      rw [hs, ht] at hlev
      cases hlev with
      | cons h₁ h₂ =>
        exact ⟨h₂, ha.early, ha.tsEarly, ha.values, ha.errorCode, ha.noSyntaxError, ha.tsNoSyntaxError, ha.failure, ha.safety⟩

theorem scans_lockstep : Lockstep scanHandler tsHandler Agrees where
  advance := Agrees.advance
  name := Agrees.name
  string := Agrees.string
  number := Agrees.number
  word w h := by
    have hr := (h.recordValue (w.elim .null .boolean)).advance 1 1
    cases w <;> exact hr
  opened := Agrees.opened
  closed := Agrees.closed

/-! ## The scans -/

theorem agrees_start (i j : Nat) : Agrees [] i j .start .start where
  levels := .nil
  early _ hf := nomatch hf
  tsEarly _ hf := nomatch hf
  values _ := rfl
  errorCode := rfl
  noSyntaxError := rfl
  tsNoSyntaxError := rfl
  failure := trivial
  safety := by simp [ScanState.start, TsState.start]

theorem tsTopLevelObject_doc (d : Doc) :
    (((utf16 d.text).dropWhile isTrimmed).head? == some '{'.toNat) = d.value.members?.isSome := by
  obtain ⟨c, r, hc, h₁, h₂, hobj⟩ := d.value.head_printable
  have hws : ∀ u ∈ utf16Encoding.text d.lead.chars, isTrimmed u = true := by
    have hascii : isAscii d.lead.chars = true := by
      rw [isAscii, List.all_eq_true]
      exact fun x hx => decide_eq_true (ascii_of_ws (List.all_eq_true.mp d.lead.ok x hx))
    rw [Encoding.text_ascii _ hascii]
    intro u hu
    obtain ⟨x, hx, rfl⟩ := List.mem_map.mp hu
    have := List.all_eq_true.mp d.lead.ok x hx
    simp only [isWs, Bool.or_eq_true, beq_iff_eq] at this
    rcases this with ((rfl | rfl) | rfl) | rfl <;> decide
  have hstop : isTrimmed c.toNat = false := by
    simp only [isTrimmed, Bool.or_eq_false_iff, Bool.and_eq_false_iff, decide_eq_false_iff_not, beq_eq_false_iff_ne]
    omega
  rw [← utf16Encoding_text, Doc.text, Encoding.text_append, List.dropWhile_append_of_pos hws, hc, List.cons_append,
    Encoding.text_cons_ascii _ (by omega), List.dropWhile_cons_of_neg (by rw [hstop]; decide), List.head?_cons,
    Bool.eq_iff_iff, beq_iff_eq, Option.some.injEq, ← hobj]
  exact Char.toNat_inj

theorem scanners_agree (t : Text) :
    (scanJsonTokens t).syntaxError.isSome = (tsScanJsonTokens (utf16 t)).syntaxError.isSome ∧
    (scanJsonTokens t).failure.map Failure.kind = (tsScanJsonTokens (utf16 t)).failure.map Failure.kind ∧
    (∀ f g, (scanJsonTokens t).failure = some f → (tsScanJsonTokens (utf16 t)).failure = some g →
      f.kind = .noncanonicalNumber → f.inPayload = g.inPayload) ∧
    (scanJsonTokens t).topLevelObject = (tsScanJsonTokens (utf16 t)).topLevelObject ∧
    ((scanJsonTokens t).correlationSafety = .suppressed ↔
      (tsScanJsonTokens (utf16 t)).topLevelMemberNameUnicodeDefect = true) ∧
    (∀ name : Text, ((scanJsonTokens t).topLevelValues name).map ProbeValue.units =
      (tsScanJsonTokens (utf16 t)).topLevelValues (utf16 name)) ∧
    (scanJsonTokens t).errorCode.map utf16 = (tsScanJsonTokens (utf16 t)).errorCode := by
  rw [tsScanJsonTokens, jsonParse_utf16, scanJsonTokens]
  cases hp : parse t with
  | none =>
    cases hv : validateUnits (utf8Encoding.text t) with
    | ok u =>
      obtain ⟨d, hd⟩ := validateUnits_iff.mp hv
      rw [parse_eq_some_iff.mpr hd] at hp
      cases hp
    | error e => exact ⟨rfl, rfl, fun f g hf => by (cases hf), rfl, by simp, fun _ => rfl, rfl⟩
  | some d =>
    obtain rfl := parse_eq_some_iff.mp hp
    have hts : tokenLoop tsReader 0 0 .start (utf16 d.text) =
        d.value.walk utf16Encoding tsHandler (utf16Encoding.size d.lead.chars) .start :=
      tokenLoop_doc utf16Encoding tsReader_reads d .start
    have h := d.value.lockstep utf8Encoding utf16Encoding scans_lockstep
      (agrees_start (utf8Encoding.size d.lead.chars) (utf16Encoding.size d.lead.chars))
    rw [← scanLoop_doc, ← hts] at h
    rw [validateUnits_doc]
    dsimp only
    refine ⟨by rw [h.noSyntaxError, h.tsNoSyntaxError]; rfl, failuresAgree_kind h.failure, ?_, ?_, h.safety, h.values, h.errorCode⟩
    · intro f g hf hg
      have hfg := h.failure
      rw [hf, hg] at hfg
      exact hfg.2
    · exact (topLevelObject_doc d).trans (tsTopLevelObject_doc d).symm

end Aizign
