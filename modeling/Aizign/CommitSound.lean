import Aizign.Commit

/-!
# Store metadata: round trips and torn documents

A written document reads back as the value it was written from, and a document
that is cut short reads as corrupt.
-/

namespace Aizign

/-! ## The integer scan over a written value -/

mutual

def Cst.canonical : Cst → Bool
  | .num n => !noncanonicalToken n.tok
  | .arr es => es.canonical
  | .obj ms => ms.canonical
  | _ => true

def Items.canonical : Items → Bool
  | .last _ v _ => v.canonical
  | .more _ v _ rest => v.canonical && rest.canonical

def Members.canonical : Members → Bool
  | .last _ _ _ _ v _ => v.canonical
  | .more _ _ _ _ v _ rest => v.canonical && rest.canonical

end

theorem scanIntegers_ws (w : Ws) (r : Text) :
    scanIntegers [] false false (w.chars ++ r) = scanIntegers [] false false r := by
  obtain ⟨w, hw⟩ := w
  simp only
  induction w with
  | nil => rfl
  | cons c w ih =>
    simp only [List.all_cons, Bool.and_eq_true] at hw
    have hc : c ≠ '"' ∧ ¬(c = '-' ∨ c.isDigit = true) := by
      have := hw.1
      simp only [isWs, Bool.or_eq_true, beq_iff_eq] at this
      rcases this with ((rfl | rfl) | rfl) | rfl <;> decide
    rw [List.cons_append, scanIntegers]
    simp only [hc, ite_false]
    exact ih hw.2

theorem scanIntegers_strChar (c : StrChar) (r : Text) :
    scanIntegers [] true false (c.text ++ r) = scanIntegers [] true false r := by
  cases c with
  | raw c ok =>
    simp only [isRaw, bne_iff_ne, Bool.and_eq_true] at ok
    simp [StrChar.text, scanIntegers, ok.1.1, ok.1.2]
  | esc e ok => simp [StrChar.text, scanIntegers]
  | uni a b c d ok =>
    have hx : ∀ x : Char, isHex x = true → x ≠ '\\' ∧ x ≠ '"' := by
      intro x hx
      constructor
      · intro h; subst h; exact absurd hx (by decide)
      · intro h; subst h; exact absurd hx (by decide)
    simp only [Bool.and_eq_true] at ok
    have ha := hx a ok.1.1.1
    have hb := hx b ok.1.1.2
    have hc := hx c ok.1.2
    have hd := hx d ok.2
    simp [StrChar.text, scanIntegers, ha, hb, hc, hd]

theorem scanIntegers_body (b : List StrChar) (r : Text) :
    scanIntegers [] true false (bodyText b ++ r) = scanIntegers [] true false r := by
  induction b with
  | nil => rfl
  | cons c b ih => rw [bodyText_cons, List.append_assoc, scanIntegers_strChar, ih]

theorem scanIntegers_str (b : List StrChar) (r : Text) :
    scanIntegers [] false false (strText b ++ r) = scanIntegers [] false false r := by
  rw [strText, List.cons_append, List.append_assoc, scanIntegers]
  simp [scanIntegers_body, scanIntegers]

theorem tokenEnd_of_numChar {c : Char} (h : isNumChar c = true) : isTokenEnd c = false := by
  cases he : isTokenEnd c with
  | false => rfl
  | true =>
    simp only [isTokenEnd, isWs, Bool.or_eq_true, beq_iff_eq] at he
    rcases he with ((rfl | rfl) | rfl) | ((rfl | rfl) | rfl) | rfl <;> exact absurd h (by decide)

theorem scanIntegers_tok (t : Char) (tok u r : Text) (hu : u.all isNumChar = true) :
    scanIntegers (t :: tok) false false (u ++ r) = scanIntegers (t :: tok ++ u) false false r := by
  induction u generalizing tok with
  | nil => simp
  | cons c u ih =>
    simp only [List.all_cons, Bool.and_eq_true] at hu
    rw [List.cons_append, scanIntegers, tokenEnd_of_numChar hu.1]
    have := ih (tok ++ [c]) hu.2
    simp only [List.cons_append, List.append_assoc, List.nil_append] at this ⊢
    simpa using this

/-- What follows a value: nothing, or a character that ends a token and starts none. -/
def AfterValue : Text → Prop
  | [] => True
  | c :: _ => isTokenEnd c = true

theorem scanIntegers_tokenEnd {c : Char} (h : isTokenEnd c = true) (r : Text) :
    scanIntegers [] false false (c :: r) = scanIntegers [] false false r := by
  have hc : c ≠ '"' ∧ ¬(c = '-' ∨ c.isDigit = true) := by
    simp only [isTokenEnd, isWs, Bool.or_eq_true, beq_iff_eq] at h
    rcases h with ((rfl | rfl) | rfl) | ((rfl | rfl) | rfl) | rfl <;> decide
  rw [scanIntegers]
  simp only [hc, ite_false]

theorem scanIntegers_num (n : Num) {r : Text} (hr : AfterValue r) :
    scanIntegers [] false false (n.tok ++ r) = (noncanonicalToken n.tok || scanIntegers [] false false r) := by
  obtain ⟨c, t, h, hc⟩ := head_of_isNumber n.ok
  have hall := all_numChar_of_isNumber n.ok
  rw [h, List.all_cons, Bool.and_eq_true] at hall
  have hq : c ≠ '"' := by
    intro he; subst he; exact absurd hall.1 (by decide)
  rw [h, List.cons_append, scanIntegers]
  simp only [hq, ite_false, show (c = '-' ∨ c.isDigit = true) from hc, ite_true]
  rw [scanIntegers_tok c [] t r hall.2]
  rcases r with _ | ⟨d, r⟩
  · simp [scanIntegers]
  · have hd : isTokenEnd d = true := hr
    rw [scanIntegers_tokenEnd hd, List.cons_append, List.nil_append, scanIntegers, hd]; simp

theorem afterValue_ws (w : Ws) {r : Text} (hr : AfterValue r) : AfterValue (w.chars ++ r) := by
  obtain ⟨_ | ⟨c, w⟩, hw⟩ := w
  · exact hr
  · simp only [List.all_cons, Bool.and_eq_true] at hw
    simp [AfterValue, isTokenEnd, hw.1]

theorem scanIntegers_skip {c : Char} (r : Text) (h : c ≠ '"') (h' : ¬(c = '-' ∨ c.isDigit = true)) :
    scanIntegers [] false false (c :: r) = scanIntegers [] false false r := by
  rw [scanIntegers]; simp only [h, h', ite_false]

mutual

/-- The scan meets the number tokens of a value one by one. -/
theorem scanIntegers_cst (v : Cst) {r : Text} (hr : AfterValue r) :
    scanIntegers [] false false (v.text ++ r) = (!v.canonical || scanIntegers [] false false r) := by
  cases v with
  | null => simp [Cst.text, scanIntegers_skip, Cst.canonical]
  | bool b => cases b <;> simp [Cst.text, scanIntegers_skip, Cst.canonical]
  | num n => rw [Cst.text, scanIntegers_num n hr, Cst.canonical, Bool.not_not]
  | str b => simp [Cst.text, scanIntegers_str, Cst.canonical]
  | arr0 w => simp [Cst.text, scanIntegers_skip, scanIntegers_ws, Cst.canonical]
  | obj0 w => simp [Cst.text, scanIntegers_skip, scanIntegers_ws, Cst.canonical]
  | arr es =>
    rw [Cst.text, List.cons_append, scanIntegers_skip _ (by decide) (by decide)]
    exact scanIntegers_items es
  | obj ms =>
    rw [Cst.text, List.cons_append, scanIntegers_skip _ (by decide) (by decide)]
    exact scanIntegers_members ms

theorem scanIntegers_items (es : Items) {r : Text} :
    scanIntegers [] false false (es.text ++ r) = (!es.canonical || scanIntegers [] false false r) := by
  cases es with
  | last w₁ v w₂ =>
    simp only [Items.text, List.append_assoc, List.cons_append, List.nil_append]
    rw [scanIntegers_ws, scanIntegers_cst v (afterValue_ws w₂ (by rfl)), scanIntegers_ws,
      scanIntegers_skip _ (by decide) (by decide), Items.canonical]
  | more w₁ v w₂ rest =>
    simp only [Items.text, List.append_assoc, List.cons_append]
    rw [scanIntegers_ws, scanIntegers_cst v (afterValue_ws w₂ (by rfl)), scanIntegers_ws,
      scanIntegers_skip _ (by decide) (by decide), scanIntegers_items rest, Items.canonical, Bool.not_and, Bool.or_assoc]

theorem scanIntegers_members (ms : Members) {r : Text} :
    scanIntegers [] false false (ms.text ++ r) = (!ms.canonical || scanIntegers [] false false r) := by
  cases ms with
  | last w₁ k w₂ w₃ v w₄ =>
    simp only [Members.text, List.append_assoc, List.cons_append, List.nil_append]
    rw [scanIntegers_ws, scanIntegers_str, scanIntegers_ws, scanIntegers_skip _ (by decide) (by decide),
      scanIntegers_ws, scanIntegers_cst v (afterValue_ws w₄ (by rfl)), scanIntegers_ws,
      scanIntegers_skip _ (by decide) (by decide), Members.canonical]
  | more w₁ k w₂ w₃ v w₄ rest =>
    simp only [Members.text, List.append_assoc, List.cons_append]
    rw [scanIntegers_ws, scanIntegers_str, scanIntegers_ws, scanIntegers_skip _ (by decide) (by decide),
      scanIntegers_ws, scanIntegers_cst v (afterValue_ws w₄ (by rfl)), scanIntegers_ws,
      scanIntegers_skip _ (by decide) (by decide), scanIntegers_members rest, Members.canonical, Bool.not_and, Bool.or_assoc]

end

theorem hasNoncanonicalIntegerToken_doc (d : Doc) : hasNoncanonicalIntegerToken d.text = !d.value.canonical := by
  have hnil : scanIntegers [] false false [] = false := rfl
  have ht : AfterValue d.trail.chars := by simpa using afterValue_ws d.trail (r := []) trivial
  have hs := scanIntegers_ws d.trail []
  rw [List.append_nil, hnil] at hs
  rw [hasNoncanonicalIntegerToken, Doc.text, scanIntegers_ws, scanIntegers_cst d.value ht, hs, Bool.or_false]

theorem hasNoncanonicalIntegerToken_cst {v : Cst} (h : v.canonical = true) :
    hasNoncanonicalIntegerToken v.text = false := by
  rw [← v.doc_text, hasNoncanonicalIntegerToken_doc, show v.doc.value = v from rfl, h]; rfl

theorem noncanonicalToken_decimal (n : Nat) : noncanonicalToken (decimal n) = false := by
  rcases Nat.eq_zero_or_pos n with rfl | hn
  · rfl
  · obtain ⟨c, r, hd, hc⟩ := decimal_head hn
    have hall := all_isDigit_decimal n
    have hany : (decimal n).any (fun c => !c.isDigit) = false := by
      rw [List.any_eq_false]
      intro x hx
      simp [decimal_isDigit hx]
    rw [hd, List.all_cons, Bool.and_eq_true] at hall
    rw [hd] at hany ⊢
    unfold noncanonicalToken
    split
    · rfl
    · rw [hany]; simp [isNonzeroDigit, hall.1, hc]

theorem canonical_jsonNat (n : Nat) : (jsonNat n).canonical = true := by
  simp [jsonNat, Cst.canonical, noncanonicalToken_decimal]

theorem canonical_jsonMembers {m : Text × Cst} {ms : List (Text × Cst)} (h : ∀ x ∈ m :: ms, x.2.canonical = true) :
    (jsonMembers m ms).canonical = true := by
  induction ms generalizing m with
  | nil => exact h m (by simp)
  | cons m' ms ih =>
    rw [jsonMembers, Members.canonical, h m (by simp), ih fun x hx => h x (List.mem_cons_of_mem _ hx)]; rfl

theorem canonical_jsonStruct {fs : List Field} {vs : List (Option Cst)}
    (hv : ∀ v, some v ∈ vs → v.canonical = true) : (jsonStruct fs vs).canonical = true := by
  unfold jsonStruct
  have h : ∀ x ∈ presentMembers fs vs, x.2.canonical = true := fun x hx => hv _ (snd_mem_of_presentMembers hx)
  generalize presentMembers fs vs = ms at h ⊢
  rcases ms with _ | ⟨m, ms⟩
  · rfl
  · exact canonical_jsonMembers h

/-! ## Opening a document -/

theorem openMetadata_cst [SerdeJson] {what : Text} {max : Nat} {v : Cst} (hl : (utf8 v.text).length ≤ max) (hd : v.NoDup)
    (hc : v.canonical = true) (hp : versionProbe storeVersionField v = .ok (some storeMetadataVersion)) :
    openMetadata what max (utf8 v.text) = .ok v := by
  unfold openMetadata
  rw [if_neg (by omega), fromUtf8_utf8]
  simp only [hasDuplicateMembers_of_noDup hd, hasNoncanonicalIntegerToken_cst hc, fromStr_cst]
  simp [bind, Except.bind, Except.map, hp]

/-- A document cut short is refused, whatever check meets it first. -/
theorem openMetadata_torn [SerdeJson] {what : Text} {max : Nat} {v : Cst} {t : Text} {p : Bytes} (ha : isAscii v.text = true)
    (hv : v.text = '{' :: t) (hp : p <+: utf8 v.text) (hne : p ≠ utf8 v.text) :
    ∃ detail, openMetadata what max p = .error (.corrupt detail) := by
  have hpa := prefix_utf8_ascii ha hp
  obtain ⟨q, hq⟩ := hp
  have hpq : v.text = v.text.take p.length ++ v.text.drop p.length := (List.take_append_drop ..).symm
  have hrest : v.text.drop p.length ≠ [] := by
    intro h
    rw [h, List.append_nil] at hpq
    exact hne (by rw [hpa.1, ← hpq])
  have hparse := parse_strict_prefix hv hpq hrest
  unfold openMetadata
  split
  · exact ⟨_, rfl⟩
  · rw [hpa.1, fromUtf8_utf8]
    simp only
    split
    · exact ⟨_, rfl⟩
    · split
      · exact ⟨_, rfl⟩
      · simp only [fromStr, hparse, bind, Except.bind]
        exact ⟨_, rfl⟩

theorem versionProbe_jsonStruct {f f' : Field} {fs : List Field} {v : Nat} {vs : List (Option Cst)}
    (hn : (fieldNames (f :: fs)).Nodup) (hv : v ≤ u64Max) (hf : f'.name = f.name) (hd : f'.default = true) :
    versionProbe f' (jsonStruct (f :: fs) (some (jsonNat v) :: vs)) = .ok (some v) := by
  have hone : (List.filter _ (presentMembers _ (some (jsonNat v) :: vs))).length ≤ 1 := filter_presentMembers hn f.name
  have hdup : [f'].find? (fun f'' =>
      1 < ((presentMembers (f :: fs) (some (jsonNat v) :: vs)).filter fun m => m.1 = f''.name).length) = none := by
    simp only [List.find?_cons, hf, show ¬1 < _ from Nat.not_lt.mpr hone, decide_false, List.find?_nil]
  have hmap : deStruct [f'] false (jsonStruct (f :: fs) (some (jsonNat v) :: vs)) = .ok [some (jsonNat v)] := by
    rw [jsonStruct, deStruct_jsonObject, deMap, hdup]
    simp [hd, lookupMember, presentMembers, hf, pure, Except.pure]
  rw [versionProbe, hmap]
  simp only [bind, Except.bind, optional]
  rw [deOption, deU64, deUnsigned_jsonNat hv]
  · rfl
  · intro h; cases h

/-! ## The commit point -/

theorem nibble_hexTable : ∀ n : Fin 16, nibble (hexTable.getD n '0').toNat.toUInt8 = some n.val := by decide

theorem hexTable_ascii : ∀ n : Fin 16, (hexTable.getD n '0').toNat < 0x80 := by decide

theorem encodeHex_ascii (h : Hash) : isAscii (encodeHex h) = true := by
  rw [isAscii, List.all_eq_true]
  intro c hc
  obtain ⟨b, -, hb⟩ := List.mem_flatMap.mp hc
  have h₁ := hexTable_ascii ⟨b.toNat / 16, by have := b.toNat_lt; omega⟩
  have h₂ := hexTable_ascii ⟨b.toNat % 16, by omega⟩
  simp only [List.mem_cons, List.not_mem_nil, or_false] at hb
  rcases hb with rfl | rfl
  · exact decide_eq_true h₁
  · exact decide_eq_true h₂

theorem decodePairs_encode (bs : Bytes) : decodePairs ((bs.flatMap fun b =>
    [hexTable.getD (b.toNat / 16) '0', hexTable.getD (b.toNat % 16) '0']).map fun c => c.toNat.toUInt8) = some bs := by
  induction bs with
  | nil => rfl
  | cons b bs ih =>
    have h₁ := nibble_hexTable ⟨b.toNat / 16, by have := b.toNat_lt; omega⟩
    have h₂ := nibble_hexTable ⟨b.toNat % 16, by omega⟩
    have hb : (b.toNat / 16 * 16 + b.toNat % 16).toUInt8 = b := by
      rw [Nat.div_add_mod']
      exact UInt8.ofNat_toNat
    simp only at h₁ h₂
    simp only [List.flatMap_cons, List.map_cons, List.cons_append, List.nil_append, decodePairs, h₁, h₂, ih]
    exact congrArg (fun x => some (x :: bs)) hb

theorem length_encodeHex (h : Hash) : (encodeHex h).length = 64 := by
  have : ∀ bs : Bytes, (bs.flatMap fun b =>
      [hexTable.getD (b.toNat / 16) '0', hexTable.getD (b.toNat % 16) '0']).length = 2 * bs.length := by
    intro bs
    induction bs with
    | nil => rfl
    | cons b bs ih => simp only [List.flatMap_cons, List.length_append, ih, List.length_cons, List.length_nil]; omega
  rw [encodeHex, this, h.length]

theorem decodeHex_encodeHex (h : Hash) : decodeHex (encodeHex h) = some h := by
  have hp : decodePairs (utf8 (encodeHex h)) = some h.bytes := by
    rw [utf8_ascii (encodeHex_ascii h)]; exact decodePairs_encode h.bytes
  simp [decodeHex, length_utf8_ascii (encodeHex_ascii h), length_encodeHex, hp, h.length]

/-- Values of the type the source gives these fields, `u64`. -/
structure CommitPoint.InRange (p : CommitPoint) : Prop where
  generation : p.generation ≤ u64Max
  committedBytes : p.committedBytes ≤ u64Max
  committedEntries : p.committedEntries ≤ u64Max

theorem commitFields_nodup : (fieldNames commitFields).Nodup := by decide

theorem CommitDto.de_cst {d : CommitDto} (hv : d.storeVersion ≤ u64Max) (hg : d.generation ≤ u64Max)
    (hb : d.committedBytes ≤ u64Max) (he : d.committedEntries ≤ u64Max) : CommitDto.de d.cst = .ok d := by
  rw [CommitDto.de, CommitDto.cst, deStruct_jsonStruct true commitFields_nodup rfl (by simp [commitFields])]
  simp [bind, Except.bind, deU64, deUnsigned_jsonNat, deString_jsonString, pure, Except.pure, *]

theorem CommitDto.noDup [SerdeJson] (d : CommitDto) : d.cst.NoDup := by
  apply noDup_jsonStruct commitFields_nodup
  intro v hv
  simp only [List.mem_cons, Option.some.injEq, List.not_mem_nil, or_false] at hv
  rcases hv with rfl | rfl | rfl | rfl | rfl
  all_goals first | exact noDup_jsonNat _ | exact noDup_str _

theorem CommitDto.canonical (d : CommitDto) : d.cst.canonical = true := by
  apply canonical_jsonStruct
  intro v hv
  simp only [List.mem_cons, Option.some.injEq, List.not_mem_nil, or_false] at hv
  rcases hv with rfl | rfl | rfl | rfl | rfl
  all_goals first | exact canonical_jsonNat _ | rfl

theorem CommitPoint.encode_ascii (p : CommitPoint) : isAscii p.dto.cst.text = true := by
  apply jsonStruct_ascii
  · decide
  · intro v hv
    simp only [List.mem_cons, Option.some.injEq, List.not_mem_nil, or_false] at hv
    rcases hv with rfl | rfl | rfl | rfl | rfl
    all_goals first | exact jsonNat_ascii _ | exact strText_ascii (encodeHex_ascii _)

theorem length_jsonNat_u64 {n : Nat} (h : n ≤ u64Max) : (jsonNat n).text.length ≤ 20 :=
  length_jsonNat (by decide) (Nat.lt_of_le_of_lt h (by decide))

theorem encodeHex_plain (h : Hash) : (encodeHex h).all isRaw = true := by
  have ht : ∀ n : Fin 16, isRaw (hexTable.getD n '0') = true := by decide
  rw [List.all_eq_true]
  intro c hc
  obtain ⟨b, -, hb⟩ := List.mem_flatMap.mp hc
  simp only [List.mem_cons, List.not_mem_nil, or_false] at hb
  rcases hb with rfl | rfl
  · exact ht ⟨b.toNat / 16, by have := b.toNat_lt; omega⟩
  · exact ht ⟨b.toNat % 16, by omega⟩

theorem CommitPoint.length_encode {p : CommitPoint} (h : p.InRange) : p.encode.length ≤ maxCommitMetadataBytes := by
  rw [CommitPoint.encode, length_utf8_ascii p.encode_ascii, CommitDto.cst, jsonStruct]
  refine Nat.le_trans (length_jsonObject _) ?_
  have hv := length_jsonNat_u64 (show storeMetadataVersion ≤ u64Max by decide)
  have hg := length_jsonNat_u64 h.generation
  have hb := length_jsonNat_u64 h.committedBytes
  have he := length_jsonNat_u64 h.committedEntries
  have hs : (jsonString (encodeHex p.digest)).text.length = 66 := by
    rw [jsonString, Cst.text, strText_plain (encodeHex_plain _)]
    simp [length_encodeHex]
  have hn : ∀ f ∈ commitFields, (strText (jsonBody f.name)).length ≤ 18 := by decide
  simp only [commitFields, List.forall_mem_cons, List.not_mem_nil] at hn
  obtain ⟨h₁, h₂, h₃, h₄, h₅, -⟩ := hn
  simp only [CommitPoint.dto, commitFields, presentMembers, List.map_cons, List.map_nil, List.sum_cons,
    List.sum_nil, memberLength, maxCommitMetadataBytes]
  omega

theorem CommitPoint.decode_encode [SerdeJson] {p : CommitPoint} (h : p.InRange) (max : Nat) :
    CommitPoint.decode p.encode max = CommitPoint.ofDto p.dto max := by
  have hv : storeMetadataVersion ≤ u64Max := by decide
  have ho : openMetadata commitWhat _ _ = _ := openMetadata_cst (CommitPoint.length_encode h) (CommitDto.noDup p.dto)
    (CommitDto.canonical p.dto) (versionProbe_jsonStruct commitFields_nodup hv rfl rfl)
  rw [CommitPoint.decode, CommitPoint.encode, ho]
  simp only [bind, Except.bind, CommitDto.de_cst (d := p.dto) hv h.generation h.committedBytes h.committedEntries]

structure CommitPoint.Valid (p : CommitPoint) (max : Nat) : Prop where
  bytes : p.committedBytes ≤ max
  entries : p.committedEntries ≤ maxJournalEntries
  generation : p.generation = p.committedEntries + 1

theorem CommitPoint.ofDto_eq_ok {d : CommitDto} {max : Nat} {p : CommitPoint} (h : CommitPoint.ofDto d max = .ok p) :
    p.Valid max ∧ d.generation = p.generation ∧ d.committedBytes = p.committedBytes ∧
      d.committedEntries = p.committedEntries := by
  unfold CommitPoint.ofDto at h
  split at h
  · cases h
  split at h
  · cases h
  split at h
  · cases h
  split at h
  · cases h
  split at h
  · cases h
  · rename_i h₁ h₂ h₃ h₄ _ digest _
    simp only [Except.ok.injEq] at h
    subst h
    exact ⟨⟨by simp only; omega, by simp only; omega, by simp only; omega⟩, rfl, rfl, rfl⟩

theorem CommitPoint.ofDto_dto {p : CommitPoint} {max : Nat} (h : p.Valid max) :
    CommitPoint.ofDto p.dto max = .ok p := by
  have h₁ := h.bytes
  have h₂ := h.entries
  have h₃ := h.generation
  unfold CommitPoint.ofDto CommitPoint.dto
  simp only
  rw [if_neg (by omega), if_neg (by omega), if_neg (by omega), if_neg (by omega), decodeHex_encodeHex]

theorem CommitPoint.decode_valid [SerdeJson] {bytes : Bytes} {max : Nat} {p : CommitPoint}
    (h : CommitPoint.decode bytes max = .ok p) : p.Valid max := by
  unfold CommitPoint.decode at h
  cases ho : openMetadata commitWhat maxCommitMetadataBytes bytes with
  | error e => rw [ho] at h; cases h
  | ok c =>
    rw [ho] at h
    simp only [bind, Except.bind] at h
    split at h
    · cases h
    · exact (CommitPoint.ofDto_eq_ok h).1

theorem CommitPoint.decode_torn [SerdeJson] {p : CommitPoint} {b : Bytes} (max : Nat) (hb : b <+: p.encode) (hne : b ≠ p.encode) :
    ∃ detail, CommitPoint.decode b max = .error (.corrupt detail) := by
  obtain ⟨t, ht⟩ : ∃ t, p.dto.cst.text = '{' :: t := jsonStruct_head ..
  obtain ⟨detail, hd⟩ : ∃ detail, openMetadata commitWhat maxCommitMetadataBytes b = .error (.corrupt detail) :=
    openMetadata_torn p.encode_ascii ht hb hne
  exact ⟨detail, by rw [CommitPoint.decode, hd]; rfl⟩

/-! ## The publication witness -/

theorem publishFields_nodup : (fieldNames publishFields).Nodup := by decide

theorem PublishDto.de_cst {d : PublishDto} (hv : d.storeVersion ≤ u64Max) (hs : d.startedGeneration ≤ u64Max)
    (hp : d.publishedGeneration ≤ u64Max) : PublishDto.de d.cst = .ok d := by
  rw [PublishDto.de, PublishDto.cst, deStruct_jsonStruct true publishFields_nodup rfl (by simp [publishFields])]
  simp [bind, Except.bind, deU64, deUnsigned_jsonNat, pure, Except.pure, *]

theorem PublishDto.values (d : PublishDto) {v : Cst} (hv : some v ∈ [some (jsonNat d.storeVersion),
    some (jsonNat d.startedGeneration), some (jsonNat d.publishedGeneration)]) : ∃ n, v = jsonNat n := by
  simp only [List.mem_cons, Option.some.injEq, List.not_mem_nil, or_false] at hv
  rcases hv with rfl | rfl | rfl <;> exact ⟨_, rfl⟩

theorem PublishDto.noDup [SerdeJson] (d : PublishDto) : d.cst.NoDup := by
  apply noDup_jsonStruct publishFields_nodup
  intro v hv
  obtain ⟨n, rfl⟩ := d.values hv
  exact noDup_jsonNat n

theorem PublishDto.canonical (d : PublishDto) : d.cst.canonical = true := by
  apply canonical_jsonStruct
  intro v hv
  obtain ⟨n, rfl⟩ := d.values hv
  exact canonical_jsonNat n

theorem PublishWitness.encode_ascii (w : PublishWitness) : isAscii w.dto.cst.text = true := by
  apply jsonStruct_ascii
  · decide
  · intro v hv
    obtain ⟨n, rfl⟩ := w.dto.values hv
    exact jsonNat_ascii n

/-- The witnesses the store writes: both generations inside the bound, in one of the three relations. -/
structure PublishWitness.Valid (w : PublishWitness) : Prop where
  started : 0 < w.startedGeneration
  startedMax : w.startedGeneration ≤ maxJournalEntries + 1
  publishedMax : w.publishedGeneration ≤ maxJournalEntries + 1
  relation : w.isClean || w.isInitializing || w.isPreparedSuccessor

theorem PublishWitness.length_encode {w : PublishWitness} (h : w.Valid) :
    w.encode.length ≤ maxPublishMetadataBytes := by
  have hm : maxJournalEntries + 1 ≤ u64Max := by decide
  rw [PublishWitness.encode, length_utf8_ascii w.encode_ascii, PublishDto.cst, jsonStruct]
  refine Nat.le_trans (length_jsonObject _) ?_
  have hv := length_jsonNat_u64 (show storeMetadataVersion ≤ u64Max by decide)
  have hs := length_jsonNat_u64 (Nat.le_trans h.startedMax hm)
  have hp := length_jsonNat_u64 (Nat.le_trans h.publishedMax hm)
  have hn : ∀ f ∈ publishFields, (strText (jsonBody f.name)).length ≤ 21 := by decide
  simp only [publishFields, List.forall_mem_cons, List.not_mem_nil] at hn
  obtain ⟨h₁, h₂, h₃, -⟩ := hn
  simp only [PublishWitness.dto, publishFields, presentMembers, List.map_cons, List.map_nil,
    List.sum_cons, List.sum_nil, memberLength, maxPublishMetadataBytes]
  omega

theorem PublishWitness.decode_encode [SerdeJson] {w : PublishWitness} (h : w.Valid) : PublishWitness.decode w.encode = .ok w := by
  have hv : storeMetadataVersion ≤ u64Max := by decide
  have hm : maxJournalEntries + 1 ≤ u64Max := by decide
  have ho : openMetadata publishWhat _ _ = _ := openMetadata_cst (PublishWitness.length_encode h) (PublishDto.noDup w.dto)
    (PublishDto.canonical w.dto) (versionProbe_jsonStruct publishFields_nodup hv rfl rfl)
  rw [PublishWitness.decode, PublishWitness.encode, ho]
  simp only [bind, Except.bind, PublishDto.de_cst (d := w.dto) hv (Nat.le_trans h.startedMax hm)
    (Nat.le_trans h.publishedMax hm)]
  have h₁ := h.started
  have h₂ := h.startedMax
  have h₃ := h.publishedMax
  unfold PublishWitness.ofDto PublishWitness.dto
  simp only
  rw [if_neg (by omega), h.relation]; rfl

theorem PublishWitness.decode_torn [SerdeJson] {w : PublishWitness} {b : Bytes} (hb : b <+: w.encode) (hne : b ≠ w.encode) :
    ∃ detail, PublishWitness.decode b = .error (.corrupt detail) := by
  obtain ⟨t, ht⟩ : ∃ t, w.dto.cst.text = '{' :: t := jsonStruct_head ..
  obtain ⟨detail, hd⟩ : ∃ detail, openMetadata publishWhat maxPublishMetadataBytes b = .error (.corrupt detail) :=
    openMetadata_torn w.encode_ascii ht hb hne
  exact ⟨detail, by rw [PublishWitness.decode, hd]; rfl⟩

theorem PublishWitness.decode_valid [SerdeJson] {bytes : Bytes} {w : PublishWitness} (h : PublishWitness.decode bytes = .ok w) :
    w.Valid := by
  unfold PublishWitness.decode at h
  cases ho : openMetadata publishWhat maxPublishMetadataBytes bytes with
  | error e => rw [ho] at h; cases h
  | ok c =>
    rw [ho] at h
    simp only [bind, Except.bind] at h
    split at h
    · cases h
    · rename_i d _
      unfold PublishWitness.ofDto at h
      simp only at h
      split at h
      · cases h
      · split at h
        · cases h
        · rename_i h₁ h₂
          simp only [Except.ok.injEq] at h
          subst h
          exact ⟨by simp only; omega, by simp only; omega, by simp only; omega,
            by simpa only [Bool.not_eq_true, Bool.not_eq_false'] using h₂⟩

end Aizign
