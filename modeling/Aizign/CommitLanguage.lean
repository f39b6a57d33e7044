import Aizign.CommitSound
import Aizign.SerdeSound
import Mathlib.Data.List.Induction

/-!
# Store metadata: the accepted documents

Which byte strings the two metadata decoders accept, spelled out over the JSON
grammar: one object with exactly the members of the document, integers in their
one canonical spelling, a digest of sixty-four lowercase digits.
-/

namespace Aizign

/-! ## Canonical integers -/

theorem digitsValue_snoc (t : Text) (c : Char) : digitsValue (t ++ [c]) = 10 * digitsValue t + (c.toNat - '0'.toNat) := by
  simp [digitsValue]

theorem digit_toNat {c : Char} (h : c.isDigit = true) : 48 ≤ c.toNat ∧ c.toNat ≤ 57 := by
  simp only [Char.isDigit, Bool.and_eq_true, decide_eq_true_eq, ge_iff_le, UInt32.le_iff_toNat_le] at h
  exact h

theorem digitChar_digit {c : Char} (h : c.isDigit = true) : (c.toNat - '0'.toNat).digitChar = c := by
  have hd := digit_toNat h
  have h48 : '0'.toNat = 48 := rfl
  apply Char.toNat_inj.mp
  rw [Nat.toNat_digitChar_of_lt_ten (by omega)]
  omega

theorem decimal_snoc {n d : Nat} (hn : 0 < n) (hd : d < 10) : decimal (10 * n + d) = decimal n ++ [d.digitChar] := by
  rw [decimal, Nat.toDigits_of_base_le (by decide) (by omega), decimal]
  rw [show (10 * n + d) / 10 = n by omega, show (10 * n + d) % 10 = d by omega]

/-- Digits without a leading zero are the decimal spelling of their value. -/
theorem decimal_digitsValue {c : Char} (hc : c.isDigit = true) (h0 : c ≠ '0') (t : Text)
    (ht : t.all Char.isDigit = true) : 0 < digitsValue (c :: t) ∧ decimal (digitsValue (c :: t)) = c :: t := by
  induction t using List.reverseRecOn with
  | nil =>
    have hd := digit_toNat hc
    have h48 : '0'.toNat = 48 := rfl
    have hne : c.toNat ≠ 48 := fun h => h0 (Char.toNat_inj.mp h)
    have hv : digitsValue [c] = c.toNat - '0'.toNat := by simp [digitsValue]
    rw [hv]
    refine ⟨by omega, ?_⟩
    rw [decimal, Nat.toDigits_of_lt_base (by omega), digitChar_digit hc]
  | append_singleton t x ih =>
    rw [List.all_append, Bool.and_eq_true] at ht
    have hx : x.isDigit = true := by simpa using ht.2
    have hd := digit_toNat hx
    have h48 : '0'.toNat = 48 := rfl
    obtain ⟨hpos, heq⟩ := ih ht.1
    rw [← List.cons_append, digitsValue_snoc]
    refine ⟨by omega, ?_⟩
    rw [decimal_snoc hpos (by omega), heq, digitChar_digit hx]

/-- A token the scan lets through has one spelling. -/
theorem tok_of_canonical {tok : Text} {k : Nat} (hc : noncanonicalToken tok = false) (hk : natToken tok = some k) :
    tok = decimal k := by
  unfold natToken at hk
  split at hk
  · rename_i hall
    simp only [Option.some.injEq] at hk
    subst hk
    unfold noncanonicalToken at hc
    split at hc
    · rename_i h0
      subst h0; rfl
    · rcases tok with _ | ⟨c, t⟩
      · simp at hc
      · simp only [Bool.or_eq_false_iff, Bool.not_eq_false', isNonzeroDigit, Bool.and_eq_true, bne_iff_ne] at hc
        simp only [List.all_cons, Bool.and_eq_true] at hall
        exact (decimal_digitsValue hc.1.1 hc.1.2 t hall.1.2).2.symm
  · cases hk

theorem jsonNat_of_deUnsigned {max k : Nat} {c : Cst} (hc : c.canonical = true) (hk : deUnsigned max c = .ok k) :
    c = jsonNat k ∧ k ≤ max := by
  unfold deUnsigned at hk
  split at hk
  · rename_i n
    simp only [Cst.canonical, Bool.not_eq_true'] at hc
    split at hk
    · rename_i j hj
      split at hk
      · rename_i hle
        simp only [Except.ok.injEq] at hk
        subst hk
        have htok := tok_of_canonical hc hj
        obtain ⟨tok, ok⟩ := n
        simp only at htok
        subst htok
        exact ⟨rfl, hle⟩
      · cases hk
    · cases hk
  · cases hk

theorem body_of_deString {c : Cst} {t : Text} (h : deString c = .ok t) : ∃ b, c = .str b ∧ strValue b = some t := by
  unfold deString at h
  split at h
  · rename_i b
    refine ⟨b, rfl, ?_⟩
    cases hb : strValue b with
    | none => rw [hb] at h; cases h
    | some s => rw [hb] at h; cases h; rfl
  · cases h

/-! ## The digest -/

theorem toNat_hexTable : ∀ n : Fin 16, (hexTable.getD n '0').toNat = if n.val < 10 then 0x30 + n.val else 0x57 + n.val := by
  decide

theorem byte_of_nibble {b : UInt8} {n : Nat} (h : nibble b = some n) :
    n < 16 ∧ b = (hexTable.getD n '0').toNat.toUInt8 := by
  have hn : n < 16 ∧ b.toNat = if n < 10 then 0x30 + n else 0x57 + n := by
    unfold nibble at h
    split at h
    · simp only [Option.some.injEq] at h
      rw [if_pos (by omega)]; omega
    · split at h
      · simp only [Option.some.injEq] at h
        rw [if_neg (by omega)]; omega
      · cases h
  refine ⟨hn.1, ?_⟩
  have ht := toNat_hexTable ⟨n, hn.1⟩
  simp only at ht
  rw [ht, ← hn.2]
  exact UInt8.ofNat_toNat.symm

theorem encode_of_decodePairs : ∀ (bs ds : Bytes), bs.length % 2 = 0 → decodePairs bs = some ds →
    (ds.flatMap fun b => [hexTable.getD (b.toNat / 16) '0', hexTable.getD (b.toNat % 16) '0']).map
      (fun c => c.toNat.toUInt8) = bs
  | [], ds, _, h => by
    simp only [decodePairs, Option.some.injEq] at h
    subst h; rfl
  | [_], _, hl, _ => by simp at hl
  | a :: b :: r, ds, hl, h => by
    simp only [decodePairs, Option.bind_eq_bind, Option.bind_eq_some_iff, Option.pure_def, Option.some.injEq] at h
    obtain ⟨hi, hhi, lo, hlo, rest, hrest, rfl⟩ := h
    obtain ⟨hi16, ha⟩ := byte_of_nibble hhi
    obtain ⟨lo16, hb⟩ := byte_of_nibble hlo
    have hv : (hi * 16 + lo).toUInt8.toNat = hi * 16 + lo := by
      rw [Nat.toUInt8, UInt8.toNat_ofNat']; omega
    have hdiv : (hi * 16 + lo) / 16 = hi := by omega
    have hmod : (hi * 16 + lo) % 16 = lo := by omega
    have ih := encode_of_decodePairs r rest (by simp only [List.length_cons] at hl; omega) hrest
    simp only [List.flatMap_cons, List.map_cons, List.cons_append, List.nil_append, hv, hdiv, hmod, ih, ← ha, ← hb]

/-- `decode_hex` inverts `encode_hex` and accepts nothing else. -/
theorem decodeHex_eq_some {t : Text} {h : Hash} : decodeHex t = some h ↔ t = encodeHex h := by
  constructor
  · intro hd
    unfold decodeHex at hd
    simp only [Option.bind_eq_bind] at hd
    split at hd
    · cases hd
    · rename_i hl
      obtain ⟨ds, hds, hd⟩ := Option.bind_eq_some_iff.mp hd
      split at hd
      · cases hd
        apply utf8_inj
        rw [utf8_ascii (encodeHex_ascii _)]
        exact (encode_of_decodePairs _ ds (by omega) hds).symm
      · cases hd
  · rintro rfl
    exact decodeHex_encodeHex h

theorem exists_hexTable {c : Char} (h : c ∈ hexTable) : ∃ n : Fin 16, c = hexTable.getD n '0' := by
  obtain ⟨i, hi, rfl⟩ := List.getElem_of_mem h
  exact ⟨⟨i, hi⟩, by simp [List.getD, hi]⟩

theorem exists_encode : ∀ (t : Text), t.length % 2 = 0 → (∀ c ∈ t, c ∈ hexTable) →
    ∃ bs : Bytes, 2 * bs.length = t.length ∧
      (bs.flatMap fun b => [hexTable.getD (b.toNat / 16) '0', hexTable.getD (b.toNat % 16) '0']) = t
  | [], _, _ => ⟨[], rfl, rfl⟩
  | [_], hl, _ => by simp at hl
  | a :: b :: r, hl, hc => by
    obtain ⟨hi, rfl⟩ := exists_hexTable (hc a (by simp))
    obtain ⟨lo, rfl⟩ := exists_hexTable (hc b (by simp))
    obtain ⟨bs, hlen, hbs⟩ := exists_encode r (by simp only [List.length_cons] at hl; omega)
      fun c h => hc c (List.mem_cons_of_mem _ (List.mem_cons_of_mem _ h))
    have hv : (hi.val * 16 + lo.val).toUInt8.toNat = hi * 16 + lo := by
      rw [Nat.toUInt8, UInt8.toNat_ofNat']; omega
    refine ⟨(hi.val * 16 + lo.val).toUInt8 :: bs, by simp only [List.length_cons]; omega, ?_⟩
    rw [List.flatMap_cons, hbs, hv, show (hi.val * 16 + lo.val) / 16 = hi by omega,
      show (hi.val * 16 + lo.val) % 16 = lo by omega]
    rfl

theorem encodeHex_mem (h : Hash) : ∀ c ∈ encodeHex h, c ∈ hexTable := by
  have ht : ∀ n : Fin 16, hexTable.getD n '0' ∈ hexTable := by decide
  intro c hc
  obtain ⟨b, -, hb⟩ := List.mem_flatMap.mp hc
  simp only [List.mem_cons, List.not_mem_nil, or_false] at hb
  rcases hb with rfl | rfl
  · exact ht ⟨b.toNat / 16, by have := b.toNat_lt; omega⟩
  · exact ht ⟨b.toNat % 16, by omega⟩

/-- The spelled digests are exactly the texts of sixty-four lowercase hexadecimal digits. -/
theorem exists_encodeHex {t : Text} : (∃ h, encodeHex h = t) ↔ t.length = 64 ∧ ∀ c ∈ t, c ∈ hexTable := by
  constructor
  · rintro ⟨h, rfl⟩
    exact ⟨length_encodeHex h, encodeHex_mem h⟩
  · rintro ⟨hl, hc⟩
    obtain ⟨bs, hlen, hbs⟩ := exists_encode t (by omega) hc
    exact ⟨⟨bs, by omega⟩, hbs⟩

/-! ## Documents -/

/-- An object whose decoded members are `fields`, each once, in any order. -/
def Cst.HasMembers (c : Cst) (fields : List (Text × Cst)) : Prop :=
  ∃ ms ns, c.members? = some ms ∧ memberNames ms = .ok ns ∧ ns.Perm fields

theorem memberNames_cons {m : List StrChar × Cst} {ms : List (List StrChar × Cst)} {ns : List (Text × Cst)} :
    memberNames (m :: ms) = .ok ns ↔ ∃ n rest, strValue m.1 = some n ∧ memberNames ms = .ok rest ∧ ns = (n, m.2) :: rest := by
  rw [memberNames, List.mapM_cons]
  cases hm : strValue m.1 with
  | none => simp [bind, Except.bind]
  | some n =>
    change ((memberNames ms) >>= fun rest => pure ((n, m.2) :: rest)) = .ok ns ↔ _
    cases memberNames ms with
    | error e => simp [bind, Except.bind]
    | ok rest => simp [bind, Except.bind, pure, Except.pure, eq_comm]

theorem canonical_members : ∀ (ms : Members) {ns : List (Text × Cst)}, memberNames ms.toList = .ok ns →
    (ms.canonical = true ↔ ∀ m ∈ ns, m.2.canonical = true)
  | .last _ k _ _ v _, ns, hn => by
    obtain ⟨n, rest, -, hr, rfl⟩ := memberNames_cons.mp hn
    cases hr
    simp [Members.canonical]
  | .more _ k _ _ v _ rest, ns, hn => by
    obtain ⟨n, ns, -, hr, rfl⟩ := memberNames_cons.mp hn
    rw [Members.canonical, Bool.and_eq_true, canonical_members rest hr]
    simp

theorem noDup_members [SerdeJson] : ∀ (ms : Members) {ns : List (Text × Cst)} {seen : List Text} (depth : Nat),
    memberNames ms.toList = .ok ns → (ns.map Prod.fst).Nodup → (∀ m ∈ ns, m.1 ∉ seen) → (∀ m ∈ ns, m.2.NoDup) →
    ms.dup depth seen ≠ .error .duplicate
  | .last _ k _ _ v _, ns, seen, depth, hn, _, hs, hv => by
    obtain ⟨n, rest, hk, -, rfl⟩ := memberNames_cons.mp hn
    simp only [Members.dup, hk, hs (n, v) (by simp), ite_false]
    exact hv (n, v) (by simp) depth
  | .more _ k _ _ v _ rest, ns, seen, depth, hn, hd, hs, hv => by
    obtain ⟨n, ns, hk, hr, rfl⟩ := memberNames_cons.mp hn
    rw [List.map_cons, List.nodup_cons] at hd
    simp only [Members.dup, hk, hs (n, v) (by simp), ite_false]
    intro h
    cases hm : v.dup depth with
    | error e =>
      rw [hm] at h
      exact hv (n, v) (by simp) depth (hm.trans (by simpa [bind, Except.bind] using h))
    | ok u =>
      rw [hm] at h
      refine noDup_members rest depth hr hd.2 ?_ (fun m hm => hv m (by simp [hm])) h
      intro m hm hmem
      rcases List.mem_cons.mp hmem with he | hmem
      · exact hd.1 (he ▸ List.mem_map.mpr ⟨m, hm, rfl⟩)
      · exact hs m (by simp [hm]) hmem

theorem Cst.HasMembers.canonical {c : Cst} {fields : List (Text × Cst)} (h : c.HasMembers fields) :
    c.canonical = true ↔ ∀ m ∈ fields, m.2.canonical = true := by
  obtain ⟨ms, ns, hm, hn, hp⟩ := h
  have hmem : (∀ m ∈ ns, m.2.canonical = true) ↔ ∀ m ∈ fields, m.2.canonical = true :=
    ⟨fun h m hm => h m (hp.mem_iff.mpr hm), fun h m hm => h m (hp.mem_iff.mp hm)⟩
  rw [← hmem]
  cases c with
  | obj0 w =>
    cases hm; cases hn
    simp [Cst.canonical]
  | obj ms' =>
    cases hm
    exact canonical_members ms' hn
  | _ => cases hm

theorem Cst.HasMembers.noDup [SerdeJson] {c : Cst} {fields : List (Text × Cst)} (h : c.HasMembers fields)
    (hf : (fields.map Prod.fst).Nodup) (hv : ∀ m ∈ fields, m.2.NoDup) : c.NoDup := by
  obtain ⟨ms, ns, hm, hn, hp⟩ := h
  intro depth hd
  cases c with
  | obj0 w =>
    rw [Cst.dup] at hd
    split at hd <;> cases hd
  | obj ms' =>
    cases hm
    rw [Cst.dup] at hd
    split at hd
    · cases hd
    · exact noDup_members ms' _ hn ((hp.map Prod.fst).nodup_iff.mpr hf) (by simp)
        (fun m hm => hv m (hp.mem_iff.mp hm)) hd
  | _ => cases hm

/-- A closed struct is read from an object with exactly its fields, or else from a positional array. -/
theorem deStruct_closed_iff {fs : List Field} {c : Cst} {cs : List Cst} (hn : (fieldNames fs).Nodup)
    (hr : ∀ f ∈ fs, f.default = false) (hl : cs.length = fs.length) :
    deStruct fs true c = .ok (cs.map some) ↔ c.HasMembers ((fieldNames fs).zip cs) ∨ c.elements? = some cs := by
  unfold deStruct Cst.HasMembers
  cases hm : c.members? with
  | some ms =>
    have he : c.elements? = none := by cases c <;> first | rfl | cases hm
    simp only [he, reduceCtorEq, or_false, Option.some.injEq]
    cases hns : memberNames ms with
    | error e => simp [bind, Except.bind, hns]
    | ok ns => simpa [bind, Except.bind, hns] using deMap_closed_iff hn hl
  | none =>
    simp only [reduceCtorEq, false_and, exists_false, false_or]
    cases he : c.elements? with
    | none => simp
    | some vs =>
      simp only [Option.some.injEq, deSeq]
      constructor
      · intro h
        split at h
        · cases h
        · split at h
          · cases h
          · rename_i h₁ h₂
            simp only [Except.ok.injEq] at h
            have hlen := congrArg List.length h
            simp only [List.length_append, List.length_map, List.length_drop, hl] at hlen
            have hdrop : fs.drop vs.length = [] := by
              cases hd : fs.drop vs.length with
              | nil => rfl
              | cons f fs' =>
                have hf : f ∈ fs := List.mem_of_mem_drop (hd ▸ List.mem_cons_self ..)
                rw [hd] at h₂
                simp [hr f hf] at h₂
            rw [hdrop, List.map_nil, List.append_nil] at h
            exact List.map_injective_iff.mpr (Option.some_injective _) h
      · rintro rfl
        rw [if_neg (by omega), List.drop_eq_nil_of_le (by omega)]
        simp

theorem openMetadata_eq_ok [SerdeJson] {what : Text} {max : Nat} {b : Bytes} {c : Cst} : openMetadata what max b = .ok c ↔
    b.length ≤ max ∧ ∃ d : Doc, b = utf8 d.text ∧ d.value = c ∧ c.dup recursionLimit ≠ .error .duplicate ∧
      c.canonical = true ∧ versionProbe storeVersionField c = .ok (some storeMetadataVersion) := by
  constructor
  · intro h
    unfold openMetadata at h
    split at h
    · cases h
    rename_i hl
    refine ⟨by omega, ?_⟩
    split at h
    · cases h
    rename_i text ht
    split at h
    · cases h
    rename_i hdup
    split at h
    · cases h
    rename_i hcan
    cases hp : parse text with
    | none => simp [fromStr, hp, bind, Except.bind] at h
    | some d =>
      obtain rfl := text_of_parse hp
      simp only [fromStr, hp, bind, Except.bind] at h
      rw [hasDuplicateMembers_doc, decide_eq_true_eq] at hdup
      rw [hasNoncanonicalIntegerToken_doc, Bool.not_eq_true', Bool.not_eq_false] at hcan
      cases hv : versionProbe storeVersionField d.value with
      | error e => simp [hv, Except.map] at h
      | ok v =>
        simp only [hv, Except.map] at h
        cases v with
        | none => cases h
        | some v =>
          simp only at h
          split at h
          · rename_i h2
            cases h
            exact ⟨d, fromUtf8_eq_some.mp ht, rfl, hdup, hcan, by rw [hv, h2]⟩
          · cases h
  · rintro ⟨hl, d, rfl, rfl, hdup, hcan, hv⟩
    unfold openMetadata
    rw [if_neg (by omega), fromUtf8_utf8]
    simp only [hasDuplicateMembers_doc, hdup, decide_false, hasNoncanonicalIntegerToken_doc, hcan, fromStr, parse_text]
    simp [bind, Except.bind, Except.map, hv]

theorem versionProbe_hasMembers {f : Field} {c : Cst} {fields : List (Text × Cst)} {v : Cst} (h : c.HasMembers fields)
    (hf : (fields.map Prod.fst).Nodup) (hd : f.default = true) (hv : (f.name, v) ∈ fields) :
    versionProbe f c = deOption deU64 v := by
  obtain ⟨ms, ns, hm, hn, hp⟩ := h
  have hnn : (ns.map Prod.fst).Nodup := (hp.map Prod.fst).nodup_iff.mpr hf
  have hlook : lookupMember ns f.name = some v := lookupMember_of_mem hnn (hp.mem_iff.mpr hv)
  have hmap : deMap [f] false ns = .ok [some v] := by
    rw [deMap_eq_ok]
    refine ⟨fun h => (by cases h), fun f _ => length_filter_name hnn f.name, ?_, ?_⟩
    · intro g hg hdef
      rw [List.mem_singleton.mp hg, hd] at hdef
      cases hdef
    · rw [List.map_cons, List.map_nil, hlook]
  rw [versionProbe, deStruct, hm]
  simp only [hn, bind, Except.bind, hmap, optional]

theorem Cst.members_of_elements {c : Cst} {vs : List Cst} (h : c.elements? = some vs) : c.members? = none := by
  cases c <;> first | rfl | cases h

theorem versionProbe_elements {f : Field} {c : Cst} {vs : List Cst} {v : Option Nat} (hc : c.elements? = some vs)
    (hp : versionProbe f c = .ok v) : vs.length ≤ 1 := by
  rw [versionProbe, deStruct, Cst.members_of_elements hc] at hp
  simp only [hc, deSeq, List.length_cons, List.length_nil] at hp
  by_cases hl : 0 + 1 < vs.length
  · rw [if_pos hl] at hp; cases hp
  · omega

section
variable {what : Text} {max : Nat} {b : Bytes} {fs : List Field} {cs : List Cst} {v : Cst}
  (hn : (fieldNames fs).Nodup) (hr : ∀ f ∈ fs, f.default = false) (hl : cs.length = fs.length)
  (hv : (storeVersionField.name, v) ∈ (fieldNames fs).zip cs)

include hn hl in
theorem zip_nodup : (((fieldNames fs).zip cs).map Prod.fst).Nodup := by
  rw [List.map_fst_zip (by simp [fieldNames, hl])]
  exact hn

include hn hr hl hv

/-- A closed struct read from an opened document stands there as one object: a positional array of its fields is
too long for the version probe. -/
theorem hasMembers_of_openMetadata [SerdeJson] {c : Cst} (h2 : 2 ≤ fs.length) (ho : openMetadata what max b = .ok c)
    (hd : deStruct fs true c = .ok (cs.map some)) :
    ∃ d : Doc, b = utf8 d.text ∧ d.value.HasMembers ((fieldNames fs).zip cs) ∧ (∀ x ∈ cs, x.canonical = true) ∧
      deOption deU64 v = .ok (some storeMetadataVersion) := by
  obtain ⟨-, d, hb, rfl, -, hcan, hp⟩ := openMetadata_eq_ok.mp ho
  rcases (deStruct_closed_iff hn hr hl).mp hd with hm | he
  · refine ⟨d, hb, hm, ?_, (versionProbe_hasMembers hm (zip_nodup hn hl) rfl hv).symm.trans hp⟩
    intro x hx
    have hx' : x ∈ ((fieldNames fs).zip cs).map Prod.snd := by
      rw [List.map_snd_zip (by simp [fieldNames, hl])]; exact hx
    obtain ⟨m, hmem, rfl⟩ := List.mem_map.mp hx'
    exact hm.canonical.mp hcan m hmem
  · have := versionProbe_elements he hp
    omega

theorem openMetadata_of_hasMembers [SerdeJson] {d : Doc} (hb : (utf8 d.text).length ≤ max)
    (hm : d.value.HasMembers ((fieldNames fs).zip cs)) (hcan : ∀ x ∈ cs, x.canonical = true)
    (hdup : ∀ x ∈ cs, x.NoDup) (hp : deOption deU64 v = .ok (some storeMetadataVersion)) :
    openMetadata what max (utf8 d.text) = .ok d.value ∧ deStruct fs true d.value = .ok (cs.map some) := by
  refine ⟨openMetadata_eq_ok.mpr ⟨hb, d, rfl, rfl, ?_, ?_, ?_⟩, (deStruct_closed_iff hn hr hl).mpr (Or.inl hm)⟩
  · exact hm.noDup (zip_nodup hn hl) (fun m h => hdup m.2 (List.of_mem_zip h).2) recursionLimit
  · exact hm.canonical.mpr fun m h => hcan m.2 (List.of_mem_zip h).2
  · rw [versionProbe_hasMembers hm (zip_nodup hn hl) rfl hv, hp]

end

theorem version_of_deOption {v : Cst} (hc : v.canonical = true) {k : Nat} (h : deOption deU64 v = .ok (some k)) :
    v = jsonNat k := by
  cases v with
  | null => cases h
  | num n =>
    simp only [deOption] at h
    cases hd : deU64 (.num n) with
    | error e => rw [hd] at h; cases h
    | ok j =>
      rw [hd] at h; cases h
      exact (jsonNat_of_deUnsigned hc hd).1
  | _ => cases h

/-! ## The commit point -/

def CommitPoint.IsDocument (p : CommitPoint) (b : Bytes) : Prop :=
  ∃ (d : Doc) (hex : List StrChar), b = utf8 d.text ∧
    d.value.HasMembers [("storeVersion".toList, jsonNat 2), ("generation".toList, jsonNat p.generation),
      ("committedBytes".toList, jsonNat p.committedBytes), ("committedEntries".toList, jsonNat p.committedEntries),
      ("sha256".toList, .str hex)] ∧
    strValue hex = some (encodeHex p.digest) ∧ 1 ≤ p.generation ∧ p.generation ≤ 10001 ∧
    p.committedEntries ≤ 10000 ∧ p.generation = p.committedEntries + 1 ∧ p.committedBytes ≤ 67108864

theorem CommitDto.de_eq_ok {c : Cst} {d : CommitDto} : CommitDto.de c = .ok d ↔
    ∃ v g b e h, deStruct commitFields true c = .ok ([v, g, b, e, h].map some) ∧ deU64 v = .ok d.storeVersion ∧
      deU64 g = .ok d.generation ∧ deU64 b = .ok d.committedBytes ∧ deU64 e = .ok d.committedEntries ∧
      deString h = .ok d.sha256 := by
  constructor
  · intro hd
    unfold CommitDto.de at hd
    cases hs : deStruct commitFields true c with
    | error e => rw [hs] at hd; cases hd
    | ok vs =>
      rw [hs] at hd
      simp only [bind, Except.bind] at hd
      split at hd
      · rename_i v g b e h
        refine ⟨v, g, b, e, h, rfl, ?_⟩
        cases hv : deU64 v with
        | error e => simp [hv] at hd
        | ok v' =>
        cases hg : deU64 g with
        | error e => simp [hv, hg] at hd
        | ok g' =>
        cases hb : deU64 b with
        | error e => simp [hv, hg, hb] at hd
        | ok b' =>
        cases he : deU64 e with
        | error e => simp [hv, hg, hb, he] at hd
        | ok e' =>
        cases hh : deString h with
        | error e => simp [hv, hg, hb, he, hh] at hd
        | ok h' =>
          simp only [hv, hg, hb, he, hh, pure, Except.pure, Except.ok.injEq] at hd
          subst hd
          exact ⟨rfl, rfl, rfl, rfl, rfl⟩
      · cases hd
  · rintro ⟨v, g, b, e, h, hs, hv, hg, hb, he, hh⟩
    rw [CommitDto.de, hs]
    simp only [List.map_cons, List.map_nil, bind, Except.bind, hv, hg, hb, he, hh, pure, Except.pure]

theorem CommitPoint.ofDto_iff {d : CommitDto} {max : Nat} {p : CommitPoint} : CommitPoint.ofDto d max = .ok p ↔
    p.Valid max ∧ d.generation = p.generation ∧ d.committedBytes = p.committedBytes ∧
      d.committedEntries = p.committedEntries ∧ d.sha256 = encodeHex p.digest := by
  constructor
  · intro h
    obtain ⟨hv, hg, hb, he⟩ := CommitPoint.ofDto_eq_ok h
    refine ⟨hv, hg, hb, he, decodeHex_eq_some.mp ?_⟩
    have hbytes := hv.bytes
    have hentries := hv.entries
    have hgen := hv.generation
    unfold CommitPoint.ofDto at h
    rw [if_neg (by omega), if_neg (by omega), if_neg (by omega), if_neg (by omega)] at h
    split at h
    · cases h
    · rename_i digest hd
      cases h
      exact hd
  · rintro ⟨hv, hg, hb, he, hs⟩
    have := CommitPoint.ofDto_dto hv
    unfold CommitPoint.ofDto CommitPoint.dto at this
    unfold CommitPoint.ofDto
    rw [hg, hb, he, hs]
    exact this

theorem CommitPoint.decode_eq_ok [SerdeJson] {b : Bytes} {max : Nat} {p : CommitPoint} : CommitPoint.decode b max = .ok p ↔
    ∃ c d, openMetadata commitWhat maxCommitMetadataBytes b = .ok c ∧ CommitDto.de c = .ok d ∧
      CommitPoint.ofDto d max = .ok p := by
  unfold CommitPoint.decode
  cases ho : openMetadata commitWhat maxCommitMetadataBytes b with
  | error e => simp [bind, Except.bind]
  | ok c =>
    cases hd : CommitDto.de c with
    | error e => simp [bind, Except.bind, hd]
    | ok d => simp [bind, Except.bind, hd]

theorem CommitPoint.decode_iff_isDocument [SerdeJson] {b : Bytes} {p : CommitPoint} (hb : b.length ≤ 4096) :
    CommitPoint.decode b 67108864 = .ok p ↔ p.IsDocument b := by
  rw [CommitPoint.decode_eq_ok]
  constructor
  · rintro ⟨c, d, ho, hd, hp⟩
    obtain ⟨hv, hg, hbytes, he, hs⟩ := CommitPoint.ofDto_iff.mp hp
    obtain ⟨v, g, b', e, h, hde, hv', hg', hb', he', hh'⟩ := CommitDto.de_eq_ok.mp hd
    obtain ⟨doc, hdoc, hm, hcan, hver⟩ := hasMembers_of_openMetadata commitFields_nodup (by decide) rfl
      (List.mem_cons_self ..) (by decide) ho hde
    simp only [List.forall_mem_cons] at hcan
    obtain ⟨cv, cg, cb, ce, -, -⟩ := hcan
    obtain ⟨hex, rfl, hhex⟩ := body_of_deString hh'
    obtain rfl := version_of_deOption cv hver
    obtain ⟨rfl, -⟩ := jsonNat_of_deUnsigned cg hg'
    obtain ⟨rfl, -⟩ := jsonNat_of_deUnsigned cb hb'
    obtain ⟨rfl, -⟩ := jsonNat_of_deUnsigned ce he'
    rw [hg, hbytes, he] at hm
    have hgen := hv.generation
    have hent : p.committedEntries ≤ 10000 := hv.entries
    exact ⟨doc, hex, hdoc, hm, by rw [hhex, hs], by omega, by omega, hent, hgen, hv.bytes⟩
  · rintro ⟨doc, hex, rfl, hm, hhex, h1, h2, h3, h4, h5⟩
    have hu : 67108864 ≤ u64Max := by decide
    have hstr : deString (.str hex) = .ok (encodeHex p.digest) := by rw [deString, hhex]; rfl
    obtain ⟨ho, hde⟩ : openMetadata commitWhat maxCommitMetadataBytes (utf8 doc.text) = .ok doc.value ∧
        deStruct commitFields true doc.value = .ok ([jsonNat 2, jsonNat p.generation, jsonNat p.committedBytes,
          jsonNat p.committedEntries, .str hex].map some) :=
      openMetadata_of_hasMembers (v := jsonNat 2) commitFields_nodup (by decide) rfl (List.mem_cons_self ..) hb hm
        (by simp [canonical_jsonNat, Cst.canonical]) (by simp [noDup_jsonNat, noDup_str]) (by rfl)
    refine ⟨doc.value, p.dto, ho, CommitDto.de_eq_ok.mpr ⟨_, _, _, _, _, hde, ?_⟩, ?_⟩
    · have hv2 : (2 : Nat) ≤ u64Max := by decide
      exact ⟨deUnsigned_jsonNat hv2, deUnsigned_jsonNat (by omega), deUnsigned_jsonNat (by omega),
        deUnsigned_jsonNat (by omega), hstr⟩
    · exact CommitPoint.ofDto_dto ⟨h5, h3, h4⟩

/-! ## The publication witness -/

def PublishWitness.IsDocument (w : PublishWitness) (b : Bytes) : Prop :=
  ∃ d : Doc, b = utf8 d.text ∧
    d.value.HasMembers [("storeVersion".toList, jsonNat 2), ("startedGeneration".toList, jsonNat w.startedGeneration),
      ("publishedGeneration".toList, jsonNat w.publishedGeneration)] ∧
    ((w.startedGeneration = 1 ∧ w.publishedGeneration = 0) ∨
      ∃ g, 1 ≤ g ∧ w.startedGeneration ≤ 10001 ∧ w.publishedGeneration = g ∧
        (w.startedGeneration = g ∨ w.startedGeneration = g + 1))

theorem PublishDto.de_eq_ok {c : Cst} {d : PublishDto} : PublishDto.de c = .ok d ↔
    ∃ v s p, deStruct publishFields true c = .ok ([v, s, p].map some) ∧ deU64 v = .ok d.storeVersion ∧
      deU64 s = .ok d.startedGeneration ∧ deU64 p = .ok d.publishedGeneration := by
  constructor
  · intro hd
    unfold PublishDto.de at hd
    cases hs : deStruct publishFields true c with
    | error e => rw [hs] at hd; cases hd
    | ok vs =>
      rw [hs] at hd
      simp only [bind, Except.bind] at hd
      split at hd
      · rename_i v s p
        refine ⟨v, s, p, rfl, ?_⟩
        cases hv : deU64 v with
        | error e => simp [hv] at hd
        | ok v' =>
        cases hs' : deU64 s with
        | error e => simp [hv, hs'] at hd
        | ok s' =>
        cases hp : deU64 p with
        | error e => simp [hv, hs', hp] at hd
        | ok p' =>
          simp only [hv, hs', hp, pure, Except.pure, Except.ok.injEq] at hd
          subst hd
          exact ⟨rfl, rfl, rfl⟩
      · cases hd
  · rintro ⟨v, s, p, hs, hv, hs', hp⟩
    rw [PublishDto.de, hs]
    simp only [List.map_cons, List.map_nil, bind, Except.bind, hv, hs', hp, pure, Except.pure]

theorem PublishWitness.valid_iff {w : PublishWitness} : w.Valid ↔
    ((w.startedGeneration = 1 ∧ w.publishedGeneration = 0) ∨
      ∃ g, 1 ≤ g ∧ w.startedGeneration ≤ 10001 ∧ w.publishedGeneration = g ∧
        (w.startedGeneration = g ∨ w.startedGeneration = g + 1)) := by
  have hm : maxJournalEntries + 1 = 10001 := rfl
  constructor
  · intro h
    have h₁ := h.started
    have h₂ := h.startedMax
    have h₄ := h.relation
    simp only [isClean, isInitializing, isPreparedSuccessor, Bool.or_eq_true, decide_eq_true_eq] at h₄
    by_cases h0 : w.publishedGeneration = 0
    · exact Or.inl (by omega)
    · exact Or.inr ⟨w.publishedGeneration, by omega, by omega, rfl, by omega⟩
  · intro h
    have hr : w.isClean || w.isInitializing || w.isPreparedSuccessor := by
      simp only [isClean, isInitializing, isPreparedSuccessor, Bool.or_eq_true, decide_eq_true_eq]
      rcases h with h | ⟨g, h⟩ <;> omega
    rcases h with h | ⟨g, h⟩
    · exact ⟨by omega, by omega, by omega, hr⟩
    · exact ⟨by omega, by omega, by omega, hr⟩

theorem PublishWitness.ofDto_iff {d : PublishDto} {w : PublishWitness} : PublishWitness.ofDto d = .ok w ↔
    w.Valid ∧ d.startedGeneration = w.startedGeneration ∧ d.publishedGeneration = w.publishedGeneration := by
  unfold PublishWitness.ofDto
  simp only
  constructor
  · intro h
    split at h
    · cases h
    · rename_i h₁
      split at h
      · cases h
      · rename_i h₂
        cases h
        exact ⟨⟨by simp only; omega, by simp only; omega, by simp only; omega,
          by simpa only [Bool.not_eq_true, Bool.not_eq_false'] using h₂⟩, rfl, rfl⟩
  · rintro ⟨hv, hs, hp⟩
    have h₁ := hv.started
    have h₂ := hv.startedMax
    have h₃ := hv.publishedMax
    rw [hs, hp, if_neg (by omega), hv.relation]; rfl

theorem PublishWitness.decode_eq_ok [SerdeJson] {b : Bytes} {w : PublishWitness} : PublishWitness.decode b = .ok w ↔
    ∃ c d, openMetadata publishWhat maxPublishMetadataBytes b = .ok c ∧ PublishDto.de c = .ok d ∧
      PublishWitness.ofDto d = .ok w := by
  unfold PublishWitness.decode
  cases ho : openMetadata publishWhat maxPublishMetadataBytes b with
  | error e => simp [bind, Except.bind]
  | ok c =>
    cases hd : PublishDto.de c with
    | error e => simp [bind, Except.bind, hd]
    | ok d => simp [bind, Except.bind, hd]

theorem PublishWitness.decode_iff_isDocument [SerdeJson] {b : Bytes} {w : PublishWitness} (hb : b.length ≤ 4096) :
    PublishWitness.decode b = .ok w ↔ w.IsDocument b := by
  rw [PublishWitness.decode_eq_ok]
  constructor
  · rintro ⟨c, d, ho, hd, hw⟩
    obtain ⟨hv, hs, hp⟩ := PublishWitness.ofDto_iff.mp hw
    obtain ⟨v, s, p, hde, hv', hs', hp'⟩ := PublishDto.de_eq_ok.mp hd
    obtain ⟨doc, hdoc, hm, hcan, hver⟩ := hasMembers_of_openMetadata publishFields_nodup (by decide) rfl
      (List.mem_cons_self ..) (by decide) ho hde
    simp only [List.forall_mem_cons] at hcan
    obtain ⟨cv, cs, cp, -⟩ := hcan
    obtain rfl := version_of_deOption cv hver
    obtain ⟨rfl, -⟩ := jsonNat_of_deUnsigned cs hs'
    obtain ⟨rfl, -⟩ := jsonNat_of_deUnsigned cp hp'
    rw [hs, hp] at hm
    exact ⟨doc, hdoc, hm, PublishWitness.valid_iff.mp hv⟩
  · rintro ⟨doc, rfl, hm, hv⟩
    have hw := PublishWitness.valid_iff.mpr hv
    have hu : maxJournalEntries + 1 ≤ u64Max := by decide
    have hv2 : (2 : Nat) ≤ u64Max := by decide
    obtain ⟨ho, hde⟩ : openMetadata publishWhat maxPublishMetadataBytes (utf8 doc.text) = .ok doc.value ∧
        deStruct publishFields true doc.value =
          .ok ([jsonNat 2, jsonNat w.startedGeneration, jsonNat w.publishedGeneration].map some) :=
      openMetadata_of_hasMembers (v := jsonNat 2) publishFields_nodup (by decide) rfl (List.mem_cons_self ..) hb hm
        (by simp [canonical_jsonNat]) (by simp [noDup_jsonNat]) (by rfl)
    refine ⟨doc.value, w.dto, ho, PublishDto.de_eq_ok.mpr ⟨_, _, _, hde, ?_⟩, ?_⟩
    · exact ⟨deUnsigned_jsonNat hv2, deUnsigned_jsonNat (Nat.le_trans hw.startedMax hu),
        deUnsigned_jsonNat (Nat.le_trans hw.publishedMax hu)⟩
    · exact PublishWitness.ofDto_iff.mpr ⟨hw, rfl, rfl⟩

/-! ## The main result -/

theorem CommitPoint.decode_forPrefix [SerdeJson] {pre : Bytes} {n : Nat} (hn : n ≤ 10000) (hl : pre.length ≤ u64Max) :
    CommitPoint.decode (CommitPoint.forPrefix pre n).encode 67108864 =
      CommitPoint.ofDto (CommitPoint.forPrefix pre n).dto 67108864 := by
  have hu : 10001 ≤ u64Max := by decide
  exact CommitPoint.decode_encode ⟨by simp only [forPrefix]; omega, hl, by simp only [forPrefix]; omega⟩ _

theorem CommitPoint.decode_forPrefix_long [SerdeJson] {pre : Bytes} {n : Nat} (hn : n ≤ 10000) (hl : pre.length ≤ u64Max)
    (h : 67108864 < pre.length) : CommitPoint.decode (CommitPoint.forPrefix pre n).encode 67108864 =
      .error (.corrupt "committedBytes exceeds the journal byte bound".toList) := by
  rw [CommitPoint.decode_forPrefix hn hl]
  unfold CommitPoint.ofDto
  exact if_pos h

/-- The two decoders accept exactly their documents, read back what the encoders write, and refuse every torn
document. -/
theorem metadata_language [SerdeJson] :
    (∀ (b : Bytes) (p : CommitPoint), b.length ≤ 4096 → (CommitPoint.decode b 67108864 = .ok p ↔ p.IsDocument b)) ∧
    (∀ t : Text, (∃ h, encodeHex h = t) ↔ t.length = 64 ∧ ∀ c ∈ t, c ∈ hexTable) ∧
    (∀ (b : Bytes) (w : PublishWitness), b.length ≤ 4096 → (PublishWitness.decode b = .ok w ↔ w.IsDocument b)) ∧
    (∀ (pre : Bytes) (n : Nat), n ≤ 10000 → pre.length ≤ 67108864 →
      CommitPoint.decode (CommitPoint.forPrefix pre n).encode 67108864 = .ok (CommitPoint.forPrefix pre n)) ∧
    (∀ w : PublishWitness, w.Valid → PublishWitness.decode w.encode = .ok w) ∧
    (∀ (p : CommitPoint) (b : Bytes), b <+: p.encode → b ≠ p.encode →
      ∃ detail, CommitPoint.decode b 67108864 = .error (.corrupt detail)) ∧
    (∀ (w : PublishWitness) (b : Bytes), b <+: w.encode → b ≠ w.encode →
      ∃ detail, PublishWitness.decode b = .error (.corrupt detail)) := by
  refine ⟨fun b p hb => CommitPoint.decode_iff_isDocument hb, fun t => exists_encodeHex,
    fun b w hb => PublishWitness.decode_iff_isDocument hb, ?_, fun w hw => PublishWitness.decode_encode hw,
    fun p b hb hne => CommitPoint.decode_torn _ hb hne, fun w b hb hne => PublishWitness.decode_torn hb hne⟩
  intro pre n hn hl
  have hu : 67108864 ≤ u64Max := by decide
  rw [CommitPoint.decode_forPrefix hn (Nat.le_trans hl hu)]
  exact CommitPoint.ofDto_dto ⟨hl, hn, rfl⟩

open Sample in
/-- `for_prefix` writes a point for any prefix; one byte above the journal bound it no longer reads back. -/
theorem long_prefix_not_read_back :
    CommitPoint.decode (CommitPoint.forPrefix (List.replicate 67108865 0x20) 1).encode 67108864 ≠
      .ok (CommitPoint.forPrefix (List.replicate 67108865 0x20) 1) := by
  have hlen : (List.replicate 67108865 (0x20 : UInt8)).length = 67108865 := List.length_replicate
  have hu : 67108865 ≤ u64Max := by decide
  rw [CommitPoint.decode_forPrefix_long (by decide) (by rw [hlen]; exact hu) (by rw [hlen]; decide)]
  intro h
  cases h

end Aizign
