import Aizign.Json

/-!
# UTF-8 and UTF-16

`utf8`/`fromUtf8` are the two directions of UTF-8 over byte lists, with
`fromUtf8_eq_some` the fact everything else uses. `fromUtf16` reads UTF-16
code units and fails on a surrogate that is not half of a pair.
-/

namespace Aizign

abbrev Bytes := List UInt8

def utf8 (t : Text) : Bytes := t.flatMap String.utf8EncodeChar

def fromUtf8 (b : Bytes) : Option Text := b.toByteArray.utf8Decode?.map Array.toList

theorem utf8_append (s t : Text) : utf8 (s ++ t) = utf8 s ++ utf8 t := by simp [utf8]

theorem utf8_isPrefix {s t : Text} (h : s <+: t) : utf8 s <+: utf8 t := by
  obtain ⟨r, rfl⟩ := h
  rw [utf8_append]
  exact List.prefix_append _ _

theorem utf8_eq_utf8Encode (t : Text) : (utf8 t).toByteArray = t.utf8Encode := rfl

theorem fromUtf8_utf8 (t : Text) : fromUtf8 (utf8 t) = some t := by
  simp [fromUtf8, utf8_eq_utf8Encode]

theorem toByteArray_inj {a b : Bytes} (h : a.toByteArray = b.toByteArray) : a = b := by
  have := congrArg (fun x => x.data.toList) h
  simpa using this

theorem fromUtf8_eq_some {b : Bytes} {t : Text} : fromUtf8 b = some t ↔ b = utf8 t := by
  constructor
  · intro h
    have hs : b.toByteArray.utf8Decode?.isSome := by
      cases hd : b.toByteArray.utf8Decode? with
      | none => rw [fromUtf8, hd] at h; cases h
      | some a => rfl
    have he := ByteArray.utf8Encode_get_utf8Decode? (h := hs)
    have ht : (b.toByteArray.utf8Decode?.get hs).toList = t := by
      rw [fromUtf8, Option.map_eq_some_iff] at h
      obtain ⟨a, ha, hat⟩ := h
      simp only [ha, Option.get_some, hat]
    rw [ht] at he
    exact toByteArray_inj (he ▸ (utf8_eq_utf8Encode t).symm)
  · rintro rfl; exact fromUtf8_utf8 t

theorem utf8_inj {s t : Text} (h : utf8 s = utf8 t) : s = t := by
  have := fromUtf8_utf8 s
  rw [h, fromUtf8_utf8] at this
  exact (Option.some.inj this).symm

/-! ## ASCII -/

def isAscii (t : Text) : Bool := t.all fun c => decide (c.toNat < 0x80)

theorem utf8EncodeChar_ascii {c : Char} (h : c.toNat < 0x80) : String.utf8EncodeChar c = [c.toNat.toUInt8] := by
  have hs : c.utf8Size = 1 := by
    have : c.val ≤ 0x7f := by
      rw [UInt32.le_iff_toNat_le]
      have : c.val.toNat < 0x80 := h
      simp; omega
    simp [Char.utf8Size, this]
  rw [String.utf8EncodeChar_eq_singleton hs]
  rfl

theorem utf8_ascii {t : Text} (h : isAscii t = true) : utf8 t = t.map fun c => c.toNat.toUInt8 := by
  induction t with
  | nil => rfl
  | cons c t ih =>
    simp only [isAscii, List.all_cons, Bool.and_eq_true, decide_eq_true_eq] at h
    have ht : utf8 t = t.map fun c => c.toNat.toUInt8 := ih h.2
    simp only [utf8, List.flatMap_cons, List.map_cons] at ht ⊢
    rw [ht, utf8EncodeChar_ascii h.1]
    rfl

theorem length_utf8_ascii {t : Text} (h : isAscii t = true) : (utf8 t).length = t.length := by
  rw [utf8_ascii h, List.length_map]

theorem isAscii_append (s t : Text) : isAscii (s ++ t) = (isAscii s && isAscii t) := by simp [isAscii]

theorem isAscii_cons (c : Char) (t : Text) : isAscii (c :: t) = (decide (c.toNat < 0x80) && isAscii t) := by
  simp [isAscii]

/-- A byte prefix of an ASCII text is the UTF-8 form of a prefix of that text. -/
theorem prefix_utf8_ascii {t : Text} (h : isAscii t = true) {p : Bytes} (hp : p <+: utf8 t) :
    p = utf8 (t.take p.length) ∧ isAscii (t.take p.length) = true := by
  have ha : isAscii (t.take p.length) = true := by
    rw [isAscii, List.all_eq_true] at h ⊢
    exact fun c hc => h c (List.mem_of_mem_take hc)
  refine ⟨?_, ha⟩
  rw [utf8_ascii ha, List.map_take, ← utf8_ascii h]
  exact (List.prefix_iff_eq_take.mp hp)

theorem toNat_ofNat_ascii {n : Nat} (h : n < 0x80) : (Char.ofNat n).toNat = n := by
  have hv : n.isValidChar := Or.inl (by omega)
  rw [Char.ofNat, dif_pos hv]
  rfl

/-- A text whose UTF-8 bytes are all below 128 is ASCII. -/
theorem isAscii_of_utf8 {t : Text} (h : ∀ b ∈ utf8 t, b.toNat < 0x80) : isAscii t = true := by
  have ha : isAscii ((utf8 t).map fun b => Char.ofNat b.toNat) = true := by
    rw [isAscii, List.all_eq_true]
    intro c hc
    obtain ⟨b, hb, rfl⟩ := List.mem_map.mp hc
    rw [toNat_ofNat_ascii (h b hb)]
    exact decide_eq_true (h b hb)
  have he : utf8 ((utf8 t).map fun b => Char.ofNat b.toNat) = utf8 t := by
    rw [utf8_ascii ha, List.map_map]
    refine (List.map_congr_left ?_).trans (List.map_id _)
    intro b hb
    simp only [Function.comp, toNat_ofNat_ascii (h b hb), id]
    exact UInt8.ofNat_toNat
  rwa [utf8_inj he] at ha

/-! ## UTF-16 -/

def isHighSurrogate (u : Nat) : Bool := decide (0xd800 ≤ u) && decide (u ≤ 0xdbff)

def isLowSurrogate (u : Nat) : Bool := decide (0xdc00 ≤ u) && decide (u ≤ 0xdfff)

def utf16Char (c : Char) : List Nat :=
  if c.toNat < 0x10000 then [c.toNat]
  else [0xd800 + (c.toNat - 0x10000) / 0x400, 0xdc00 + (c.toNat - 0x10000) % 0x400]

def utf16 (t : Text) : List Nat := t.flatMap utf16Char

def fromUtf16 : List Nat → Option Text
  | [] => some []
  | u :: r =>
    if isHighSurrogate u then
      match r with
      | [] => none
      | l :: r' =>
        if isLowSurrogate l then
          (fromUtf16 r').map (Char.ofNat (0x10000 + (u - 0xd800) * 0x400 + (l - 0xdc00)) :: ·)
        else none
    else if isLowSurrogate u then none
    else (fromUtf16 r).map (Char.ofNat u :: ·)

theorem toNat_cases (c : Char) : c.toNat < 0xd800 ∨ (0xdfff < c.toNat ∧ c.toNat < 0x110000) := c.valid

theorem fromUtf16_char (c : Char) (r : List Nat) : fromUtf16 (utf16Char c ++ r) = (fromUtf16 r).map (c :: ·) := by
  have hc := toNat_cases c
  unfold utf16Char
  split
  · rename_i h
    have h₁ : isHighSurrogate c.toNat = false := by simp [isHighSurrogate]; omega
    have h₂ : isLowSurrogate c.toNat = false := by simp [isLowSurrogate]; omega
    rw [List.singleton_append, fromUtf16.eq_def]
    simp [h₁, h₂, Char.ofNat_toNat]
  · rename_i h
    have h₁ : isHighSurrogate (0xd800 + (c.toNat - 0x10000) / 0x400) = true := by simp [isHighSurrogate]; omega
    have h₂ : isLowSurrogate (0xdc00 + (c.toNat - 0x10000) % 0x400) = true := by simp [isLowSurrogate]; omega
    have h₃ : 0x10000 + (0xd800 + (c.toNat - 0x10000) / 0x400 - 0xd800) * 0x400
        + (0xdc00 + (c.toNat - 0x10000) % 0x400 - 0xdc00) = c.toNat := by omega
    simp only [List.cons_append, List.nil_append, fromUtf16, h₁, h₂, ite_true, h₃, Char.ofNat_toNat]

theorem fromUtf16_utf16 (t : Text) : fromUtf16 (utf16 t) = some t := by
  induction t with
  | nil => rfl
  | cons c t ih =>
    have : utf16 (c :: t) = utf16Char c ++ utf16 t := by simp [utf16]
    rw [this, fromUtf16_char, ih]; rfl

end Aizign
