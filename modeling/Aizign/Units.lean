import Aizign.Unicode

/-!
# Texts as code units

A scanner over code units sees a text through its encoding. All it can rely on
here is that an ASCII character is the one unit of its code and that every unit
of another character is above the ASCII range, which UTF-8 and UTF-16 share.
-/

namespace Aizign

abbrev Units := List Nat

instance (u : Units) (l : List Units) : Decidable (u ∈ l) := List.instDecidableMemOfLawfulBEq u l

structure Encoding where
  char : Char → Units
  ascii : ∀ c, c.toNat < 0x80 → char c = [c.toNat]
  high : ∀ c, 0x80 ≤ c.toNat → char c ≠ [] ∧ ∀ u ∈ char c, 0x80 ≤ u

def Encoding.text (E : Encoding) (t : Text) : Units := t.flatMap E.char

theorem utf8EncodeChar_high {c : Char} (h : 0x80 ≤ c.toNat) {b : UInt8} (hb : b ∈ String.utf8EncodeChar c) :
    0x80 ≤ b.toNat := by
  have hv : 0x80 ≤ c.val.toNat := h
  unfold String.utf8EncodeChar at hb
  simp only at hb
  split at hb
  · omega
  · split at hb
    · simp only [List.mem_cons, List.not_mem_nil, or_false] at hb
      rcases hb with rfl | rfl <;> rw [UInt8.toNat_ofNat'] <;> omega
    · split at hb
      · simp only [List.mem_cons, List.not_mem_nil, or_false] at hb
        rcases hb with rfl | rfl | rfl <;> rw [UInt8.toNat_ofNat'] <;> omega
      · simp only [List.mem_cons, List.not_mem_nil, or_false] at hb
        rcases hb with rfl | rfl | rfl | rfl <;> rw [UInt8.toNat_ofNat'] <;> omega

def utf8Encoding : Encoding where
  char c := (String.utf8EncodeChar c).map UInt8.toNat
  ascii c h := by
    rw [utf8EncodeChar_ascii h, List.map_cons, List.map_nil, Nat.toUInt8, UInt8.toNat_ofNat', Nat.mod_eq_of_lt (by omega)]
  high c h := by
    refine ⟨by simp [String.utf8EncodeChar_ne_nil], fun u hu => ?_⟩
    obtain ⟨b, hb, rfl⟩ := List.mem_map.mp hu
    exact utf8EncodeChar_high h hb

def utf16Encoding : Encoding where
  char := utf16Char
  ascii c h := by simp [utf16Char, show c.toNat < 0x10000 by omega]
  high c h := by
    unfold utf16Char
    split
    · simpa using h
    · refine ⟨by simp, fun u hu => ?_⟩
      simp only [List.mem_cons, List.not_mem_nil, or_false] at hu
      omega

theorem utf8Encoding_text (t : Text) : utf8Encoding.text t = (utf8 t).map UInt8.toNat := by
  simp [Encoding.text, utf8, utf8Encoding, List.map_flatMap]

theorem utf16Encoding_text (t : Text) : utf16Encoding.text t = utf16 t := rfl

section
variable (E : Encoding)

theorem Encoding.text_nil : E.text [] = [] := rfl

theorem Encoding.text_cons (c : Char) (t : Text) : E.text (c :: t) = E.char c ++ E.text t := by simp [Encoding.text]

theorem Encoding.text_append (s t : Text) : E.text (s ++ t) = E.text s ++ E.text t := by simp [Encoding.text]

theorem Encoding.text_cons_ascii {c : Char} (h : c.toNat < 0x80) (t : Text) : E.text (c :: t) = c.toNat :: E.text t := by
  rw [E.text_cons, E.ascii c h, List.singleton_append]

theorem Encoding.text_ascii {t : Text} (h : isAscii t = true) : E.text t = t.map Char.toNat := by
  induction t with
  | nil => rfl
  | cons c t ih =>
    rw [isAscii_cons, Bool.and_eq_true, decide_eq_true_eq] at h
    rw [E.text_cons_ascii h.1, ih h.2, List.map_cons]

theorem Encoding.length_char_pos (c : Char) : 0 < (E.char c).length := by
  by_cases h : c.toNat < 0x80
  · rw [E.ascii c h]; exact Nat.one_pos
  · exact List.length_pos_iff.mpr (E.high c (by omega)).1

/-- The first unit of a text: the code of an ASCII character, or something above. -/
theorem Encoding.char_cases (c : Char) : (c.toNat < 0x80 ∧ E.char c = [c.toNat]) ∨
    (0x80 ≤ c.toNat ∧ ∃ u r, E.char c = u :: r ∧ 0x80 ≤ u ∧ ∀ v ∈ r, 0x80 ≤ v) := by
  by_cases h : c.toNat < 0x80
  · exact .inl ⟨h, E.ascii c h⟩
  · obtain ⟨hne, hall⟩ := E.high c (by omega)
    obtain ⟨u, r, hu⟩ := List.exists_cons_of_ne_nil hne
    rw [hu, List.forall_mem_cons] at hall
    exact .inr ⟨by omega, u, r, hu, hall⟩

/-- An ASCII unit at the head of a text is its first character. -/
theorem Encoding.ascii_head {t : Text} {u : Nat} {r : Units} (hu : u < 0x80) (h : E.text t = u :: r) :
    ∃ c t', t = c :: t' ∧ c.toNat = u ∧ E.text t' = r := by
  cases t with
  | nil => cases h
  | cons c t =>
    rw [E.text_cons] at h
    rcases E.char_cases c with ⟨-, hc⟩ | ⟨-, v, s, hc, hv, -⟩
    · rw [hc, List.singleton_append, List.cons.injEq] at h
      exact ⟨c, t, rfl, h⟩
    · rw [hc, List.cons_append, List.cons.injEq] at h
      omega

theorem Encoding.text_eq_nil {t : Text} : E.text t = [] ↔ t = [] := by
  constructor
  · intro h
    cases t with
    | nil => rfl
    | cons c t =>
      rw [E.text_cons, List.append_eq_nil_iff] at h
      have := E.length_char_pos c
      rw [h.1] at this
      cases this
  · rintro rfl; rfl

end

end Aizign
