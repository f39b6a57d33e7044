import Aizign.JsonToken
import Aizign.JsonSound

/-!
# String tokens of the raw scan

`end_of_string` and `string_token_state` on an encoded text: together they
accept exactly the string bodies of the grammar, and the second finds a lone
surrogate exactly where the body has no decoded value.
-/

namespace Aizign

/-! ## Where a string ends -/

theorem endOfString_cons (u : Nat) (r : Units) : endOfString (u :: r) =
    if u = '\\'.toNat then r.tail?.elim none fun s => (endOfString s).map (· + 2)
    else if u = '"'.toNat then some 1
    else (endOfString r).map (· + 1) := by
  cases r with
  | nil =>
    simp only [endOfString, List.tail?_nil, Option.elim_none, Option.map_none]
    by_cases h : u = '\\'.toNat
    · subst h; rfl
    · simp only [h, ite_false]
  | cons v r => simp only [endOfString, List.tail?_cons, Option.elim_some]

theorem endOfString_quote (r : Units) : endOfString ('"'.toNat :: r) = some 1 := by
  rw [endOfString_cons]; rfl

theorem endOfString_escape (e : Nat) (r : Units) :
    endOfString ('\\'.toNat :: e :: r) = (endOfString r).map (· + 2) := by
  rw [endOfString_cons]; rfl

def Ordinary (u : Nat) : Prop := u ≠ '\\'.toNat ∧ u ≠ '"'.toNat

theorem ordinary_of_high {u : Nat} (h : 0x80 ≤ u) : Ordinary u := by
  have h₁ : '\\'.toNat = 92 := rfl
  have h₂ : '"'.toNat = 34 := rfl
  exact ⟨by omega, by omega⟩

theorem endOfString_ordinary {us : Units} (h : ∀ u ∈ us, Ordinary u) (r : Units) :
    endOfString (us ++ r) = (endOfString r).map (· + us.length) := by
  induction us with
  | nil => simp
  | cons u us ih =>
    rw [List.forall_mem_cons] at h
    rw [List.cons_append, endOfString_cons, if_neg h.1.1, if_neg h.1.2, ih h.2, Option.map_map, List.length_cons]
    rfl

theorem endOfString_pos {r : Units} {k : Nat} (h : endOfString r = some k) : 0 < k := by
  cases r with
  | nil => cases h
  | cons u r =>
    rw [endOfString_cons] at h
    split at h
    · cases r with
      | nil => cases h
      | cons v r =>
        obtain ⟨j, -, rfl⟩ := Option.map_eq_some_iff.mp h
        omega
    · split at h
      · cases h; omega
      · obtain ⟨j, -, rfl⟩ := Option.map_eq_some_iff.mp h
        omega

/-! ## Characters by their codes -/

theorem char_le_iff {a b : Char} : a ≤ b ↔ a.toNat ≤ b.toNat := by
  rw [Char.le_def, UInt32.le_iff_toNat_le]
  rfl

theorem isDigit_iff (c : Char) : c.isDigit = isDigitUnit c.toNat := by
  simp only [Char.isDigit, isDigitUnit, ge_iff_le, UInt32.le_iff_toNat_le]
  rfl

theorem hexUnit_toNat (c : Char) : hexUnit c.toNat = if isHex c then some (hexDigit c) else none := by
  have hd := isDigit_iff c
  have e₁ : ('a' ≤ c) ↔ 'a'.toNat ≤ c.toNat := char_le_iff
  have e₂ : (c ≤ 'f') ↔ c.toNat ≤ 'f'.toNat := char_le_iff
  have e₃ : ('A' ≤ c) ↔ 'A'.toNat ≤ c.toNat := char_le_iff
  have e₄ : (c ≤ 'F') ↔ c.toNat ≤ 'F'.toNat := char_le_iff
  have n₁ : 'a'.toNat = 97 := rfl
  have n₂ : 'f'.toNat = 102 := rfl
  have n₃ : 'A'.toNat = 65 := rfl
  have n₄ : 'F'.toNat = 70 := rfl
  have n₅ : '0'.toNat = 48 := rfl
  have n₆ : '9'.toNat = 57 := rfl
  simp only [isDigitUnit] at hd
  unfold hexUnit isHex hexDigit
  rw [hd]
  simp only [Bool.or_eq_true, Bool.and_eq_true, decide_eq_true_eq, e₁, e₂, e₃, e₄]
  split
  · rename_i h
    rw [if_pos (by omega)]
  · rename_i h
    split
    · rename_i h'
      rw [if_pos (by omega), if_pos (by omega)]
    · rename_i h'
      split
      · rw [if_pos (by omega), if_neg (by omega)]
      · rw [if_neg (by omega)]

theorem hex_ascii {c : Char} (h : isHex c = true) : c.toNat < 0x80 := by
  have := hexUnit_toNat c
  rw [if_pos h] at this
  unfold hexUnit at this
  have n₂ : 'f'.toNat = 102 := rfl
  have n₄ : 'F'.toNat = 70 := rfl
  have n₆ : '9'.toNat = 57 := rfl
  split at this
  · omega
  · split at this
    · omega
    · split at this
      · omega
      · cases this

theorem ordinary_of_hex {c : Char} (h : isHex c = true) : Ordinary c.toNat := by
  constructor
  · intro he
    rw [show c = '\\' from Char.toNat_inj.mp he] at h
    cases h
  · intro he
    rw [show c = '"' from Char.toNat_inj.mp he] at h
    cases h

theorem hexUnit_lt {u x : Nat} (h : hexUnit u = some x) : u < 0x80 := by
  unfold hexUnit at h
  have n₂ : 'f'.toNat = 102 := rfl
  have n₄ : 'F'.toNat = 70 := rfl
  have n₆ : '9'.toNat = 57 := rfl
  split at h
  · omega
  · split at h
    · omega
    · split at h
      · omega
      · cases h

theorem isEscape_toNat (c : Char) : isEscapeUnit c.toNat = isEscape c := by
  have h : ∀ d : Char, (c.toNat == d.toNat) = (c == d) := by
    intro d
    by_cases hd : c = d
    · subst hd; simp
    · rw [beq_eq_false_iff_ne.mpr hd, beq_eq_false_iff_ne.mpr fun e => hd (Char.toNat_inj.mp e)]
  simp only [isEscapeUnit, isEscape, h]

theorem escapeUnit_lt {u : Nat} (h : isEscapeUnit u = true) : u < 0x80 := by
  simp only [isEscapeUnit, Bool.or_eq_true, beq_iff_eq] at h
  rcases h with ((((((h | h) | h) | h) | h) | h) | h) | h <;> subst h <;> decide

/-! ## Bodies are accepted -/

section
variable (E : Encoding)

theorem text_hex4 {a b c d : Char} (h : (isHex a && isHex b && isHex c && isHex d) = true) (t : Text) :
    E.text (a :: b :: c :: d :: t) = a.toNat :: b.toNat :: c.toNat :: d.toNat :: E.text t := by
  simp only [Bool.and_eq_true] at h
  rw [E.text_cons_ascii (hex_ascii h.1.1.1), E.text_cons_ascii (hex_ascii h.1.1.2),
    E.text_cons_ascii (hex_ascii h.1.2), E.text_cons_ascii (hex_ascii h.2)]

theorem hex4_text {a b c d : Char} (h : (isHex a && isHex b && isHex c && isHex d) = true) (r : Units) :
    hex4 (a.toNat :: b.toNat :: c.toNat :: d.toNat :: r) =
      some (((hexDigit a * 16 + hexDigit b) * 16 + hexDigit c) * 16 + hexDigit d) := by
  simp only [Bool.and_eq_true] at h
  simp [hex4, hexUnit_toNat, h.1.1.1, h.1.1.2, h.1.2, h.2]

theorem hex_of_hex4 {t : Text} {x : Nat} (h : hex4 (E.text t) = some x) :
    ∃ a b c d t', t = a :: b :: c :: d :: t' ∧ (isHex a && isHex b && isHex c && isHex d) = true := by
  have take1 : ∀ {t : Text} {u : Nat} {r : Units} {y : Nat}, E.text t = u :: r → hexUnit u = some y →
      ∃ c t', t = c :: t' ∧ isHex c = true ∧ E.text t' = r := by
    intro t u r y ht hu
    obtain ⟨c, t', rfl, rfl, hr⟩ := E.ascii_head (hexUnit_lt hu) ht
    rw [hexUnit_toNat] at hu
    by_cases hc : isHex c = true
    · exact ⟨c, t', rfl, hc, hr⟩
    · rw [if_neg hc] at hu; cases hu
  unfold hex4 at h
  split at h
  · rename_i u₁ u₂ u₃ u₄ r ht
    simp only [Option.bind_eq_bind, Option.bind_eq_some_iff] at h
    obtain ⟨x₁, h₁, x₂, h₂, x₃, h₃, x₄, h₄, -⟩ := h
    obtain ⟨a, t₁, rfl, ha, ht₁⟩ := take1 ht h₁
    obtain ⟨b, t₂, rfl, hb, ht₂⟩ := take1 ht₁ h₂
    obtain ⟨c, t₃, rfl, hc, ht₃⟩ := take1 ht₂ h₃
    obtain ⟨d, t₄, rfl, hd, -⟩ := take1 ht₃ h₄
    exact ⟨a, b, c, d, t₄, rfl, by simp [ha, hb, hc, hd]⟩
  · cases h

theorem endOfString_strChar (c : StrChar) (r : Units) :
    endOfString (E.text c.text ++ r) = (endOfString r).map (· + (E.text c.text).length) := by
  cases c with
  | raw c ok =>
    simp only [isRaw, Bool.and_eq_true, bne_iff_ne, decide_eq_true_eq] at ok
    apply endOfString_ordinary
    intro u hu
    rw [StrChar.text, E.text_cons, E.text_nil, List.append_nil] at hu
    rcases E.char_cases c with ⟨-, hc⟩ | ⟨-, v, s, hc, hv, hs⟩
    · rw [hc, List.mem_singleton] at hu
      subst hu
      exact ⟨fun h => ok.1.2 (Char.toNat_inj.mp h), fun h => ok.1.1 (Char.toNat_inj.mp h)⟩
    · rw [hc] at hu
      rcases List.mem_cons.mp hu with rfl | hu
      · exact ordinary_of_high hv
      · exact ordinary_of_high (hs u hu)
  | esc e ok =>
    have he : e.toNat < 0x80 := escapeUnit_lt ((isEscape_toNat e).trans ok)
    rw [StrChar.text, E.text_cons_ascii (by decide), E.text_cons_ascii he, E.text_nil]
    exact endOfString_escape ..
  | uni a b c d ok =>
    have hall := ok
    simp only [Bool.and_eq_true] at hall
    rw [StrChar.text, E.text_cons_ascii (by decide), E.text_cons_ascii (by decide), text_hex4 E ok, E.text_nil]
    have hord : ∀ u ∈ [a.toNat, b.toNat, c.toNat, d.toNat], Ordinary u := by
      simp only [List.forall_mem_cons, List.not_mem_nil, false_implies, implies_true, and_true]
      exact ⟨ordinary_of_hex hall.1.1.1, ordinary_of_hex hall.1.1.2, ordinary_of_hex hall.1.2, ordinary_of_hex hall.2⟩
    have := endOfString_ordinary hord r
    simp only [List.cons_append, List.nil_append] at this ⊢
    rw [endOfString_escape, this, Option.map_map]
    rfl

theorem endOfString_body (b : List StrChar) (r : Units) :
    endOfString (E.text (bodyText b) ++ r) = (endOfString r).map (· + (E.text (bodyText b)).length) := by
  induction b with
  | nil => simp [bodyText, E.text_nil]
  | cons c b ih =>
    rw [bodyText_cons, E.text_append, List.append_assoc, endOfString_strChar, ih, Option.map_map, List.length_append]
    congr 1
    funext n
    simp only [Function.comp]
    omega

theorem stringTokenLoop_skip (a b : Nat) : ∀ {n : Nat} (v : Bool) {r : Units}, a ≤ n → a ≤ r.length →
    stringTokenLoop (a + b) n v r = stringTokenLoop b (n - a) v (r.drop a) := by
  induction a with
  | zero => intro n v r _ _; rw [Nat.zero_add, List.drop_zero, Nat.sub_zero]
  | succ a ih =>
    intro n v r hn hr
    obtain ⟨m, rfl⟩ : ∃ m, n = m + 1 := ⟨n - 1, by omega⟩
    cases r with
    | nil => simp at hr
    | cons u r =>
      rw [Nat.add_right_comm, stringTokenLoop, ih v (by omega) (by simpa using hr), List.drop_succ_cons,
        Nat.succ_sub_succ]

theorem stringTokenLoop_step {u : Nat} (h : u ≠ '\\'.toNat) (h' : 0x20 ≤ u) (n : Nat) (v : Bool) (r : Units) :
    stringTokenLoop 0 (n + 1) v (u :: r) = stringTokenLoop 0 n v r := by
  have hlt : ¬u < 0x20 := by omega
  cases r with
  | nil => rw [stringTokenLoop, if_neg hlt, if_neg h]
  | cons w r => rw [stringTokenLoop, if_neg hlt, if_neg h]

theorem stringTokenLoop_ordinary {us : Units} (h : ∀ u ∈ us, u ≠ '\\'.toNat ∧ 0x20 ≤ u) (n : Nat) (v : Bool) (r : Units) :
    stringTokenLoop 0 (us.length + n) v (us ++ r) = stringTokenLoop 0 n v r := by
  induction us with
  | nil => simp
  | cons u us ih =>
    rw [List.forall_mem_cons] at h
    rw [List.length_cons, Nat.add_right_comm, List.cons_append, stringTokenLoop_step h.1.1 h.1.2]
    exact ih h.2

theorem stringTokenLoop_raw {c : Char} (ok : isRaw c = true) (n : Nat) (v : Bool) (r : Units) :
    stringTokenLoop 0 ((E.char c).length + n) v (E.char c ++ r) = stringTokenLoop 0 n v r := by
  simp only [isRaw, Bool.and_eq_true, bne_iff_ne, decide_eq_true_eq] at ok
  apply stringTokenLoop_ordinary
  intro u hu
  rcases E.char_cases c with ⟨-, hc⟩ | ⟨-, w, s, hc, hw, hs⟩
  · rw [hc, List.mem_singleton] at hu
    subst hu
    exact ⟨fun h => ok.1.2 (Char.toNat_inj.mp h), ok.2⟩
  · have hu80 : 0x80 ≤ u := by
      rw [hc] at hu
      rcases List.mem_cons.mp hu with rfl | hu
      · exact hw
      · exact hs u hu
    exact ⟨(ordinary_of_high hu80).1, by omega⟩

theorem stringTokenLoop_esc {e : Nat} (he : isEscapeUnit e = true) (n : Nat) (v : Bool) (r : Units) :
    stringTokenLoop 0 (n + 2) v ('\\'.toNat :: e :: r) = stringTokenLoop 0 n v r := by
  rw [stringTokenLoop, if_neg (by decide), if_pos rfl]
  simp only [he, ite_true]
  rw [stringTokenLoop_skip 1 0 v (by omega) (by simp)]
  rfl

theorem length_of_hex4 {s : Units} {x : Nat} (h : hex4 s = some x) : 4 ≤ s.length := by
  unfold hex4 at h
  split at h
  · simp
  · cases h

/-- At `\uXXXX` the walk moves on behind it, unless half of a pair follows. -/
theorem stringTokenLoop_uni {x : Nat} {s : Units} (hx : hex4 s = some x) (n : Nat) (v : Bool)
    (hs : isHighSurrogate x = true → (s.drop 4).take 2 ≠ ['\\'.toNat, 'u'.toNat]) :
    stringTokenLoop 0 (n + 6) v ('\\'.toNat :: 'u'.toNat :: s) =
      stringTokenLoop 0 n (v && !(isHighSurrogate x || isLowSurrogate x)) (s.drop 4) := by
  have hu : isEscapeUnit 'u'.toNat = false := by decide
  have hl := length_of_hex4 hx
  have h5 : ∀ v, stringTokenLoop 5 (n + 5) v ('u'.toNat :: s) = stringTokenLoop 0 n v (s.drop 4) := by
    intro v
    rw [stringTokenLoop_skip 5 0 v (by omega) (by simpa using hl), Nat.add_sub_cancel]
    rfl
  rw [stringTokenLoop, if_neg (by decide), if_pos rfl]
  simp only [hu, Bool.false_eq_true, ite_false, ite_true, hx, h5]
  cases hh : isHighSurrogate x with
  | true => simp only [ite_true, hs hh, ite_false, Bool.true_or, Bool.not_true, Bool.and_false]
  | false =>
    cases hlow : isLowSurrogate x with
    | true => simp
    | false => simp

/-- Two escapes that may be a pair: the walk is behind the second one, or before it with the text found ill-formed. -/
theorem stringTokenLoop_pair {x y : Nat} {s s' : Units} (hx : hex4 s = some x) (hh : isHighSurrogate x = true)
    (hs : s.drop 4 = '\\'.toNat :: 'u'.toNat :: s') (hy : hex4 s' = some y) (n : Nat) (v : Bool) :
    stringTokenLoop 0 (n + 12) v ('\\'.toNat :: 'u'.toNat :: s) =
      if isLowSurrogate y then stringTokenLoop 0 n v (s'.drop 4)
      else stringTokenLoop 0 (n + 6) false ('\\'.toNat :: 'u'.toNat :: s') := by
  have hu : isEscapeUnit 'u'.toNat = false := by decide
  have hl := length_of_hex4 hx
  have hl' := length_of_hex4 hy
  have hlen : s.length = s'.length + 6 := by
    have := congrArg List.length hs
    simp only [List.length_drop, List.length_cons] at this
    omega
  have h6 : s.drop 6 = s' := by
    have : s.drop (4 + 2) = (s.drop 4).drop 2 := (List.drop_drop ..).symm
    rw [show 6 = 4 + 2 from rfl, this, hs]; rfl
  have h5 : stringTokenLoop 5 (n + 11) false ('u'.toNat :: s) = stringTokenLoop 0 (n + 6) false (s.drop 4) := by
    rw [stringTokenLoop_skip 5 0 false (by omega) (by simpa using hl), List.drop_succ_cons,
      show n + 11 - 5 = n + 6 by omega]
  have h11 : stringTokenLoop 11 (n + 11) v ('u'.toNat :: s) = stringTokenLoop 0 n v (s'.drop 4) := by
    rw [stringTokenLoop_skip 11 0 v (by omega) (by simp only [List.length_cons]; omega), Nat.add_sub_cancel,
      List.drop_succ_cons, show 10 = 6 + 4 from rfl, ← List.drop_drop, h6]
  rw [stringTokenLoop, if_neg (by decide), if_pos rfl]
  simp only [hu, Bool.false_eq_true, ite_false, ite_true, hx, hh, hs, List.take_succ_cons, List.take_zero, h6, hy, h5, h11]

/-! ## The decoded value of a body -/

theorem isSome_fromUtf16_cons {u : Nat} {r : List Nat} (hh : isHighSurrogate u = false) (hl : isLowSurrogate u = false) :
    (fromUtf16 (u :: r)).isSome = (fromUtf16 r).isSome := by
  rw [fromUtf16.eq_def]
  simp [hh, hl]

theorem fromUtf16_low {u : Nat} {r : List Nat} (hl : isLowSurrogate u = true) : fromUtf16 (u :: r) = none := by
  have hh : isHighSurrogate u = false := by
    simp only [isLowSurrogate, Bool.and_eq_true, decide_eq_true_eq] at hl
    simp only [isHighSurrogate, Bool.and_eq_false_iff, decide_eq_false_iff_not]
    omega
  rw [fromUtf16.eq_def]
  simp [hh, hl]

theorem isSome_fromUtf16_pair {u l : Nat} {r : List Nat} (hh : isHighSurrogate u = true) (hl : isLowSurrogate l = true) :
    (fromUtf16 (u :: l :: r)).isSome = (fromUtf16 r).isSome := by
  rw [fromUtf16.eq_def]
  simp [hh, hl]

theorem fromUtf16_lone {u : Nat} {r : List Nat} (hh : isHighSurrogate u = true)
    (hr : ∀ l ∈ r.head?, isLowSurrogate l = false) : fromUtf16 (u :: r) = none := by
  rw [fromUtf16.eq_def]
  cases r with
  | nil => simp [hh]
  | cons l r => simp [hh, hr l (by simp)]

theorem bodyUnits_cons (c : StrChar) (b : List StrChar) : bodyUnits (c :: b) = c.units ++ bodyUnits b := by
  simp [bodyUnits]

theorem escapeCode_lt {e : Char} (h : isEscape e = true) : escapeCode e < 0x80 := by
  have := escapeUnit_lt ((isEscape_toNat e).trans h)
  unfold escapeCode
  repeat' split
  all_goals omega

theorem not_surrogate_of_lt {u : Nat} (h : u < 0xd800) : isHighSurrogate u = false ∧ isLowSurrogate u = false := by
  simp only [isHighSurrogate, isLowSurrogate, Bool.and_eq_false_iff, decide_eq_false_iff_not]
  omega

/-- Only an escape can begin with a low surrogate. -/
theorem units_head (c : StrChar) (r : List Nat) : (∃ a b c' d ok, c = .uni a b c' d ok) ∨
    ∀ l ∈ (c.units ++ r).head?, isLowSurrogate l = false := by
  cases c with
  | uni a b c d ok => exact .inl ⟨a, b, c, d, ok, rfl⟩
  | raw c ok =>
    refine .inr fun l hl => ?_
    have hc := toNat_cases c
    rw [show (StrChar.raw c ok).units = utf16Char c from rfl, utf16Char] at hl
    split at hl
    · simp only [List.cons_append, List.head?_cons, Option.mem_def, Option.some.injEq] at hl
      subst hl
      simp only [isLowSurrogate, Bool.and_eq_false_iff, decide_eq_false_iff_not]
      omega
    · simp only [List.cons_append, List.head?_cons, Option.mem_def, Option.some.injEq] at hl
      subst hl
      simp only [isLowSurrogate, Bool.and_eq_false_iff, decide_eq_false_iff_not]
      omega
  | esc e ok =>
    refine .inr fun l hl => ?_
    simp only [StrChar.units, List.cons_append, List.head?_cons, Option.mem_def, Option.some.injEq] at hl
    subst hl
    have := escapeCode_lt ok
    exact (not_surrogate_of_lt (by omega)).2

theorem uniUnit_text {a b c d : Char} (ok : (isHex a && isHex b && isHex c && isHex d) = true) :
    (StrChar.uni a b c d ok).units = [((hexDigit a * 16 + hexDigit b) * 16 + hexDigit c) * 16 + hexDigit d] := rfl

theorem text_uni {a b c d : Char} (ok : (isHex a && isHex b && isHex c && isHex d) = true) :
    E.text (StrChar.uni a b c d ok).text =
      ['\\'.toNat, 'u'.toNat, a.toNat, b.toNat, c.toNat, d.toNat] := by
  rw [StrChar.text, E.text_cons_ascii (by decide), E.text_cons_ascii (by decide), text_hex4 E ok, E.text_nil]

/-- What follows a body in a text does not look like another escape. -/
theorem stringTokenLoop_uni_step {a b c d : Char} (ok : (isHex a && isHex b && isHex c && isHex d) = true) {x : Nat}
    (hx : (StrChar.uni a b c d ok).units = [x]) {r : Units} (n : Nat) (v : Bool)
    (hs : isHighSurrogate x = true → r.take 2 ≠ ['\\'.toNat, 'u'.toNat]) :
    stringTokenLoop 0 (n + 6) v (E.text (StrChar.uni a b c d ok).text ++ r) =
      stringTokenLoop 0 n (v && !(isHighSurrogate x || isLowSurrogate x)) r := by
  rw [uniUnit_text, List.cons.injEq] at hx
  rw [text_uni]
  simp only [List.cons_append, List.nil_append]
  rw [stringTokenLoop_uni (hx.1 ▸ hex4_text ok r) n v hs]
  rfl

theorem take_two_ne {r : Units} {q : Nat} (hq : q ≠ '\\'.toNat) : (q :: r).take 2 ≠ ['\\'.toNat, 'u'.toNat] := by
  intro h
  rw [List.take_succ_cons, List.cons.injEq] at h
  exact hq h.1

/-- A character that is not a `\uXXXX` escape is not taken for one. -/
theorem take_two_strChar {c : StrChar} (hc : ∀ a b c' d ok, c ≠ .uni a b c' d ok) (r : Units) :
    (E.text c.text ++ r).take 2 ≠ ['\\'.toNat, 'u'.toNat] := by
  cases c with
  | uni a b c d ok => exact absurd rfl (hc a b c d ok)
  | raw c ok =>
    simp only [isRaw, Bool.and_eq_true, bne_iff_ne, decide_eq_true_eq] at ok
    rw [StrChar.text, E.text_cons, E.text_nil, List.append_nil]
    rcases E.char_cases c with ⟨-, hc⟩ | ⟨-, w, s, hc, hw, -⟩
    · rw [hc]
      exact take_two_ne fun h => ok.1.2 (Char.toNat_inj.mp h)
    · rw [hc, List.cons_append]
      exact take_two_ne (ordinary_of_high hw).1
  | esc e ok =>
    have he : e.toNat < 0x80 := escapeUnit_lt ((isEscape_toNat e).trans ok)
    rw [StrChar.text, E.text_cons_ascii (by decide), E.text_cons_ascii he]
    intro h
    simp only [List.cons_append, List.take_succ_cons, List.take_zero, List.cons.injEq, true_and, and_true] at h
    rw [show e = 'u' from Char.toNat_inj.mp h] at ok
    cases ok

theorem stringTokenLoop_body_pair {a b c d : Char} (ok : (isHex a && isHex b && isHex c && isHex d) = true) {x : Nat}
    (hx : (StrChar.uni a b c d ok).units = [x]) (hh : isHighSurrogate x = true) {a₂ b₂ c₂ d₂ : Char}
    (ok₂ : (isHex a₂ && isHex b₂ && isHex c₂ && isHex d₂) = true) {rest : List StrChar} (v : Bool) (post : Units)
    (ihf : stringTokenLoop 0 (E.text (bodyText (.uni a₂ b₂ c₂ d₂ ok₂ :: rest))).length false
      (E.text (bodyText (.uni a₂ b₂ c₂ d₂ ok₂ :: rest)) ++ '"'.toNat :: post) =
        ⟨true, false && (strValue (.uni a₂ b₂ c₂ d₂ ok₂ :: rest)).isSome, 0⟩)
    (ih : stringTokenLoop 0 (E.text (bodyText rest)).length v (E.text (bodyText rest) ++ '"'.toNat :: post) =
      ⟨true, v && (strValue rest).isSome, 0⟩) :
    stringTokenLoop 0 ((E.text (bodyText (.uni a₂ b₂ c₂ d₂ ok₂ :: rest))).length + 6) v
        (E.text (StrChar.uni a b c d ok).text ++
          (E.text (bodyText (.uni a₂ b₂ c₂ d₂ ok₂ :: rest)) ++ '"'.toNat :: post)) =
      ⟨true, v && (fromUtf16 (x :: bodyUnits (.uni a₂ b₂ c₂ d₂ ok₂ :: rest))).isSome, 0⟩ := by
  obtain ⟨y, hy⟩ : ∃ y, (StrChar.uni a₂ b₂ c₂ d₂ ok₂).units = [y] := ⟨_, rfl⟩
  have hx' : ∀ r, hex4 (a.toNat :: b.toNat :: c.toNat :: d.toNat :: r) = some x :=
    fun r => (hex4_text ok r).trans (congrArg some (List.cons.inj hx).1)
  have hy' : ∀ r, hex4 (a₂.toNat :: b₂.toNat :: c₂.toNat :: d₂.toNat :: r) = some y :=
    fun r => (hex4_text ok₂ r).trans (congrArg some (List.cons.inj hy).1)
  rw [bodyText_cons, E.text_append, text_uni] at ihf ⊢
  rw [bodyUnits_cons, hy, List.singleton_append, text_uni]
  simp only [List.length_cons, List.cons_append, List.nil_append] at ihf ⊢
  refine (stringTokenLoop_pair (hx' _) hh rfl (hy' _) (E.text (bodyText rest)).length v).trans ?_
  by_cases hl : isLowSurrogate y = true
  · rw [if_pos hl, isSome_fromUtf16_pair hh hl]
    exact ih
  · rw [if_neg hl, fromUtf16_lone hh (by simpa using hl)]
    refine ihf.trans ?_
    simp

theorem not_low_of_not_uni {b : List StrChar} (h : ¬∃ a₂ b₂ c₂ d₂ ok₂ b₃, b = .uni a₂ b₂ c₂ d₂ ok₂ :: b₃) :
    ∀ l ∈ (bodyUnits b).head?, isLowSurrogate l = false := by
  cases b with
  | nil => simp [bodyUnits]
  | cons c b =>
    rw [bodyUnits_cons]
    rcases units_head c (bodyUnits b) with ⟨a, b', c', d, ok, rfl⟩ | hl
    · exact absurd ⟨a, b', c', d, ok, b, rfl⟩ h
    · exact hl

theorem take_two_of_not_uni {b : List StrChar} (h : ¬∃ a₂ b₂ c₂ d₂ ok₂ b₃, b = .uni a₂ b₂ c₂ d₂ ok₂ :: b₃)
    (post : Units) : (E.text (bodyText b) ++ '"'.toNat :: post).take 2 ≠ ['\\'.toNat, 'u'.toNat] := by
  cases b with
  | nil => exact take_two_ne (by decide)
  | cons c b =>
    rw [bodyText_cons, E.text_append, List.append_assoc]
    exact take_two_strChar E (fun a b' c' d ok hc => h ⟨a, b', c', d, ok, b, by rw [hc]⟩) _

/-- The walk over a body reads all of it and finds out whether it has a decoded value. -/
theorem stringTokenLoop_body : ∀ (m : Nat) (b : List StrChar), b.length = m → ∀ (v : Bool) (post : Units),
    stringTokenLoop 0 (E.text (bodyText b)).length v (E.text (bodyText b) ++ '"'.toNat :: post) =
      ⟨true, v && (strValue b).isSome, 0⟩ := by
  intro m
  induction m using Nat.strongRecOn with
  | ind m ih =>
    intro b hm v post
    cases b with
    | nil => rw [bodyText, List.flatMap_nil, E.text_nil]; simp [stringTokenLoop, strValue, bodyUnits, fromUtf16]
    | cons c b =>
      have hlt : b.length < m := by rw [List.length_cons] at hm; omega
      rw [bodyText_cons, E.text_append, List.append_assoc, List.length_append, strValue, bodyUnits_cons]
      cases c with
      | raw c ok =>
        have hu : (fromUtf16 ((StrChar.raw c ok).units ++ bodyUnits b)).isSome = (strValue b).isSome := by
          rw [show (StrChar.raw c ok).units = utf16Char c from rfl, fromUtf16_char, Option.isSome_map]
          rfl
        rw [hu, StrChar.text, E.text_cons, E.text_nil, List.append_nil, stringTokenLoop_raw E ok]
        exact ih _ hlt b rfl v post
      | esc e ok =>
        have hu : (fromUtf16 ((StrChar.esc e ok).units ++ bodyUnits b)).isSome = (strValue b).isSome := by
          have := not_surrogate_of_lt (show escapeCode e < 0xd800 by have := escapeCode_lt ok; omega)
          exact isSome_fromUtf16_cons this.1 this.2
        have he : isEscapeUnit e.toNat = true := (isEscape_toNat e).trans ok
        rw [hu, StrChar.text, E.text_cons_ascii (by decide), E.text_cons_ascii (escapeUnit_lt he), E.text_nil]
        rw [Nat.add_comm]
        exact (stringTokenLoop_esc he _ v _).trans (ih _ hlt b rfl v post)
      | uni a b' c d ok =>
        obtain ⟨x, hx⟩ : ∃ x, (StrChar.uni a b' c d ok).units = [x] := ⟨_, rfl⟩
        have hsix : (E.text (StrChar.uni a b' c d ok).text).length = 6 := by rw [text_uni]; rfl
        rw [hx, List.singleton_append, hsix, Nat.add_comm]
        by_cases hh : isHighSurrogate x = true
        · by_cases hp : ∃ a₂ b₂ c₂ d₂ ok₂ b₃, b = .uni a₂ b₂ c₂ d₂ ok₂ :: b₃
          · -- a second escape follows: a pair, or a lone surrogate before it
            obtain ⟨a₂, b₂, c₂, d₂, ok₂, b₃, rfl⟩ := hp
            exact stringTokenLoop_body_pair E ok hx hh ok₂ v post (ih _ hlt _ rfl false post)
              (ih b₃.length (by simp only [List.length_cons] at hm; omega) b₃ rfl v post)
          · have hlone : fromUtf16 (x :: bodyUnits b) = none := fromUtf16_lone hh (not_low_of_not_uni hp)
            rw [stringTokenLoop_uni_step E ok hx _ v fun _ => take_two_of_not_uni E hp post, hh, hlone]
            simpa using ih _ hlt b rfl false post
        · rw [stringTokenLoop_uni_step E ok hx _ v fun h => absurd h hh]
          rw [Bool.not_eq_true] at hh
          rw [ih _ hlt b rfl _ post, hh, Bool.false_or]
          cases hl : isLowSurrogate x with
          | true => rw [fromUtf16_low hl]; simp
          | false => rw [isSome_fromUtf16_cons hh hl]; simp [strValue]

/-! ## What is accepted is a body -/

theorem stringTokenLoop_control {u : Nat} (h : u < 0x20) (n : Nat) (v : Bool) (r : Units) :
    (stringTokenLoop 0 (n + 1) v (u :: r)).syntaxValid = false := by
  cases r with
  | nil => rw [stringTokenLoop, if_pos h]
  | cons w r => rw [stringTokenLoop, if_pos h]

/-- After a backslash only an escape is accepted, and after `\u` only four hexadecimal digits. -/
theorem stringTokenLoop_backslash {n : Nat} {v : Bool} {e : Nat} {s : Units}
    (h : (stringTokenLoop 0 (n + 1) v ('\\'.toNat :: e :: s)).syntaxValid = true) :
    isEscapeUnit e = true ∨ e = 'u'.toNat ∧ ∃ x, hex4 s = some x := by
  rw [stringTokenLoop, if_neg (by decide), if_pos rfl] at h
  by_cases he : isEscapeUnit e = true
  · exact .inl he
  · rw [if_neg he] at h
    by_cases hu : e = 'u'.toNat
    · rw [if_pos hu] at h
      cases hx : hex4 s with
      | none => rw [hx] at h; cases h
      | some x => exact .inr ⟨hu, x, rfl⟩
    · rw [if_neg hu] at h; cases h

/-- When `\u` follows a high surrogate, four hexadecimal digits follow that. -/
theorem stringTokenLoop_second {n : Nat} {v : Bool} {s s' : Units} {x : Nat} (hx : hex4 s = some x)
    (hh : isHighSurrogate x = true) (hs : s.drop 4 = '\\'.toNat :: 'u'.toNat :: s')
    (h : (stringTokenLoop 0 (n + 1) v ('\\'.toNat :: 'u'.toNat :: s)).syntaxValid = true) : ∃ y, hex4 s' = some y := by
  have hu : isEscapeUnit 'u'.toNat = false := by decide
  have h6 : s.drop 6 = s' := by
    have : s.drop (4 + 2) = (s.drop 4).drop 2 := (List.drop_drop ..).symm
    rw [show 6 = 4 + 2 from rfl, this, hs]; rfl
  rw [stringTokenLoop, if_neg (by decide), if_pos rfl] at h
  simp only [hu, Bool.false_eq_true, ite_false, ite_true, hx, hh, hs, List.take_succ_cons, List.take_zero, h6] at h
  cases hy : hex4 s' with
  | none => rw [hy] at h; cases h
  | some y => exact ⟨y, rfl⟩

/-- `n` more units before the end of the string. -/
theorem endOfString_map {us r : Units} {n k : Nat} (h : endOfString us = (endOfString r).map (· + n))
    (hk : endOfString us = some (k + 1)) : ∃ j, endOfString r = some (j + 1) ∧ k = n + j := by
  rw [h, Option.map_eq_some_iff] at hk
  obtain ⟨i, hi, he⟩ := hk
  have := endOfString_pos hi
  obtain ⟨j, rfl⟩ : ∃ j, i = j + 1 := ⟨i - 1, by omega⟩
  exact ⟨j, hi, by omega⟩

def Quoted (t : Text) : Prop := ∃ b t', t = bodyText b ++ '"' :: t'

theorem Quoted.cons {t : Text} (c : StrChar) (h : Quoted t) : Quoted (c.text ++ t) := by
  obtain ⟨b, t', rfl⟩ := h
  exact ⟨c :: b, t', by rw [bodyText_cons, List.append_assoc]⟩

theorem uni_endOfString {a b c d : Char} (ok : (isHex a && isHex b && isHex c && isHex d) = true) (t : Text) :
    endOfString (E.text ('\\' :: 'u' :: a :: b :: c :: d :: t)) = (endOfString (E.text t)).map (· + 6) := by
  have := endOfString_strChar E (.uni a b c d ok) (E.text t)
  rwa [← E.text_append, text_uni] at this

/-- Texts shorter than `t`, as the induction needs them. -/
def QuotedBelow (m : Nat) : Prop := ∀ t : Text, t.length < m → ∀ (v : Bool) (k : Nat),
  endOfString (E.text t) = some (k + 1) → (stringTokenLoop 0 k v (E.text t)).syntaxValid = true → Quoted t

variable {E} in
theorem quoted_uni {m : Nat} (ih : QuotedBelow E m) {a b c d : Char}
    (ok : (isHex a && isHex b && isHex c && isHex d) = true) {t : Text} (ht : t.length + 6 ≤ m) {v : Bool} {k : Nat}
    (hend : endOfString (E.text ('\\' :: 'u' :: a :: b :: c :: d :: t)) = some (k + 1))
    (hloop : (stringTokenLoop 0 k v (E.text ('\\' :: 'u' :: a :: b :: c :: d :: t))).syntaxValid = true) :
    Quoted ('\\' :: 'u' :: a :: b :: c :: d :: t) := by
  obtain ⟨j, hj, rfl⟩ := endOfString_map (uni_endOfString E ok t) hend
  have htext : E.text ('\\' :: 'u' :: a :: b :: c :: d :: t) =
      '\\'.toNat :: 'u'.toNat :: a.toNat :: b.toNat :: c.toNat :: d.toNat :: E.text t := by
    rw [E.text_cons_ascii (by decide), E.text_cons_ascii (by decide), text_hex4 E ok]
  have hx := hex4_text ok (E.text t)
  rw [htext, Nat.add_comm] at hloop
  apply Quoted.cons (.uni a b c d ok)
  generalize ((hexDigit a * 16 + hexDigit b) * 16 + hexDigit c) * 16 + hexDigit d = x at hx
  by_cases hp : isHighSurrogate x = true ∧ (E.text t).take 2 = ['\\'.toNat, 'u'.toNat]
  · -- the walk has looked at the next escape as well
    obtain ⟨hh, htake⟩ := hp
    have hcons : ∃ s, E.text t = '\\'.toNat :: 'u'.toNat :: s := by
      rw [← List.take_append_drop 2 (E.text t), htake]
      exact ⟨_, rfl⟩
    obtain ⟨s, hs⟩ := hcons
    obtain ⟨y, hy⟩ := stringTokenLoop_second hx hh (show List.drop 4 _ = _ from hs) hloop
    obtain ⟨c₁, t₁, rfl, hc₁, ht₁⟩ := E.ascii_head (by decide) hs
    obtain ⟨c₂, t₂, rfl, hc₂, ht₂⟩ := E.ascii_head (by decide) ht₁
    obtain rfl := Char.toNat_inj.mp hc₁
    obtain rfl := Char.toNat_inj.mp hc₂
    rw [← ht₂] at hy hs
    obtain ⟨a₂, b₂, c₂, d₂, t₃, rfl, ok₂⟩ := hex_of_hex4 E hy
    obtain ⟨i, hi, rfl⟩ := endOfString_map (uni_endOfString E ok₂ t₃) hj
    rw [show 6 + i + 6 = i + 12 by omega, stringTokenLoop_pair hx hh hs hy i v] at hloop
    simp only [List.length_cons] at ht
    by_cases hl : isLowSurrogate y = true
    · rw [if_pos hl, text_hex4 E ok₂] at hloop
      exact Quoted.cons (.uni a₂ b₂ c₂ d₂ ok₂) (ih t₃ (by omega) v i hi hloop)
    · rw [if_neg hl, ← hs] at hloop
      exact ih _ (by simp only [List.length_cons]; omega) false (6 + i) hj (by rw [Nat.add_comm]; exact hloop)
  · rw [stringTokenLoop_uni hx j v fun hh htake => hp ⟨hh, htake⟩] at hloop
    exact ih t (by omega) _ j hj hloop

theorem quoted_of_stringTokenLoop (m : Nat) : QuotedBelow E m := by
  induction m with
  | zero => intro t ht; omega
  | succ m ih =>
    intro t ht v k hend hloop
    cases t with
    | nil => cases hend
    | cons c t =>
      have hlen : t.length + 1 < m + 1 := by simpa using ht
      by_cases hq : c = '"'
      · subst hq; exact ⟨[], t, rfl⟩
      by_cases hb : c = '\\'
      · subst hb
        rw [E.text_cons_ascii (by decide)] at hend hloop
        cases t with
        | nil => cases hend
        | cons e t =>
          simp only [List.length_cons] at hlen
          obtain ⟨u, w, hu⟩ := List.exists_cons_of_length_pos (E.length_char_pos e)
          have htext : E.text (e :: t) = u :: (w ++ E.text t) := by rw [E.text_cons, hu, List.cons_append]
          obtain ⟨j, hj, rfl⟩ := endOfString_map (show endOfString _ = _ by
            rw [htext]; exact endOfString_escape u _) hend
          have hback := hloop
          rw [htext, show 2 + j = j + 1 + 1 by omega] at hback
          have hu80 : u < 0x80 := by
            rcases stringTokenLoop_backslash hback with h | h
            · exact escapeUnit_lt h
            · rw [h.1]; decide
          obtain ⟨e', t', he, rfl, -⟩ := E.ascii_head hu80 htext
          obtain ⟨rfl, rfl⟩ := List.cons.inj he
          rw [E.text_cons_ascii hu80] at htext
          obtain ⟨-, hw⟩ := List.cons.inj htext
          rw [← hw] at hj hback
          rcases stringTokenLoop_backslash hback with hesc | ⟨heu, x, hx⟩
          · rw [stringTokenLoop_esc hesc] at hback
            exact Quoted.cons (.esc e ((isEscape_toNat e).symm.trans hesc)) (ih t (by omega) v j hj hback)
          · obtain rfl := Char.toNat_inj.mp heu
            obtain ⟨a, b, c, d, t', rfl, ok⟩ := hex_of_hex4 E hx
            apply quoted_uni ih ok (by simp only [List.length_cons] at hlen; omega)
            · rw [E.text_cons_ascii (by decide)]; exact hend
            · rw [E.text_cons_ascii (by decide)]; exact hloop
      · have hraw : isRaw c = true := by
          by_cases h20 : 0x20 ≤ c.toNat
          · simp [isRaw, hq, hb, h20]
          · exfalso
            rw [E.text_cons_ascii (by omega)] at hend hloop
            have hord : endOfString (c.toNat :: E.text t) = (endOfString (E.text t)).map (· + 1) := by
              rw [endOfString_cons, if_neg fun e => hb (Char.toNat_inj.mp e), if_neg fun e => hq (Char.toNat_inj.mp e)]
            obtain ⟨j, -, rfl⟩ := endOfString_map hord hend
            rw [Nat.add_comm, stringTokenLoop_control (by omega)] at hloop
            cases hloop
        have hchar := endOfString_strChar E (.raw c hraw) (E.text t)
        rw [← E.text_append] at hchar
        obtain ⟨j, hj, rfl⟩ := endOfString_map hchar hend
        rw [E.text_cons, StrChar.text, E.text_cons, E.text_nil, List.append_nil, stringTokenLoop_raw E hraw] at hloop
        exact Quoted.cons (.raw c hraw) (ih t (by omega) v j hj hloop)

/-- A string token of the text, behind its opening quote. -/
theorem stringToken_body (b : List StrChar) (post : Units) :
    endOfString (E.text (bodyText b) ++ '"'.toNat :: post) = some ((E.text (bodyText b)).length + 1) ∧
      stringTokenState ((E.text (bodyText b)).length + 1) (E.text (bodyText b) ++ '"'.toNat :: post) =
        ⟨true, (strValue b).isSome, 0⟩ := by
  constructor
  · rw [endOfString_body, endOfString_quote, Option.map_some, Nat.add_comm]
  · rw [stringTokenState, Nat.add_sub_cancel, stringTokenLoop_body E _ b rfl true post, Bool.true_and]

theorem consumeString_eq_ok {t : Text} {n : Nat} : consumeString (E.text t) = .ok n ↔
    ∃ b t', t = bodyText b ++ '"' :: t' ∧ n = (E.text (bodyText b)).length + 2 := by
  constructor
  · intro h
    unfold consumeString at h
    cases hk : endOfString (E.text t) with
    | none => rw [hk] at h; cases h
    | some size =>
      have hpos := endOfString_pos hk
      obtain ⟨k, rfl⟩ : ∃ k, size = k + 1 := ⟨size - 1, by omega⟩
      rw [hk] at h
      simp only at h
      by_cases hv : (stringTokenState (k + 1) (E.text t)).syntaxValid = true
      · rw [if_pos hv, Except.ok.injEq] at h
        subst h
        obtain ⟨b, t', rfl⟩ := quoted_of_stringTokenLoop E (t.length + 1) t (Nat.lt_succ_self _) true k hk hv
        refine ⟨b, t', rfl, ?_⟩
        rw [E.text_append, E.text_cons_ascii (by decide), (stringToken_body E b _).1, Option.some.injEq] at hk
        omega
      · rw [if_neg hv] at h; cases h
  · rintro ⟨b, t', rfl, rfl⟩
    have := stringToken_body E b (E.text t')
    rw [E.text_append, E.text_cons_ascii (by decide)]
    simp only [consumeString, this.1, this.2, ite_true]

end

/-! ## Nothing behind the closing quote is read -/

theorem hexUnit_of_hex4 {a : Units} {x : Nat} (h : hex4 a = some x) {i : Nat} (hi : i < 4) :
    ∃ u y, a[i]? = some u ∧ hexUnit u = some y := by
  unfold hex4 at h
  split at h
  · simp only [Option.bind_eq_bind, Option.bind_eq_some_iff] at h
    obtain ⟨x₁, h₁, x₂, h₂, x₃, h₃, x₄, h₄, -⟩ := h
    obtain rfl | rfl | rfl | rfl : i = 0 ∨ i = 1 ∨ i = 2 ∨ i = 3 := by omega
    · exact ⟨_, x₁, rfl, h₁⟩
    · exact ⟨_, x₂, rfl, h₂⟩
    · exact ⟨_, x₃, rfl, h₃⟩
    · exact ⟨_, x₄, rfl, h₄⟩
  · cases h

theorem hex4_short {c : Units} (hl : c.length < 4) (p : Units) : hex4 (c ++ '"'.toNat :: p) = none := by
  cases h : hex4 (c ++ '"'.toNat :: p) with
  | none => rfl
  | some x =>
    obtain ⟨u, y, hu, hy⟩ := hexUnit_of_hex4 h hl
    rw [List.getElem?_append_right (Nat.le_refl _), Nat.sub_self, List.getElem?_cons_zero, Option.some.injEq] at hu
    subst hu
    cases hy

theorem hex4_post (c p q : Units) : hex4 (c ++ '"'.toNat :: p) = hex4 (c ++ '"'.toNat :: q) := by
  by_cases hl : c.length < 4
  · rw [hex4_short hl, hex4_short hl]
  · rcases c with _ | ⟨a, _ | ⟨b, _ | ⟨d, _ | ⟨e, c⟩⟩⟩⟩
    · exact absurd (by decide) hl
    · exact absurd (by simp) hl
    · exact absurd (by simp) hl
    · exact absurd (by simp) hl
    · rfl

theorem take_two_post (c p q : Units) : ((c ++ '"'.toNat :: p).take 2 = ['\\'.toNat, 'u'.toNat]) ↔
    ((c ++ '"'.toNat :: q).take 2 = ['\\'.toNat, 'u'.toNat]) := by
  rcases c with _ | ⟨a, _ | ⟨b, c⟩⟩
  · simp only [List.nil_append, List.take_succ_cons, List.cons.injEq]
    exact ⟨fun h => absurd h.1 (by decide), fun h => absurd h.1 (by decide)⟩
  · simp
  · simp

/-- When `\u` follows, it is in the content. -/
theorem two_le_of_take_two {c p : Units} (h : (c ++ '"'.toNat :: p).take 2 = ['\\'.toNat, 'u'.toNat]) : 2 ≤ c.length := by
  rcases c with _ | ⟨a, _ | ⟨b, c⟩⟩
  · rw [List.nil_append, List.take_succ_cons, List.cons.injEq] at h
    exact absurd h.1 (by decide)
  · simp only [List.cons_append, List.nil_append, List.take_succ_cons, List.take_zero, List.cons.injEq] at h
    exact absurd h.2.1 (by decide)
  · simp

theorem stringTokenLoop_post (p q : Units) : ∀ (content : Units) (skip : Nat) (v : Bool),
    stringTokenLoop skip content.length v (content ++ '"'.toNat :: p) =
      stringTokenLoop skip content.length v (content ++ '"'.toNat :: q)
  | [], skip, v => by simp only [List.length_nil, stringTokenLoop]
  | u :: content, skip + 1, v => by
    simp only [List.length_cons, List.cons_append, stringTokenLoop]
    exact stringTokenLoop_post p q content skip v
  | [u], 0, v => by
    simp only [List.length_cons, List.length_nil, List.cons_append, List.nil_append, Nat.zero_add, stringTokenLoop]
    split
    · rfl
    · split
      · simp [isEscapeUnit]
      · rfl
  | u :: e :: content, 0, v => by
    have ih := stringTokenLoop_post p q (e :: content)
    simp only [List.length_cons, List.cons_append] at ih ⊢
    rw [stringTokenLoop.eq_5, stringTokenLoop.eq_5, hex4_post content p q]
    cases hx : hex4 (content ++ '"'.toNat :: q) with
    | none => simp only [ih]
    | some x =>
      have hl : 4 ≤ content.length := by
        by_cases hl : content.length < 4
        · rw [hex4_short hl] at hx; cases hx
        · omega
      have hd : ∀ r : Units, (content ++ '"'.toNat :: r).drop 4 = content.drop 4 ++ '"'.toNat :: r :=
        fun r => List.drop_append_of_le_length hl
      simp only [ih, hd, take_two_post (content.drop 4) p q]
      by_cases htake : (content.drop 4 ++ '"'.toNat :: q).take 2 = ['\\'.toNat, 'u'.toNat]
      · have h6 : 6 ≤ content.length := by
          have := two_le_of_take_two htake
          rw [List.length_drop] at this
          omega
        have hd6 : ∀ r : Units, (content ++ '"'.toNat :: r).drop 6 = content.drop 6 ++ '"'.toNat :: r :=
          fun r => List.drop_append_of_le_length h6
        rw [hd6, hd6, hex4_post (content.drop 6) p q]
      · simp only [htake, ite_false]

end Aizign
