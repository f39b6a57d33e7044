import Aizign.JsonSound
import Aizign.Serde

/-!
# Compact JSON

Values as `serde_json` and `JSON.stringify` write them: no white space, short
escapes, integers in decimal. Each writer comes with the reader's answer on what
it wrote.
-/

namespace Aizign

/-! ## Integers -/

theorem decimal_isDigit {n : Nat} {c : Char} (h : c ∈ decimal n) : c.isDigit = true :=
  Nat.isDigit_of_mem_toDigits (by decide) (by decide) h

theorem all_isDigit_decimal (n : Nat) : (decimal n).all Char.isDigit = true :=
  List.all_eq_true.mpr fun _ hc => decimal_isDigit hc

theorem digitsValue_decimal (n : Nat) : digitsValue (decimal n) = n :=
  Nat.ofDigitChars_ten_toDigits

theorem digitChar_ne_zero {n : Nat} (h₀ : 0 < n) (h : n < 10) : n.digitChar ≠ '0' := by
  have : n = 1 ∨ n = 2 ∨ n = 3 ∨ n = 4 ∨ n = 5 ∨ n = 6 ∨ n = 7 ∨ n = 8 ∨ n = 9 := by omega
  rcases this with rfl | rfl | rfl | rfl | rfl | rfl | rfl | rfl | rfl <;> decide

theorem decimal_head : ∀ {n : Nat}, 0 < n → ∃ c r, decimal n = c :: r ∧ c ≠ '0' := by
  intro n
  induction n using Nat.strongRecOn with
  | ind n ih =>
    intro hn
    by_cases h : n < 10
    · exact ⟨n.digitChar, [], Nat.toDigits_of_lt_base h, digitChar_ne_zero hn h⟩
    · obtain ⟨c, r, hd, hc⟩ := ih (n / 10) (by omega) (by omega)
      refine ⟨c, r ++ [(n % 10).digitChar], ?_, hc⟩
      unfold decimal at hd ⊢
      rw [Nat.toDigits_of_base_le (by decide) (by omega), hd]; rfl

theorem dropWhile_all {p : Char → Bool} {t : Text} (h : t.all p = true) : t.dropWhile p = [] := by
  simpa using (takeWhile_append_stops h (stops_nil p)).2

theorem ne_minus_of_isDigit {c : Char} (h : c.isDigit = true) : c ≠ '-' := by
  intro he; subst he; exact absurd h (by decide)

theorem dropMinus_decimal (n : Nat) : dropMinus (decimal n) = decimal n := by
  unfold dropMinus
  split
  · rename_i r h
    have : '-' ∈ decimal n := h ▸ List.mem_cons_self ..
    exact absurd rfl (ne_minus_of_isDigit (decimal_isDigit this))
  · rfl

theorem numberParts_decimal (n : Nat) : numberParts (decimal n) = (decimal n, [], 0) := by
  have hdrop : (decimal n).dropWhile Char.isDigit = [] := dropWhile_all (all_isDigit_decimal n)
  have htake : (decimal n).takeWhile Char.isDigit = decimal n := by
    have h := List.takeWhile_append_dropWhile (p := Char.isDigit) (l := decimal n)
    rwa [hdrop, List.append_nil] at h
  unfold numberParts
  rw [htake, hdrop]

theorem isNumber_decimal (n : Nat) : isNumber (decimal n) = true := by
  have hint : intPart (decimal n) = some [] := by
    rcases Nat.eq_zero_or_pos n with rfl | hn
    · rfl
    · obtain ⟨c, r, hd, hc⟩ := decimal_head hn
      have hall := all_isDigit_decimal n
      rw [hd, List.all_cons, Bool.and_eq_true] at hall
      simp [hd, intPart, hc, digits1, hall.1, dropWhile_all hall.2]
  simp [isNumber, dropMinus_decimal, hint, fracPart, expPart]

theorem natToken_decimal (n : Nat) : natToken (decimal n) = some n := by
  have : (decimal n).isEmpty = false := by
    rw [List.isEmpty_eq_false_iff]; exact Nat.toDigits_ne_nil
  simp [natToken, all_isDigit_decimal, this, digitsValue_decimal]

def jsonNat (n : Nat) : Cst := .num ⟨decimal n, isNumber_decimal n⟩

theorem deUnsigned_jsonNat {max n : Nat} (h : n ≤ max) : deUnsigned max (jsonNat n) = .ok n := by
  simp [deUnsigned, jsonNat, natToken_decimal, h]

/-! ## Strings -/

def hexChar (n : Nat) : Char := n.digitChar

theorem isHex_hexChar : ∀ n : Fin 16, isHex (hexChar n) = true := by decide

theorem hexDigit_hexChar : ∀ n : Fin 16, hexDigit (hexChar n) = n := by decide

def uniEscape (n : Nat) (h : n < 256) : StrChar :=
  .uni '0' '0' (hexChar (n / 16)) (hexChar (n % 16)) (by
    have h₁ := isHex_hexChar ⟨n / 16, by omega⟩
    have h₂ := isHex_hexChar ⟨n % 16, by omega⟩
    simp only at h₁ h₂
    simp [h₁, h₂, show isHex '0' = true by decide])

def jsonChar (c : Char) : StrChar :=
  if h : isRaw c = true then .raw c h
  else if c = '"' then .esc '"' (by decide)
  else if c = '\\' then .esc '\\' (by decide)
  else if c.toNat = 0x08 then .esc 'b' (by decide)
  else if c.toNat = 0x0c then .esc 'f' (by decide)
  else if c = '\n' then .esc 'n' (by decide)
  else if c = '\r' then .esc 'r' (by decide)
  else if c = '\t' then .esc 't' (by decide)
  else if h : c.toNat < 256 then uniEscape c.toNat h
  else .esc '/' (by decide)

def jsonBody (t : Text) : List StrChar := t.map jsonChar

def jsonString (t : Text) : Cst := .str (jsonBody t)

theorem units_uniEscape (n : Nat) (h : n < 256) : (uniEscape n h).units = [n] := by
  have h₁ := hexDigit_hexChar ⟨n / 16, by omega⟩
  have h₂ := hexDigit_hexChar ⟨n % 16, by omega⟩
  simp only at h₁ h₂
  simp only [uniEscape, StrChar.units, h₁, h₂, show hexDigit '0' = 0 by decide, List.cons.injEq, and_true]
  omega

theorem utf16Char_of_lt {c : Char} (h : c.toNat < 0x10000) : utf16Char c = [c.toNat] := by simp [utf16Char, h]

theorem units_jsonChar (c : Char) : (jsonChar c).units = utf16Char c := by
  unfold jsonChar
  split
  · rfl
  · rename_i hr
    have key : ∀ n, c.toNat = n → n < 0x10000 → utf16Char c = [n] := by
      intro n h hn; rw [utf16Char_of_lt (h ▸ hn), h]
    split
    · rename_i h; subst h; rfl
    split
    · rename_i h; subst h; rfl
    split
    · rename_i h; rw [key _ h (by decide)]; rfl
    split
    · rename_i h; rw [key _ h (by decide)]; rfl
    split
    · rename_i h; subst h; rfl
    split
    · rename_i h; subst h; rfl
    split
    · rename_i h; subst h; rfl
    split
    · rename_i h; rw [units_uniEscape, utf16Char_of_lt (by omega)]
    · rename_i h₁ h₂ _ _ _ _ _ h
      exfalso; apply hr
      simp only [isRaw, bne_iff_ne, Bool.and_eq_true, decide_eq_true_eq]
      exact ⟨⟨h₁, h₂⟩, by omega⟩

theorem bodyUnits_jsonBody (t : Text) : bodyUnits (jsonBody t) = utf16 t := by
  induction t with
  | nil => rfl
  | cons c t ih =>
    simp only [jsonBody, List.map_cons, bodyUnits, List.flatMap_cons, utf16, units_jsonChar] at ih ⊢
    rw [ih]

theorem strValue_jsonBody (t : Text) : strValue (jsonBody t) = some t := by
  rw [strValue, bodyUnits_jsonBody, fromUtf16_utf16]

theorem deString_jsonString (t : Text) : deString (jsonString t) = .ok t := by
  simp [deString, jsonString, strValue_jsonBody]

/-! ## Objects -/

def jsonMembers (m : Text × Cst) : List (Text × Cst) → Members
  | [] => .last .nil (jsonBody m.1) .nil .nil m.2 .nil
  | m' :: ms => .more .nil (jsonBody m.1) .nil .nil m.2 .nil (jsonMembers m' ms)

def jsonObject : List (Text × Cst) → Cst
  | [] => .obj0 .nil
  | m :: ms => .obj (jsonMembers m ms)

theorem toList_jsonMembers (m : Text × Cst) (ms : List (Text × Cst)) :
    (jsonMembers m ms).toList = (m :: ms).map fun m => (jsonBody m.1, m.2) := by
  induction ms generalizing m with
  | nil => rfl
  | cons m' ms ih => rw [jsonMembers, Members.toList, ih]; rfl

theorem members_jsonObject (ms : List (Text × Cst)) :
    (jsonObject ms).members? = some (ms.map fun m => (jsonBody m.1, m.2)) := by
  cases ms with
  | nil => rfl
  | cons m ms => simp [jsonObject, Cst.members?, toList_jsonMembers]

theorem memberNames_json (ms : List (Text × Cst)) :
    memberNames (ms.map fun m => (jsonBody m.1, m.2)) = .ok ms := by
  induction ms with
  | nil => rfl
  | cons m ms ih =>
    unfold memberNames at ih ⊢
    simp only [List.map_cons, List.mapM_cons, strValue_jsonBody, Option.elim_some] at ih ⊢
    rw [ih]; rfl

theorem deStruct_jsonObject (fs : List Field) (deny : Bool) (ms : List (Text × Cst)) :
    deStruct fs deny (jsonObject ms) = deMap fs deny ms := by
  simp only [deStruct, members_jsonObject, memberNames_json]; rfl

/-! ## Structs -/

/-- The members a derived `Serialize` writes: the fields in order, absent options left out. -/
def presentMembers : List Field → List (Option Cst) → List (Text × Cst)
  | f :: fs, some v :: vs => (f.name, v) :: presentMembers fs vs
  | _ :: fs, none :: vs => presentMembers fs vs
  | _, _ => []

def jsonStruct (fs : List Field) (vs : List (Option Cst)) : Cst := jsonObject (presentMembers fs vs)

theorem mem_presentMembers {fs : List Field} {vs : List (Option Cst)} {m : Text × Cst}
    (h : m ∈ presentMembers fs vs) : m.1 ∈ fieldNames fs := by
  induction fs generalizing vs with
  | nil => simp [presentMembers] at h
  | cons f fs ih =>
    rcases vs with _ | ⟨_ | v, vs⟩
    · simp [presentMembers] at h
    · exact List.mem_cons_of_mem _ (ih h)
    · rcases List.mem_cons.mp h with rfl | h
      · exact List.mem_cons_self ..
      · exact List.mem_cons_of_mem _ (ih h)

theorem snd_mem_of_presentMembers {fs : List Field} {vs : List (Option Cst)} {m : Text × Cst}
    (h : m ∈ presentMembers fs vs) : some m.2 ∈ vs := by
  induction fs generalizing vs with
  | nil => simp [presentMembers] at h
  | cons f fs ih =>
    rcases vs with _ | ⟨_ | v, vs⟩
    · simp [presentMembers] at h
    · exact List.mem_cons_of_mem _ (ih h)
    · rcases List.mem_cons.mp h with rfl | h
      · exact List.mem_cons_self ..
      · exact List.mem_cons_of_mem _ (ih h)

theorem filter_presentMembers {fs : List Field} {vs : List (Option Cst)} (hn : (fieldNames fs).Nodup) (n : Text) :
    ((presentMembers fs vs).filter fun m => m.1 = n).length ≤ 1 := by
  induction fs generalizing vs with
  | nil => simp [presentMembers]
  | cons f fs ih =>
    have hn' := List.nodup_cons.mp hn
    rcases vs with _ | ⟨_ | v, vs⟩
    · simp [presentMembers]
    · exact ih hn'.2
    · by_cases h : f.name = n
      · have : (presentMembers fs vs).filter (fun m => m.1 = n) = [] := by
          rw [List.filter_eq_nil_iff]
          intro m hm hmn
          apply hn'.1
          have := mem_presentMembers hm
          rwa [h, ← of_decide_eq_true hmn]
        simp [presentMembers, h, this]
      · simpa [presentMembers, h] using ih hn'.2

theorem lookup_presentMembers {fs : List Field} {vs : List (Option Cst)} (hn : (fieldNames fs).Nodup)
    (hl : vs.length = fs.length) : (fs.map fun f => lookupMember (presentMembers fs vs) f.name) = vs := by
  have key : ∀ (before : List (Text × Cst)), (∀ m ∈ before, m.1 ∉ fieldNames fs) →
      (fs.map fun f => lookupMember (before ++ presentMembers fs vs) f.name) = vs := by
    induction fs generalizing vs with
    | nil => intro before _; cases vs with
      | nil => rfl
      | cons v vs => cases hl
    | cons f fs ih =>
      intro before hb
      have hn' := List.nodup_cons.mp hn
      have hfind : before.find? (fun m => m.1 = f.name) = none := by
        rw [List.find?_eq_none]
        intro m hm hf
        exact hb m hm (of_decide_eq_true hf ▸ List.mem_cons_self ..)
      rcases vs with _ | ⟨_ | v, vs⟩
      · cases hl
      · have hnone : (presentMembers fs vs).find? (fun m => m.1 = f.name) = none := by
          rw [List.find?_eq_none]
          intro m hm hf
          exact hn'.1 (of_decide_eq_true hf ▸ mem_presentMembers hm)
        have := ih hn'.2 (by simpa using hl) before fun m hm h => hb m hm (List.mem_cons_of_mem _ h)
        simp only [presentMembers, List.map_cons, this]
        simp [lookupMember, List.find?_append, hfind, hnone]
      · have := ih hn'.2 (by simpa using hl) (before ++ [(f.name, v)]) (by
          intro m hm h
          rcases List.mem_append.mp hm with hm | hm
          · exact hb m hm (List.mem_cons_of_mem _ h)
          · rw [List.mem_singleton.mp hm] at h; exact hn'.1 h)
        rw [List.append_assoc, List.singleton_append] at this
        simp only [presentMembers, List.map_cons, this]
        simp [lookupMember, List.find?_append, hfind]
  exact key [] (by simp)

theorem isSome_lookup_presentMembers {fs : List Field} {vs : List (Option Cst)} (hn : (fieldNames fs).Nodup)
    (hl : vs.length = fs.length) (hr : ∀ p ∈ fs.zip vs, p.1.default = false → p.2.isSome) :
    ∀ f ∈ fs, f.default = false → (lookupMember (presentMembers fs vs) f.name).isSome := by
  intro f hf hd
  have hz : (f, lookupMember (presentMembers fs vs) f.name) ∈ fs.zip vs := by
    have hm : (f, lookupMember (presentMembers fs vs) f.name) ∈
        fs.map fun f => (f, lookupMember (presentMembers fs vs) f.name) := List.mem_map.mpr ⟨f, hf, rfl⟩
    rwa [List.map_prod_left_eq_zip, lookup_presentMembers hn hl] at hm
  exact hr _ hz hd

theorem deStruct_jsonStruct {fs : List Field} {vs : List (Option Cst)} (deny : Bool) (hn : (fieldNames fs).Nodup)
    (hl : vs.length = fs.length) (hr : ∀ p ∈ fs.zip vs, p.1.default = false → p.2.isSome) :
    deStruct fs deny (jsonStruct fs vs) = .ok vs := by
  have hunknown : (presentMembers fs vs).find? (fun m => m.1 ∉ fieldNames fs) = none := by
    rw [List.find?_eq_none]
    intro m hm h
    exact of_decide_eq_true h (mem_presentMembers hm)
  have hdup : fs.find? (fun f => 1 < ((presentMembers fs vs).filter fun m => m.1 = f.name).length) = none := by
    rw [List.find?_eq_none]
    intro f _ h
    have : (List.filter _ (presentMembers _ vs)).length ≤ 1 := filter_presentMembers hn f.name
    have := of_decide_eq_true h
    omega
  have hmiss : fs.find? (fun f => !f.default && (lookupMember (presentMembers fs vs) f.name).isNone) = none := by
    rw [List.find?_eq_none]
    intro f hf h
    simp only [Bool.and_eq_true, Bool.not_eq_true', Option.isNone_iff_eq_none] at h
    have := isSome_lookup_presentMembers hn hl hr f hf h.1
    rw [h.2] at this; cases this
  rw [jsonStruct, deStruct_jsonObject, deMap, hunknown, hdup, hmiss, lookup_presentMembers hn hl]
  cases deny <;> rfl

/-! ## The written text -/

theorem jsonChar_text_ascii {c : Char} (h : c.toNat < 0x80) : isAscii (jsonChar c).text = true := by
  have hx : ∀ n : Fin 16, (hexChar n).toNat < 0x80 := by decide
  unfold jsonChar
  split
  · simp [StrChar.text, isAscii, h]
  · repeat (split; · rfl)
    split
    · have h₁ := hx ⟨c.toNat / 16, by omega⟩
      have h₂ := hx ⟨c.toNat % 16, by omega⟩
      simp only at h₁ h₂
      simp [uniEscape, StrChar.text, isAscii, h₁, h₂]
    · rfl

theorem strText_ascii {t : Text} (h : isAscii t = true) : isAscii (strText (jsonBody t)) = true := by
  have hb : isAscii (bodyText (jsonBody t)) = true := by
    induction t with
    | nil => rfl
    | cons c t ih =>
      simp only [isAscii_cons, Bool.and_eq_true, decide_eq_true_eq] at h
      rw [jsonBody, List.map_cons, bodyText_cons, isAscii_append, jsonChar_text_ascii h.1]
      exact ih h.2
  rw [strText, isAscii_cons, isAscii_append, hb]; rfl

/-- A text without quotes, backslashes and control characters is written as it is. -/
theorem strText_plain {t : Text} (h : t.all isRaw = true) : strText (jsonBody t) = '"' :: (t ++ ['"']) := by
  have hb : bodyText (jsonBody t) = t := by
    induction t with
    | nil => rfl
    | cons c t ih =>
      simp only [List.all_cons, Bool.and_eq_true] at h
      rw [jsonBody, List.map_cons, bodyText_cons, jsonChar, dif_pos h.1, ← jsonBody, ih h.2]; rfl
  rw [strText, hb]

theorem jsonMembers_ascii {m : Text × Cst} {ms : List (Text × Cst)}
    (h : ∀ x ∈ m :: ms, isAscii x.1 = true ∧ isAscii x.2.text = true) : isAscii (jsonMembers m ms).text = true := by
  induction ms generalizing m with
  | nil =>
    have hm := h m (by simp)
    simp [jsonMembers, Members.text, Ws.nil, isAscii_append, isAscii_cons, strText_ascii hm.1, hm.2,
      show isAscii [] = true from rfl]
  | cons m' ms ih =>
    have hm := h m (by simp)
    have := ih fun x hx => h x (List.mem_cons_of_mem _ hx)
    simp [jsonMembers, Members.text, Ws.nil, isAscii_append, isAscii_cons, strText_ascii hm.1, hm.2, this]

theorem jsonObject_ascii {ms : List (Text × Cst)} (h : ∀ x ∈ ms, isAscii x.1 = true ∧ isAscii x.2.text = true) :
    isAscii (jsonObject ms).text = true := by
  rcases ms with _ | ⟨m, ms⟩
  · rfl
  · rw [jsonObject, Cst.text, isAscii_cons, jsonMembers_ascii h]; rfl

theorem jsonStruct_ascii {fs : List Field} {vs : List (Option Cst)} (hf : ∀ f ∈ fs, isAscii f.name = true)
    (hv : ∀ v, some v ∈ vs → isAscii v.text = true) : isAscii (jsonStruct fs vs).text = true := by
  apply jsonObject_ascii
  intro x hx
  obtain ⟨f, hf', he⟩ := List.mem_map.mp (mem_presentMembers hx)
  exact ⟨he ▸ hf f hf', hv _ (snd_mem_of_presentMembers hx)⟩

theorem jsonNat_ascii (n : Nat) : isAscii (jsonNat n).text = true := by
  rw [jsonNat, Cst.text, isAscii, List.all_eq_true]
  intro c hc
  have := decimal_isDigit hc
  simp only [Char.isDigit, Bool.and_eq_true, decide_eq_true_eq] at this
  have h := UInt32.le_iff_toNat_le.mp this.2
  have h' : c.toNat ≤ 57 := h
  exact decide_eq_true (by omega)

/-- No control characters, so in particular no line feed. -/
def Printable (t : Text) : Prop := ∀ c ∈ t, 0x20 ≤ c.toNat

theorem printable_append {s t : Text} : Printable (s ++ t) ↔ Printable s ∧ Printable t := by
  simp only [Printable, List.mem_append]
  constructor
  · intro h; exact ⟨fun c hc => h c (Or.inl hc), fun c hc => h c (Or.inr hc)⟩
  · intro h c hc
    rcases hc with hc | hc
    · exact h.1 c hc
    · exact h.2 c hc

theorem printable_cons {c : Char} {t : Text} : Printable (c :: t) ↔ 0x20 ≤ c.toNat ∧ Printable t := by
  simp [Printable]

theorem printable_nil : Printable [] := by simp [Printable]

theorem Printable.no_newline {t : Text} (h : Printable t) : '\n' ∉ t := fun hm => absurd (h _ hm) (by decide)

theorem Printable.no_return {t : Text} (h : Printable t) : '\r' ∉ t := fun hm => absurd (h _ hm) (by decide)

theorem printable_of_all {t : Text} (h : (t.all fun c => decide (0x20 ≤ c.toNat)) = true) : Printable t := fun c hc =>
  of_decide_eq_true (List.all_eq_true.mp h c hc)

theorem printable_hex {c : Char} (h : isHex c = true) : 0x20 ≤ c.toNat := by
  simp only [isHex, Char.isDigit, Bool.or_eq_true, Bool.and_eq_true, decide_eq_true_eq] at h
  have key : ∀ d : Char, 0x20 ≤ d.toNat → d ≤ c → 0x20 ≤ c.toNat := by
    intro d hd hc
    have : d.toNat ≤ c.toNat := UInt32.le_iff_toNat_le.mp hc
    omega
  rcases h with (h | h) | h
  · exact key '0' (by decide) h.1
  · exact key 'a' (by decide) h.1
  · exact key 'A' (by decide) h.1

theorem StrChar.printable (c : StrChar) : Printable c.text := by
  cases c with
  | raw c ok =>
    simp only [isRaw, Bool.and_eq_true, decide_eq_true_eq] at ok
    simp [StrChar.text, Printable, ok.2]
  | esc e ok =>
    simp only [isEscape, Bool.or_eq_true, beq_iff_eq] at ok
    rw [StrChar.text, printable_cons, printable_cons]
    refine ⟨by decide, ?_, printable_nil⟩
    rcases ok with ((((((rfl | rfl) | rfl) | rfl) | rfl) | rfl) | rfl) | rfl <;> decide
  | uni a b c d ok =>
    simp only [Bool.and_eq_true] at ok
    simp only [StrChar.text, printable_cons]
    exact ⟨by decide, by decide, printable_hex ok.1.1.1, printable_hex ok.1.1.2, printable_hex ok.1.2,
      printable_hex ok.2, printable_nil⟩

theorem strText_printable (b : List StrChar) : Printable (strText b) := by
  have hb : Printable (bodyText b) := by
    induction b with
    | nil => exact printable_nil
    | cons c b ih => rw [bodyText_cons, printable_append]; exact ⟨c.printable, ih⟩
  rw [strText, printable_cons, printable_append]
  exact ⟨by decide, hb, by simp [Printable]⟩

theorem jsonMembers_printable {m : Text × Cst} {ms : List (Text × Cst)} (h : ∀ x ∈ m :: ms, Printable x.2.text) :
    Printable (jsonMembers m ms).text := by
  induction ms generalizing m with
  | nil =>
    simp only [jsonMembers, Members.text, Ws.nil, List.nil_append, printable_append, printable_cons]
    exact ⟨strText_printable _, by decide, h m (by simp), by decide, printable_nil⟩
  | cons m' ms ih =>
    simp only [jsonMembers, Members.text, Ws.nil, List.nil_append, printable_append, printable_cons]
    exact ⟨strText_printable _, by decide, h m (by simp), by decide, ih fun x hx => h x (List.mem_cons_of_mem _ hx)⟩

theorem jsonStruct_printable {fs : List Field} {vs : List (Option Cst)} (hv : ∀ v, some v ∈ vs → Printable v.text) :
    Printable (jsonStruct fs vs).text := by
  have h : ∀ x ∈ presentMembers fs vs, Printable x.2.text := fun x hx => hv _ (snd_mem_of_presentMembers hx)
  unfold jsonStruct
  generalize presentMembers fs vs = ms at h ⊢
  rcases ms with _ | ⟨m, ms⟩
  · simp [jsonObject, Cst.text, Ws.nil, Printable]
  · rw [jsonObject, Cst.text, printable_cons]
    exact ⟨by decide, jsonMembers_printable h⟩

theorem jsonNat_printable (n : Nat) : Printable (jsonNat n).text := by
  intro c hc
  exact printable_hex (by simp [isHex, decimal_isDigit hc])

/-- What a member takes in the text: its quoted name, the colon, the value and a separator. -/
def memberLength (m : Text × Cst) : Nat := (strText (jsonBody m.1)).length + m.2.text.length + 2

theorem length_jsonMembers (m : Text × Cst) (ms : List (Text × Cst)) :
    (jsonMembers m ms).text.length = ((m :: ms).map memberLength).sum := by
  induction ms generalizing m with
  | nil => simp [jsonMembers, Members.text, Ws.nil, memberLength]; omega
  | cons m' ms ih =>
    have := ih m'
    simp only [List.map_cons, List.sum_cons] at this ⊢
    simp only [jsonMembers, Members.text, Ws.nil, List.nil_append, List.length_append, List.length_cons, this,
      memberLength]
    omega

theorem length_jsonObject (ms : List (Text × Cst)) :
    (jsonObject ms).text.length ≤ 2 + (ms.map memberLength).sum := by
  rcases ms with _ | ⟨m, ms⟩
  · simp [jsonObject, Cst.text, Ws.nil]
  · rw [jsonObject, Cst.text, List.length_cons, length_jsonMembers]; omega

theorem length_jsonStruct (fs : List Field) (vs : List (Option Cst)) :
    (jsonStruct fs vs).text.length ≤ 2 + ((fs.zip vs).map fun p =>
      (strText (jsonBody p.1.name)).length + (p.2.elim 0 fun v => v.text.length) + 2).sum := by
  refine Nat.le_trans (length_jsonObject _) (Nat.add_le_add_left ?_ 2)
  induction fs generalizing vs with
  | nil => simp [presentMembers]
  | cons f fs ih =>
    rcases vs with _ | ⟨_ | v, vs⟩
    · simp [presentMembers]
    · have := ih vs
      simp only [presentMembers, List.zip_cons_cons, List.map_cons, List.sum_cons]
      omega
    · have := ih vs
      simp only [presentMembers, List.zip_cons_cons, List.map_cons, List.sum_cons, memberLength, Option.elim_some]
      omega

theorem length_jsonNat {n k : Nat} (hk : 0 < k) (h : n < 10 ^ k) : (jsonNat n).text.length ≤ k :=
  (Nat.length_toDigits_le_iff (by decide) hk).mpr h

def Cst.doc (c : Cst) : Doc := ⟨.nil, c, .nil⟩

theorem Cst.doc_text (c : Cst) : c.doc.text = c.text := by simp [Cst.doc, Doc.text, Ws.nil]

theorem parse_cst (c : Cst) : parse c.text = some c.doc := by rw [← c.doc_text, parse_text]

theorem fromStr_cst (c : Cst) : fromStr c.text = .ok c := by rw [fromStr, parse_cst]; rfl

theorem jsonObject_head (ms : List (Text × Cst)) : ∃ t, (jsonObject ms).text = '{' :: t := by
  cases ms with
  | nil => exact ⟨_, rfl⟩
  | cons m ms => exact ⟨_, rfl⟩

theorem jsonStruct_head (fs : List Field) (vs : List (Option Cst)) : ∃ t, (jsonStruct fs vs).text = '{' :: t :=
  jsonObject_head _

/-! ## An instance for runs on fixed inputs -/

/-- The least magnitude that rounds beyond the largest finite double. -/
def f64Limit : Nat := 2 ^ 1024 - 2 ^ 970

theorem two_pow_double_le {a b : Nat} (h : a < b) : 2 ^ a + 2 ^ a ≤ 2 ^ b := by
  rw [← Nat.mul_two, ← Nat.pow_succ]
  exact Nat.pow_le_pow_right (by decide) h

theorem u64Max_lt_f64Limit : u64Max < f64Limit := by
  have hsmall := two_pow_double_le (by omega : 64 < 970)
  have hdouble := two_pow_double_le (by omega : 970 < 1024)
  unfold f64Limit u64Max
  generalize 2 ^ 970 = x at hsmall hdouble ⊢
  generalize 2 ^ 1024 = y at hdouble ⊢
  omega

def numberOutOfRange (tok : Text) : Bool :=
  let (int, frac, exp) := numberParts (dropMinus tok)
  let m := digitsValue (int ++ frac)
  let e := exp - frac.length
  if 0 ≤ e then decide (f64Limit ≤ m * 10 ^ e.toNat) else decide (f64Limit * 10 ^ (-e).toNat ≤ m)

theorem numberOutOfRange_decimal {n : Nat} (h : n ≤ u64Max) : numberOutOfRange (decimal n) = false := by
  have hlt : n < f64Limit := Nat.lt_of_le_of_lt h u64Max_lt_f64Limit
  simp only [numberOutOfRange, dropMinus_decimal, numberParts_decimal, List.append_nil, digitsValue_decimal]
  simp
  omega

namespace Sample

/-- `serde_json` on the inputs below: the only error that one of them meets is a member left out of a document that is
one line and ends with its last brace. -/
scoped instance serdeJson : SerdeJson where
  display _ document
    | .missingField name => "missing field `".toList ++ name ++ "` at line 1 column ".toList ++ decimal document.length
    | _ => []
  outOfRange := numberOutOfRange
  outOfRange_decimal _ := numberOutOfRange_decimal

end Sample

end Aizign
