import Aizign.JsonTokenString

/-!
# The grammar recognizer is exact

`validate_json_grammar` against the grammar: on the text of a value it comes out
behind that value with the levels it went in with, and a text it accepts is the
text of a document.
-/

namespace Aizign

/-! ## Number tokens -/

/-- A character that `number_end` passes. -/
def isTokenChar (c : Char) : Bool := !isWhitespace c.toNat && !isDelimiterUnit c.toNat

theorem token_of_high {u : Nat} (h : 0x80 ≤ u) : (!isWhitespace u && !isDelimiterUnit u) = true := by
  have h₁ : ','.toNat = 44 := rfl
  have h₂ : ']'.toNat = 93 := rfl
  have h₃ : '}'.toNat = 125 := rfl
  have h₄ : ':'.toNat = 58 := rfl
  simp only [isWhitespace, isDelimiterUnit, Bool.and_eq_true, Bool.not_eq_true', Bool.or_eq_false_iff, beq_eq_false_iff_ne]
  omega

section
variable (E : Encoding)

/-- A scan that stops at ASCII characters only is the same over characters and over units. -/
theorem takeWhile_text {P : Nat → Bool} (hP : ∀ u, 0x80 ≤ u → P u = true) (t : Text) :
    (E.text t).takeWhile P = E.text (t.takeWhile fun c => P c.toNat) ∧
      (E.text t).dropWhile P = E.text (t.dropWhile fun c => P c.toNat) := by
  induction t with
  | nil => exact ⟨rfl, rfl⟩
  | cons c t ih =>
    by_cases hc : P c.toNat = true
    · have hall : ∀ u ∈ E.char c, P u = true := by
        intro u hu
        rcases E.char_cases c with ⟨-, h⟩ | ⟨-, v, s, h, hv, hs⟩
        · rw [h, List.mem_singleton] at hu
          rwa [hu]
        · rw [h] at hu
          rcases List.mem_cons.mp hu with rfl | hu
          · exact hP _ hv
          · exact hP _ (hs u hu)
      rw [E.text_cons, List.takeWhile_append_of_pos hall, List.dropWhile_append_of_pos hall, ih.1, ih.2]
      simp only [List.takeWhile_cons, List.dropWhile_cons, hc, ite_true, E.text_cons, and_self]
    · have hlt : c.toNat < 0x80 := by
        by_cases h : c.toNat < 0x80
        · exact h
        · exact absurd (hP _ (by omega)) hc
      rw [E.text_cons_ascii hlt]
      simp only [List.takeWhile_cons, List.dropWhile_cons, hc, Bool.false_eq_true, ite_false, E.text_cons_ascii hlt,
        E.text_nil, and_self]

theorem not_digit_of_high {u : Nat} (h : 0x80 ≤ u) : isDigitUnit u = false := by
  have : '9'.toNat = 57 := rfl
  simp only [isDigitUnit, Bool.and_eq_false_iff, decide_eq_false_iff_not]
  omega

theorem ascii_of_digit {c : Char} (h : c.isDigit = true) : c.toNat < 0x80 := by
  rw [isDigit_iff] at h
  by_cases hc : c.toNat < 0x80
  · exact hc
  · rw [not_digit_of_high (by omega)] at h; cases h

/-- A test of the first character for an ASCII code is the same test of the first unit. -/
theorem char_ascii_iff {c d : Char} (hd : d.toNat < 0x80) {u : Nat} {r : Units} (h : E.char c = u :: r) :
    u = d.toNat ↔ c = d := by
  rcases E.char_cases c with ⟨-, hc⟩ | ⟨hge, v, s, hc, hv, -⟩
  · rw [hc, List.cons.injEq] at h
    rw [← h.1]
    exact Char.toNat_inj
  · rw [hc, List.cons.injEq] at h
    constructor
    · intro he; omega
    · intro he; subst he; omega

theorem dropWhile_digit (t : Text) : (E.text t).dropWhile isDigitUnit = E.text (t.dropWhile Char.isDigit) := by
  induction t with
  | nil => rfl
  | cons c t ih =>
    by_cases hc : c.isDigit = true
    · rw [E.text_cons_ascii (ascii_of_digit hc), List.dropWhile_cons_of_pos (by rwa [isDigit_iff] at hc), ih,
        List.dropWhile_cons_of_pos hc]
    · rw [List.dropWhile_cons_of_neg hc]
      rcases E.char_cases c with ⟨-, h⟩ | ⟨-, v, s, h, hv, -⟩
      · rw [E.text_cons, h, List.singleton_append, List.dropWhile_cons_of_neg (by rwa [isDigit_iff] at hc)]
      · rw [E.text_cons, h, List.cons_append, List.dropWhile_cons_of_neg (by rw [not_digit_of_high hv]; decide)]

theorem digitRun_text (t : Text) : digitRun (E.text t) = (digits1 t).map E.text := by
  cases t with
  | nil => rfl
  | cons c t =>
    rw [digits1]
    by_cases hc : c.isDigit = true
    · rw [if_pos hc, E.text_cons_ascii (ascii_of_digit hc), digitRun, if_pos (by rwa [isDigit_iff] at hc),
        dropWhile_digit]
      rfl
    · rw [if_neg hc, E.text_cons]
      rcases E.char_cases c with ⟨-, h⟩ | ⟨-, v, s, h, hv, -⟩
      · rw [h, List.singleton_append, digitRun, if_neg (by rwa [isDigit_iff] at hc)]; rfl
      · rw [h, List.cons_append, digitRun, if_neg (by rw [not_digit_of_high hv]; decide)]; rfl

theorem numberInt_text (t : Text) : numberInt (E.text t) = (intPart t).map E.text := by
  cases t with
  | nil => rfl
  | cons c t =>
    rw [intPart]
    obtain ⟨u, r, hu⟩ := List.exists_cons_of_length_pos (E.length_char_pos c)
    have hz := char_ascii_iff E (show '0'.toNat < 0x80 by decide) hu
    by_cases hc : c = '0'
    · subst hc
      rw [if_pos rfl, E.text_cons_ascii (by decide)]; rfl
    · rw [if_neg hc, ← digitRun_text]
      rw [E.text_cons, hu, List.cons_append, numberInt, if_neg (mt hz.mp hc)]

theorem numberFraction_text (t : Text) : numberFraction (E.text t) = (fracPart t).map E.text := by
  cases t with
  | nil => rfl
  | cons c t =>
    obtain ⟨u, r, hu⟩ := List.exists_cons_of_length_pos (E.length_char_pos c)
    have hz := char_ascii_iff E (show '.'.toNat < 0x80 by decide) hu
    by_cases hc : c = '.'
    · subst hc
      rw [E.text_cons_ascii (by decide), fracPart, ← digitRun_text]; rfl
    · rw [fracPart.eq_2 _ (by intro r h; exact hc (List.cons.inj h).1)]
      rw [E.text_cons, hu, List.cons_append, numberFraction, if_neg (mt hz.mp hc), ← List.cons_append, ← hu, ← E.text_cons]
      rfl

def dropSign : Text → Text
  | [] => []
  | c :: r => if c = '+' ∨ c = '-' then r else c :: r

theorem expPart_cons (c : Char) (r : Text) :
    expPart (c :: r) = if c = 'e' ∨ c = 'E' then digits1 (dropSign r) else some (c :: r) := by
  rcases r with _ | ⟨s, r⟩
  · rfl
  · by_cases hp : s = '+'
    · subst hp; rfl
    by_cases hm : s = '-'
    · subst hm; rfl
    have hs : dropSign (s :: r) = s :: r := if_neg fun h => h.elim hp hm
    rw [hs]
    by_cases hc : c = 'e' ∨ c = 'E'
    · simp only [expPart, hc, ite_true]
      split
      · rename_i h; exact absurd (List.cons.inj h).1 hp
      · rename_i h; exact absurd (List.cons.inj h).1 hm
      · rfl
    · simp only [expPart, hc, ite_false]

theorem stripSign_text (t : Text) : stripSign (E.text t) = E.text (dropSign t) := by
  cases t with
  | nil => rfl
  | cons c t =>
    obtain ⟨u, r, hu⟩ := List.exists_cons_of_length_pos (E.length_char_pos c)
    have hp := char_ascii_iff E (show '+'.toNat < 0x80 by decide) hu
    have hm := char_ascii_iff E (show '-'.toNat < 0x80 by decide) hu
    rw [dropSign, E.text_cons, hu, List.cons_append, stripSign]
    simp only [hp, hm]
    by_cases hc : c = '+' ∨ c = '-'
    · have hlt : c.toNat < 0x80 := by rcases hc with rfl | rfl <;> decide
      rw [E.ascii c hlt, List.cons.injEq] at hu
      rw [if_pos hc, if_pos hc, ← hu.2, List.nil_append]
    · rw [if_neg hc, if_neg hc, E.text_cons, hu, List.cons_append]

theorem numberExponent_text (t : Text) : numberExponent (E.text t) = (expPart t).map E.text := by
  cases t with
  | nil => rfl
  | cons c t =>
    obtain ⟨u, r, hu⟩ := List.exists_cons_of_length_pos (E.length_char_pos c)
    have he := char_ascii_iff E (show 'e'.toNat < 0x80 by decide) hu
    have hE := char_ascii_iff E (show 'E'.toNat < 0x80 by decide) hu
    rw [expPart_cons, E.text_cons, hu, List.cons_append, numberExponent]
    simp only [he, hE]
    by_cases hc : c = 'e' ∨ c = 'E'
    · have hlt : c.toNat < 0x80 := by rcases hc with rfl | rfl <;> decide
      rw [E.ascii c hlt, List.cons.injEq] at hu
      rw [if_pos hc, if_pos hc, ← hu.2, List.nil_append, stripSign_text, digitRun_text]
    · rw [if_neg hc, if_neg hc, Option.map_some, E.text_cons, hu, List.cons_append]

theorem stripMinus_text (t : Text) : stripMinus (E.text t) = E.text (dropMinus t) := by
  cases t with
  | nil => rfl
  | cons c t =>
    obtain ⟨u, r, hu⟩ := List.exists_cons_of_length_pos (E.length_char_pos c)
    have hz := char_ascii_iff E (show '-'.toNat < 0x80 by decide) hu
    by_cases hc : c = '-'
    · subst hc
      rw [E.text_cons_ascii (by decide)]; rfl
    · rw [dropMinus.eq_2 _ (by intro r h; exact hc (List.cons.inj h).1)]
      rw [E.text_cons, hu, List.cons_append, stripMinus, if_neg (mt hz.mp hc)]

theorem isJsonNumber_text (t : Text) : isJsonNumber (E.text t) = isNumber t := by
  have hbind : ∀ {o : Option Text} {f : Units → Option Units} {g : Text → Option Text},
      (∀ t, f (E.text t) = (g t).map E.text) → (o.map E.text) >>= f = (o >>= g).map E.text := by
    intro o f g h
    cases o with
    | none => rfl
    | some t => exact h t
  have hnum : (numberInt (stripMinus (E.text t)) >>= numberFraction >>= numberExponent) =
      (intPart (dropMinus t) >>= fracPart >>= expPart).map E.text := by
    rw [stripMinus_text, numberInt_text, hbind (numberFraction_text E), hbind (numberExponent_text E)]
  have hiff : isNumber t = ((intPart (dropMinus t) >>= fracPart >>= expPart) == some []) := by
    unfold isNumber
    cases intPart (dropMinus t) with
    | none => rfl
    | some r =>
      simp only [Option.bind_eq_bind, Option.bind_some]
      cases fracPart r with
      | none => rfl
      | some r => rfl
  rw [isJsonNumber, hnum, hiff]
  cases intPart (dropMinus t) >>= fracPart >>= expPart with
  | none => rfl
  | some r =>
    rw [Option.map_some]
    cases r with
    | nil => rfl
    | cons c r =>
      have : E.text (c :: r) ≠ [] := by
        rw [Ne, E.text_eq_nil]
        exact List.cons_ne_nil c r
      simp [this]

theorem numberEnd_text (t : Text) : (E.text t).take (numberEnd (E.text t)) = E.text (t.takeWhile isTokenChar) ∧
    (E.text t).drop (numberEnd (E.text t)) = E.text (t.dropWhile isTokenChar) := by
  have h := takeWhile_text E (P := fun u => !isWhitespace u && !isDelimiterUnit u) (fun u hu => token_of_high hu) t
  have happ := List.takeWhile_append_dropWhile (p := fun u => !isWhitespace u && !isDelimiterUnit u) (l := E.text t)
  refine ⟨?_, ?_⟩
  · rw [numberEnd]
    conv_lhs => rw [← happ]
    rw [List.take_left' (by rw [happ]), h.1]
    rfl
  · rw [numberEnd]
    conv_lhs => rw [← happ]
    rw [List.drop_left' (by rw [happ]), h.2]
    rfl

end

/-! ## The loop -/

theorem endOfString_le {us : Units} {k : Nat} (h : endOfString us = some k) : k ≤ us.length := by
  induction us using endOfString.induct generalizing k with
  | case1 => cases h
  | case2 => rw [endOfString] at h; split at h <;> cases h; simp
  | case3 u hu => rw [endOfString, if_neg hu] at h; cases h
  | case4 v r ih =>
    rw [endOfString_escape] at h
    obtain ⟨j, hj, rfl⟩ := Option.map_eq_some_iff.mp h
    have := ih hj
    simp only [List.length_cons]
    omega
  | case5 v r => rw [endOfString_quote] at h; cases h; simp
  | case6 u v r hb hq ih =>
    rw [endOfString_cons, if_neg hb, if_neg hq] at h
    obtain ⟨j, hj, rfl⟩ := Option.map_eq_some_iff.mp h
    have := ih hj
    simp only [List.length_cons] at this ⊢
    omega

theorem consumeString_le {us : Units} {n : Nat} (h : consumeString us = .ok n) : n ≤ us.length + 1 := by
  unfold consumeString at h
  cases hk : endOfString us with
  | none => rw [hk] at h; cases h
  | some k =>
    rw [hk] at h
    simp only at h
    split at h
    · cases h
      have := endOfString_le hk
      omega
    · cases h

theorem consumeString_pos {us : Units} {n : Nat} (h : consumeString us = .ok n) : 0 < n := by
  unfold consumeString at h
  cases hk : endOfString us with
  | none => rw [hk] at h; cases h
  | some k =>
    rw [hk] at h
    simp only at h
    split at h
    · cases h; omega
    · cases h

/-- What a turn of the loop reads is there, and is something. -/
def Moves (us : Units) (x : Except Text (Nat × List GrammarLevel)) : Prop :=
  ∀ n L, x = .ok (n, L) → 0 < n ∧ n ≤ us.length

theorem moves_error (us : Units) (e : Text) : Moves us (.error e) := by
  intro n L h; cases h

theorem moves_one {us : Units} (L : List GrammarLevel) (h : us ≠ []) : Moves us (.ok (1, L)) := by
  intro n L' h'
  cases h'
  exact ⟨Nat.one_pos, List.length_pos_iff.mpr h⟩

theorem moves_string (u : Nat) (r : Units) (L : List GrammarLevel) :
    Moves (u :: r) ((consumeString r).map fun n => (n, L)) := by
  intro n L' h
  cases hc : consumeString r with
  | error e => rw [hc] at h; cases h
  | ok k =>
    rw [hc] at h
    cases h
    exact ⟨consumeString_pos hc, consumeString_le hc⟩

theorem moves_ite {us : Units} {p : Prop} [Decidable p] {x y : Except Text (Nat × List GrammarLevel)}
    (hx : p → Moves us x) (hy : ¬p → Moves us y) : Moves us (if p then x else y) := by
  split
  · rename_i h; exact hx h
  · rename_i h; exact hy h

theorem length_of_take {us : Units} {t : Text} {n : Nat} (hn : t.length = n) (h : us.take n = codes t) : n ≤ us.length := by
  have := congrArg List.length h
  rw [List.length_take, codes, List.length_map, hn] at this
  omega

theorem moves_consumeJsonValue (L : List GrammarLevel) (us : Units) : Moves us (consumeJsonValue L us) := by
  cases us with
  | nil => exact moves_error _ _
  | cons u r =>
    have hne : u :: r ≠ [] := List.cons_ne_nil u r
    unfold consumeJsonValue
    refine moves_ite (fun _ => moves_one _ hne) fun _ => moves_ite (fun _ => moves_one _ hne) fun _ =>
      moves_ite (fun _ => moves_string u r L) fun _ => moves_ite (fun h => ?_) fun _ => moves_ite (fun h => ?_) fun _ =>
      moves_ite (fun h => ?_) fun _ => moves_ite (fun h => ?_) fun _ => moves_error _ _
    · intro n L' hn; cases hn; exact ⟨by decide, length_of_take rfl h.2⟩
    · intro n L' hn; cases hn; exact ⟨by decide, length_of_take rfl h.2⟩
    · intro n L' hn; cases hn; exact ⟨by decide, length_of_take rfl h.2⟩
    · refine moves_ite (fun hnum => ?_) fun _ => moves_error _ _
      intro n L' hn
      cases hn
      refine ⟨?_, List.takeWhile_sublist _ |>.length_le⟩
      rcases Nat.eq_zero_or_pos (numberEnd (u :: r)) with h0 | h0
      · rw [h0, List.take_zero] at hnum; cases hnum
      · exact h0

theorem moves_grammarStep (below : List GrammarLevel) (us : Units) (level : GrammarLevel) :
    Moves us (grammarStep below us level) := by
  have hhead : ∀ {c : Nat}, us.head? = some c → us ≠ [] := by
    intro c h e; subst e; cases h
  rcases level with (_ | _ | _ | _ | _) | (_ | _ | _)
  · cases us with
    | nil => exact moves_error _ _
    | cons u r =>
      exact moves_ite (fun _ => moves_one _ (List.cons_ne_nil u r)) fun _ =>
        moves_ite (fun _ => moves_string u r _) fun _ => moves_error _ _
  · cases us with
    | nil => exact moves_error _ _
    | cons u r => exact moves_ite (fun _ => moves_string u r _) fun _ => moves_error _ _
  · exact moves_ite (fun h => moves_one _ (hhead h)) fun _ => moves_error _ _
  · exact moves_consumeJsonValue _ us
  · exact moves_ite (fun h => moves_one _ (hhead h)) fun _ => moves_ite (fun h => moves_one _ (hhead h)) fun _ =>
      moves_error _ _
  · exact moves_ite (fun h => moves_one _ (hhead h)) fun _ => moves_consumeJsonValue _ us
  · exact moves_consumeJsonValue _ us
  · exact moves_ite (fun h => moves_one _ (hhead h)) fun _ => moves_ite (fun h => moves_one _ (hhead h)) fun _ =>
      moves_error _ _

theorem grammarLoop_skip {n : Nat} {us : Units} (L : List GrammarLevel) (h : n ≤ us.length) :
    grammarLoop n L us = grammarLoop 0 L (us.drop n) := by
  induction n generalizing us with
  | zero => rfl
  | succ n ih =>
    cases us with
    | nil => simp at h
    | cons u r => rw [grammarLoop.eq_3, ih (by simpa using h), List.drop_succ_cons]

theorem grammarLoop_step {level : GrammarLevel} {below : List GrammarLevel} {us : Units}
    (hw : ∀ u ∈ us.head?, isWhitespace u = false) : grammarLoop 0 (level :: below) us =
      (grammarStep below us level).bind fun p => grammarLoop 0 p.2 (us.drop p.1) := by
  cases us with
  | nil =>
    rw [grammarLoop]
    cases hs : grammarStep below [] level with
    | error e => rfl
    | ok p =>
      have := moves_grammarStep below [] level p.1 p.2 hs
      simp only [List.length_nil] at this
      omega
  | cons u r =>
    have hu := hw u (by simp)
    rw [grammarLoop]
    simp only [hu, Bool.false_eq_true, ite_false]
    cases hs : grammarStep below (u :: r) level with
    | error e => rfl
    | ok p =>
      obtain ⟨n, L⟩ := p
      have := moves_grammarStep below (u :: r) level n L hs
      simp only [List.length_cons] at this
      obtain ⟨m, rfl⟩ : ∃ m, n = m + 1 := ⟨n - 1, by omega⟩
      simp only [Nat.add_sub_cancel, Except.bind, List.drop_succ_cons]
      exact grammarLoop_skip L (by omega)

theorem grammarLoop_white {u : Nat} (hu : isWhitespace u = true) (L : List GrammarLevel) (r : Units) :
    grammarLoop 0 L (u :: r) = grammarLoop 0 L r := by
  cases L with
  | nil => rw [grammarLoop]; simp only [hu, ite_true]
  | cons l L => rw [grammarLoop]; simp only [hu, ite_true]

/-! ## Documents are accepted -/

theorem isWs_toNat (c : Char) : isWhitespace c.toNat = isWs c := by
  have h : ∀ d : Char, (c.toNat == d.toNat) = (c == d) := by
    intro d
    by_cases hd : c = d
    · subst hd; simp
    · rw [beq_eq_false_iff_ne.mpr hd, beq_eq_false_iff_ne.mpr fun e => hd (Char.toNat_inj.mp e)]
  have h₁ := h ' '
  have h₂ := h '\t'
  have h₃ := h '\n'
  have h₄ := h '\r'
  rw [isWs, ← h₁, ← h₂, ← h₃, ← h₄]
  rfl

theorem ascii_of_ws {c : Char} (h : isWs c = true) : c.toNat < 0x80 := by
  simp only [isWs, Bool.or_eq_true, beq_iff_eq] at h
  rcases h with ((rfl | rfl) | rfl) | rfl <;> decide

/-- The value at the head of the text, then the loop. -/
def valueThen (L : List GrammarLevel) (us : Units) : Except Text Unit :=
  (consumeJsonValue L us).bind fun p => grammarLoop 0 p.2 (us.drop p.1)

section
variable (E : Encoding)

theorem grammarLoop_ws (L : List GrammarLevel) (w : Ws) (t : Text) :
    grammarLoop 0 L (E.text (w.chars ++ t)) = grammarLoop 0 L (E.text t) := by
  obtain ⟨w, hw⟩ := w
  induction w with
  | nil => rfl
  | cons c w ih =>
    simp only [List.all_cons, Bool.and_eq_true] at hw
    rw [List.cons_append, E.text_cons_ascii (ascii_of_ws hw.1), grammarLoop_white (by rw [isWs_toNat]; exact hw.1)]
    exact ih hw.2

theorem grammarLoop_head {c : Char} (hc : c.toNat < 0x80) (hw : isWs c = false) (level : GrammarLevel)
    (below : List GrammarLevel) (t : Text) : grammarLoop 0 (level :: below) (E.text (c :: t)) =
      (grammarStep below (E.text (c :: t)) level).bind fun p => grammarLoop 0 p.2 ((E.text (c :: t)).drop p.1) := by
  apply grammarLoop_step
  intro u hu
  rw [E.text_cons_ascii hc] at hu
  simp only [List.head?_cons, Option.mem_def, Option.some.injEq] at hu
  subst hu
  rw [isWs_toNat, hw]

theorem stops_white {t : Text} (h : Stops isWs t) : ∀ u ∈ (E.text t).head?, isWhitespace u = false := by
  intro u hu
  cases t with
  | nil => cases hu
  | cons c t =>
    have hc := h c (by simp)
    rw [E.text_cons] at hu
    rcases E.char_cases c with ⟨-, hchar⟩ | ⟨-, v, s, hchar, hv, -⟩
    · rw [hchar, List.singleton_append, List.head?_cons, Option.mem_def, Option.some.injEq] at hu
      rw [← hu, isWs_toNat, hc]
    · rw [hchar, List.cons_append, List.head?_cons, Option.mem_def, Option.some.injEq] at hu
      subst hu
      have := token_of_high hv
      rw [Bool.and_eq_true, Bool.not_eq_true'] at this
      exact this.1

theorem grammarLoop_value {level : GrammarLevel} {below L : List GrammarLevel} {t : Text} (ht : Stops isWs t)
    (hs : grammarStep below (E.text t) level = consumeJsonValue L (E.text t)) :
    grammarLoop 0 (level :: below) (E.text t) = valueThen L (E.text t) := by
  rw [grammarLoop_step (stops_white E ht), hs]
  rfl

theorem drop_text_string (b : List StrChar) (t : Text) :
    (E.text ('"' :: (bodyText b ++ '"' :: t))).drop ((E.text (bodyText b)).length + 2) = E.text t := by
  rw [E.text_cons_ascii (by decide), E.text_append, E.text_cons_ascii (by decide), List.drop_succ_cons,
    ← List.drop_drop, List.drop_left, List.drop_succ_cons, List.drop_zero]

theorem grammarLoop_name (below : List GrammarLevel) {state : ObjectState} (hst : state = .key ∨ state = .keyOrEnd)
    (k : List StrChar) (t : Text) : grammarLoop 0 (.object state :: below) (E.text (strText k ++ t)) =
      grammarLoop 0 (.object .colon :: below) (E.text t) := by
  have hc : consumeString (E.text (bodyText k ++ '"' :: t)) = .ok ((E.text (bodyText k)).length + 2) :=
    (consumeString_eq_ok E).mpr ⟨k, t, rfl, rfl⟩
  have hstr : strText k ++ t = '"' :: (bodyText k ++ '"' :: t) := by simp [strText]
  rw [hstr, grammarLoop_head E (by decide) (by decide)]
  have hstep : grammarStep below (E.text ('"' :: (bodyText k ++ '"' :: t))) (.object state) =
      .ok ((E.text (bodyText k)).length + 2, .object .colon :: below) := by
    rw [E.text_cons_ascii (by decide)]
    rcases hst with rfl | rfl
    · simp only [grammarStep, ite_true, hc]; rfl
    · simp only [grammarStep, show '"'.toNat ≠ '}'.toNat by decide, ite_false, ite_true, hc]; rfl
  rw [hstep]
  simp only [Except.bind]
  rw [drop_text_string]

theorem grammarLoop_punct {c : Char} (hc : c.toNat < 0x80) (hw : isWs c = false) {level : GrammarLevel}
    {below L : List GrammarLevel} (t : Text) (hs : grammarStep below (E.text (c :: t)) level = .ok (1, L)) :
    grammarLoop 0 (level :: below) (E.text (c :: t)) = grammarLoop 0 L (E.text t) := by
  rw [grammarLoop_head E hc hw, hs]
  simp only [Except.bind]
  rw [E.text_cons_ascii hc, List.drop_succ_cons, List.drop_zero]

theorem step_char {c : Char} (hc : c.toNat < 0x80) (t : Text) : (E.text (c :: t)).head? = some c.toNat := by
  rw [E.text_cons_ascii hc, List.head?_cons]

theorem grammarLoop_colon (L : List GrammarLevel) (t : Text) :
    grammarLoop 0 (.object .colon :: L) (E.text (':' :: t)) = grammarLoop 0 (.object .value :: L) (E.text t) :=
  grammarLoop_punct E (by decide) (by decide) t (if_pos (step_char E (by decide) t))

theorem grammarLoop_nextMember (L : List GrammarLevel) (t : Text) :
    grammarLoop 0 (.object .commaOrEnd :: L) (E.text (',' :: t)) = grammarLoop 0 (.object .key :: L) (E.text t) :=
  grammarLoop_punct E (by decide) (by decide) t (if_pos (step_char E (by decide) t))

theorem grammarLoop_endObject (L : List GrammarLevel) (t : Text) :
    grammarLoop 0 (.object .commaOrEnd :: L) (E.text ('}' :: t)) = grammarLoop 0 L (E.text t) := by
  refine grammarLoop_punct E (by decide) (by decide) t ?_
  rw [grammarStep, step_char E (by decide), if_neg (by decide), if_pos rfl]

theorem grammarLoop_nextItem (L : List GrammarLevel) (t : Text) :
    grammarLoop 0 (.array .commaOrEnd :: L) (E.text (',' :: t)) = grammarLoop 0 (.array .value :: L) (E.text t) :=
  grammarLoop_punct E (by decide) (by decide) t (if_pos (step_char E (by decide) t))

theorem grammarLoop_endArray (L : List GrammarLevel) (t : Text) :
    grammarLoop 0 (.array .commaOrEnd :: L) (E.text (']' :: t)) = grammarLoop 0 L (E.text t) := by
  refine grammarLoop_punct E (by decide) (by decide) t ?_
  rw [grammarStep, step_char E (by decide), if_neg (by decide), if_pos rfl]

abbrev StopsToken (t : Text) : Prop := Stops isTokenChar t

theorem numChar_token {c : Char} (h : isNumChar c = true) : isTokenChar c = true := by
  have hd : ∀ d : Char, (c.toNat == d.toNat) = (c == d) := by
    intro d
    by_cases hd : c = d
    · subst hd; simp
    · rw [beq_eq_false_iff_ne.mpr hd, beq_eq_false_iff_ne.mpr fun e => hd (Char.toNat_inj.mp e)]
  simp only [isTokenChar, isWs_toNat, isDelimiterUnit, hd]
  rw [Bool.and_eq_true, Bool.not_eq_true', Bool.not_eq_true']
  constructor
  · cases hw : isWs c with
    | false => rfl
    | true => rw [numChar_of_isWs hw] at h; cases h
  · simp only [Bool.or_eq_false_iff, beq_eq_false_iff_ne]
    refine ⟨⟨⟨?_, ?_⟩, ?_⟩, ?_⟩ <;> (rintro rfl; cases h)

/-- A number token in a text is taken whole. -/
theorem numberEnd_num (n : Num) {t : Text} (ht : StopsToken t) :
    (E.text (n.tok ++ t)).take (numberEnd (E.text (n.tok ++ t))) = E.text n.tok ∧
      (E.text (n.tok ++ t)).drop (numberEnd (E.text (n.tok ++ t))) = E.text t := by
  have hall : n.tok.all isTokenChar = true := by
    rw [List.all_eq_true]
    intro x hx
    exact numChar_token (List.all_eq_true.mp (all_numChar_of_isNumber n.ok) x hx)
  have htake := takeWhile_append_stops hall ht
  have hend := numberEnd_text E (n.tok ++ t)
  rwa [htake.1, htake.2] at hend

/-- The unit a number token starts with, and that it is no other token's. -/
theorem num_head (n : Num) : ∃ c s, n.tok = c :: s ∧ c.toNat < 0x80 ∧ (c.toNat = '-'.toNat ∨ isDigitUnit c.toNat = true) ∧
    ∀ d : Char, d ≠ '-' → d.isDigit = false → c.toNat ≠ d.toNat := by
  obtain ⟨c, s, hs, hc⟩ := head_of_isNumber n.ok
  refine ⟨c, s, hs, ?_, ?_, ?_⟩
  · rcases hc with rfl | hc
    · decide
    · exact ascii_of_digit hc
  · rcases hc with rfl | hc
    · exact .inl rfl
    · exact .inr (by rwa [isDigit_iff] at hc)
  · intro d hd hd' he
    obtain rfl := Char.toNat_inj.mp he
    rcases hc with rfl | hc
    · exact hd rfl
    · rw [hd'] at hc; cases hc

theorem valueThen_num (L : List GrammarLevel) (n : Num) {t : Text} (ht : StopsToken t) :
    valueThen L (E.text (n.tok ++ t)) = grammarLoop 0 L (E.text t) := by
  obtain ⟨c, s, hs, hlt, hunit, hne⟩ := num_head n
  have hend := numberEnd_num E n ht
  have htext : E.text (n.tok ++ t) = c.toNat :: E.text (s ++ t) := by
    rw [hs, List.cons_append, E.text_cons_ascii hlt]
  have hcons : consumeJsonValue L (E.text (n.tok ++ t)) = .ok (numberEnd (E.text (n.tok ++ t)), L) := by
    have hnum : isJsonNumber ((E.text (n.tok ++ t)).take (numberEnd (E.text (n.tok ++ t)))) = true := by
      rw [hend.1, isJsonNumber_text]; exact n.ok
    rw [htext] at hnum ⊢
    unfold consumeJsonValue
    simp only [hne '{' (by decide) (by decide), hne '[' (by decide) (by decide), hne '"' (by decide) (by decide),
      hne 't' (by decide) (by decide), hne 'f' (by decide) (by decide), hne 'n' (by decide) (by decide), ite_false,
      false_and, hunit, ite_true, hnum]
  rw [valueThen, hcons]
  simp only [Except.bind]
  rw [hend.2]

theorem valueThen_word (L : List GrammarLevel) (v : Cst) (hv : v = .null ∨ ∃ b, v = .bool b) (t : Text) :
    valueThen L (E.text (v.text ++ t)) = grammarLoop 0 L (E.text t) := by
  have key : ∀ w : Text, isAscii w = true → consumeJsonValue L (E.text w ++ E.text t) = .ok (w.length, L) →
      valueThen L (E.text (w ++ t)) = grammarLoop 0 L (E.text t) := by
    intro w hw hc
    have hlen : (E.text w).length = w.length := by rw [E.text_ascii hw, List.length_map]
    rw [valueThen, E.text_append, hc]
    simp only [Except.bind]
    rw [List.drop_left' hlen]
  rcases hv with rfl | ⟨b, rfl⟩
  · exact key ['n', 'u', 'l', 'l'] (by decide) (by rw [E.text_ascii (by decide)]; rfl)
  · cases b with
    | true => exact key ['t', 'r', 'u', 'e'] (by decide) (by rw [E.text_ascii (by decide)]; rfl)
    | false => exact key ['f', 'a', 'l', 's', 'e'] (by decide) (by rw [E.text_ascii (by decide)]; rfl)

theorem valueThen_str (L : List GrammarLevel) (b : List StrChar) (t : Text) :
    valueThen L (E.text (strText b ++ t)) = grammarLoop 0 L (E.text t) := by
  have hc : consumeString (E.text (bodyText b ++ '"' :: t)) = .ok ((E.text (bodyText b)).length + 2) :=
    (consumeString_eq_ok E).mpr ⟨b, t, rfl, rfl⟩
  have hstr : strText b ++ t = '"' :: (bodyText b ++ '"' :: t) := by simp [strText]
  have hval : consumeJsonValue L (E.text ('"' :: (bodyText b ++ '"' :: t))) =
      .ok ((E.text (bodyText b)).length + 2, L) := by
    rw [E.text_cons_ascii (by decide), consumeJsonValue, if_neg (by decide), if_neg (by decide), if_pos rfl, hc]
    rfl
  rw [hstr, valueThen, hval]
  simp only [Except.bind]
  rw [drop_text_string]

theorem valueThen_open {c : Char} {level : GrammarLevel} (L : List GrammarLevel) (hc : c.toNat < 0x80) (t : Text)
    (h : ∀ r, consumeJsonValue L (c.toNat :: r) = .ok (1, level :: L)) :
    valueThen L (E.text (c :: t)) = grammarLoop 0 (level :: L) (E.text t) := by
  rw [valueThen, E.text_cons_ascii hc, h]
  rfl

theorem stopsToken_ws {c : Char} (w : Ws) (t : Text) (hc : isTokenChar c = false) : StopsToken (w.chars ++ c :: t) := by
  obtain ⟨_ | ⟨d, w⟩, hw⟩ := w
  · exact stops_cons _ hc
  · simp only [List.all_cons, Bool.and_eq_true] at hw
    refine stops_cons _ ?_
    rw [isTokenChar, isWs_toNat, hw.1]; rfl

/-- Which of the two object states a member list starts in makes no difference, its first token being a name. -/
theorem grammarLoop_keyOrEnd (L : List GrammarLevel) (ms : Members) (t : Text) :
    grammarLoop 0 (.object .keyOrEnd :: L) (E.text (ms.text ++ t)) =
      grammarLoop 0 (.object .key :: L) (E.text (ms.text ++ t)) := by
  cases ms with
  | last w₁ k w₂ w₃ v w₄ =>
    simp only [Members.text, List.append_assoc]
    rw [grammarLoop_ws, grammarLoop_ws, grammarLoop_name E L (.inl rfl), grammarLoop_name E L (.inr rfl)]
  | more w₁ k w₂ w₃ v w₄ rest =>
    simp only [Members.text, List.append_assoc]
    rw [grammarLoop_ws, grammarLoop_ws, grammarLoop_name E L (.inl rfl), grammarLoop_name E L (.inr rfl)]

theorem grammarStep_valueOrEnd {L : List GrammarLevel} {v : Cst} (t : Text) :
    grammarStep L (E.text (v.text ++ t)) (.array .valueOrEnd) =
      consumeJsonValue (.array .commaOrEnd :: L) (E.text (v.text ++ t)) := by
  have hne : (E.text (v.text ++ t)).head? ≠ some ']'.toNat := by
    obtain ⟨c, s, hs, -, hc, -⟩ := v.head
    rw [hs, List.cons_append]
    intro h
    obtain ⟨u, r, hu⟩ := List.exists_cons_of_length_pos (E.length_char_pos c)
    rw [E.text_cons, hu, List.cons_append, List.head?_cons, Option.some.injEq] at h
    exact hc ((char_ascii_iff E (by decide) hu).mp h)
  exact if_neg hne

mutual

theorem valueThen_text (v : Cst) (L : List GrammarLevel) {t : Text} (ht : ∀ n, v = .num n → StopsToken t) :
    valueThen L (E.text (v.text ++ t)) = grammarLoop 0 L (E.text t) := by
  cases v with
  | null => exact valueThen_word E L .null (.inl rfl) t
  | bool b => exact valueThen_word E L (.bool b) (.inr ⟨b, rfl⟩) t
  | num n => exact valueThen_num E L n (ht n rfl)
  | str b => exact valueThen_str E L b t
  | arr0 w =>
    simp only [Cst.text, List.cons_append, List.append_assoc, List.nil_append]
    rw [valueThen_open E L (by decide) _ fun r => rfl, grammarLoop_ws]
    exact grammarLoop_punct E (by decide) (by decide) t (if_pos (step_char E (by decide) t))
  | obj0 w =>
    simp only [Cst.text, List.cons_append, List.append_assoc, List.nil_append]
    rw [valueThen_open E L (by decide) _ fun r => rfl, grammarLoop_ws]
    refine grammarLoop_punct E (by decide) (by decide) t ?_
    rw [E.text_cons_ascii (by decide)]; rfl
  | arr es =>
    rw [Cst.text, List.cons_append, valueThen_open E L (by decide) _ fun r => rfl, grammarLoop_valueOrEnd es]
    exact grammarLoop_items es L t
  | obj ms =>
    rw [Cst.text, List.cons_append, valueThen_open E L (by decide) _ fun r => rfl, grammarLoop_keyOrEnd]
    exact grammarLoop_members ms L t

theorem grammarLoop_items (es : Items) (L : List GrammarLevel) (t : Text) :
    grammarLoop 0 (.array .value :: L) (E.text (es.text ++ t)) = grammarLoop 0 L (E.text t) := by
  cases es with
  | last w₁ v w₂ =>
    simp only [Items.text, List.append_assoc, List.cons_append, List.nil_append]
    rw [grammarLoop_ws, grammarLoop_value E (v.stops_text _) rfl,
      valueThen_text v _ fun _ _ => stopsToken_ws w₂ t (by decide), grammarLoop_ws, grammarLoop_endArray]
  | more w₁ v w₂ rest =>
    simp only [Items.text, List.append_assoc, List.cons_append]
    rw [grammarLoop_ws, grammarLoop_value E (v.stops_text _) rfl,
      valueThen_text v _ fun _ _ => stopsToken_ws w₂ _ (by decide), grammarLoop_ws, grammarLoop_nextItem]
    exact grammarLoop_items rest L t

theorem grammarLoop_valueOrEnd (es : Items) {L : List GrammarLevel} {t : Text} :
    grammarLoop 0 (.array .valueOrEnd :: L) (E.text (es.text ++ t)) =
      grammarLoop 0 (.array .value :: L) (E.text (es.text ++ t)) := by
  cases es with
  | last w₁ v w₂ =>
    simp only [Items.text, List.append_assoc]
    rw [grammarLoop_ws, grammarLoop_ws, grammarLoop_value E (v.stops_text _) (grammarStep_valueOrEnd E _),
      grammarLoop_value E (v.stops_text _) rfl]
  | more w₁ v w₂ rest =>
    simp only [Items.text, List.append_assoc]
    rw [grammarLoop_ws, grammarLoop_ws, grammarLoop_value E (v.stops_text _) (grammarStep_valueOrEnd E _),
      grammarLoop_value E (v.stops_text _) rfl]

theorem grammarLoop_members (ms : Members) (L : List GrammarLevel) (t : Text) :
    grammarLoop 0 (.object .key :: L) (E.text (ms.text ++ t)) = grammarLoop 0 L (E.text t) := by
  cases ms with
  | last w₁ k w₂ w₃ v w₄ =>
    simp only [Members.text, List.append_assoc, List.cons_append, List.nil_append]
    rw [grammarLoop_ws, grammarLoop_name E L (.inl rfl), grammarLoop_ws, grammarLoop_colon, grammarLoop_ws,
      grammarLoop_value E (v.stops_text _) rfl, valueThen_text v _ fun _ _ => stopsToken_ws w₄ t (by decide),
      grammarLoop_ws, grammarLoop_endObject]
  | more w₁ k w₂ w₃ v w₄ rest =>
    simp only [Members.text, List.append_assoc, List.cons_append]
    rw [grammarLoop_ws, grammarLoop_name E L (.inl rfl), grammarLoop_ws, grammarLoop_colon, grammarLoop_ws,
      grammarLoop_value E (v.stops_text _) rfl, valueThen_text v _ fun _ _ => stopsToken_ws w₄ _ (by decide),
      grammarLoop_ws, grammarLoop_nextMember]
    exact grammarLoop_members rest L t

end

theorem nextNonWhitespace_text (t : Text) : nextNonWhitespace (E.text t) = E.text (dropWs t) := by
  induction t with
  | nil => rfl
  | cons c t ih =>
    by_cases hc : isWs c = true
    · rw [E.text_cons_ascii (ascii_of_ws hc), nextNonWhitespace, List.dropWhile_cons_of_pos (by rw [isWs_toNat]; exact hc),
        dropWs, List.dropWhile_cons_of_pos hc]
      exact ih
    · have hs := stops_white E (t := c :: t) (stops_cons _ (by simpa using hc))
      rw [dropWs, List.dropWhile_cons_of_neg hc, nextNonWhitespace]
      cases htext : E.text (c :: t) with
      | nil => rfl
      | cons u r =>
        rw [htext] at hs
        rw [List.dropWhile_cons_of_neg (by rw [hs u (by simp)]; decide)]

/-- The recognizer is the value at the first character that is not white space, and the loop after it. -/
theorem validateUnits_eq (t : Text) (h : dropWs t ≠ []) : validateUnits (E.text t) = valueThen [] (E.text (dropWs t)) := by
  rw [validateUnits, nextNonWhitespace_text]
  cases htext : E.text (dropWs t) with
  | nil => exact absurd ((E.text_eq_nil).mp htext) h
  | cons u r =>
    simp only [valueThen]
    cases hc : consumeJsonValue [] (u :: r) with
    | error e => rfl
    | ok p =>
      obtain ⟨n, L⟩ := p
      have := moves_consumeJsonValue [] (u :: r) n L hc
      simp only [List.length_cons] at this
      obtain ⟨m, rfl⟩ : ∃ m, n = m + 1 := ⟨n - 1, by omega⟩
      simp only [Nat.add_sub_cancel, Except.bind, List.drop_succ_cons]
      exact grammarLoop_skip L (by omega)

theorem grammarLoop_end (w : Ws) : grammarLoop 0 [] (E.text w.chars) = .ok () := by
  have := grammarLoop_ws E [] w []
  rw [List.append_nil] at this
  rw [this]; rfl

theorem validateUnits_doc (d : Doc) : validateUnits (E.text d.text) = .ok () := by
  have hw : dropWs d.text = d.value.text ++ d.trail.chars := dropWs_append d.lead (d.value.stops_text _)
  have hne : dropWs d.text ≠ [] := by
    rw [hw]
    intro h
    have := d.value.length_pos
    rw [(List.append_eq_nil_iff.mp h).1] at this
    cases this
  have hstop : StopsToken d.trail.chars := by
    obtain ⟨_ | ⟨c, w⟩, hw⟩ := d.trail
    · exact stops_nil _
    · simp only [List.all_cons, Bool.and_eq_true] at hw
      refine stops_cons _ ?_
      rw [isTokenChar, isWs_toNat, hw.1]; rfl
  rw [validateUnits_eq E _ hne, hw, valueThen_text E d.value [] fun _ _ => hstop, grammarLoop_end]

/-! ## What is accepted is a document -/

theorem head_of_unit {t : Text} {c : Char} (hc : c.toNat < 0x80) (h : (E.text t).head? = some c.toNat) :
    ∃ t', t = c :: t' := by
  obtain ⟨r, hr⟩ := List.head?_eq_some_iff.mp h
  obtain ⟨d, t', rfl, hd, -⟩ := E.ascii_head hc hr
  obtain rfl := Char.toNat_inj.mp hd
  exact ⟨t', rfl⟩

theorem word_of_take {w t : Text} (hw : isAscii w = true) (h : (E.text t).take w.length = codes w) : ∃ t', t = w ++ t' := by
  induction w generalizing t with
  | nil => exact ⟨t, rfl⟩
  | cons c w ih =>
    rw [isAscii_cons, Bool.and_eq_true, decide_eq_true_eq] at hw
    have hhead : (E.text t).head? = some c.toNat := by
      have := congrArg List.head? h
      rwa [List.head?_take, if_neg (by simp)] at this
    obtain ⟨t', rfl⟩ := head_of_unit E hw.1 hhead
    rw [E.text_cons_ascii hw.1, List.length_cons, List.take_succ_cons, codes, List.map_cons, List.cons.injEq] at h
    obtain ⟨t'', rfl⟩ := ih hw.2 h.2
    exact ⟨t'', rfl⟩

/-- The ways a value can start: a container, or a value that is read at once. -/
theorem consumeJsonValue_cases {L : List GrammarLevel} {t : Text} {n : Nat} {L' : List GrammarLevel}
    (h : consumeJsonValue L (E.text t) = .ok (n, L')) :
    (∃ t', t = '{' :: t' ∧ n = 1 ∧ L' = .object .keyOrEnd :: L) ∨
    (∃ t', t = '[' :: t' ∧ n = 1 ∧ L' = .array .valueOrEnd :: L) ∨
    (∃ (v : Cst) (r : Text), t = v.text ++ r ∧ L' = L ∧ (E.text t).drop n = E.text r) := by
  cases htext : E.text t with
  | nil => rw [htext] at h; cases h
  | cons u r =>
    have hhead : ∀ {c : Char}, c.toNat < 0x80 → u = c.toNat → ∃ t', t = c :: t' := by
      intro c hc hu
      exact head_of_unit E hc (by rw [htext, List.head?_cons, hu])
    have hword : ∀ {w : Text} (v : Cst), isAscii w = true → v.text = w → (u :: r).take w.length = codes w →
        n = w.length → L' = L → ∃ (v : Cst) (s : Text), t = v.text ++ s ∧ L' = L ∧ (u :: r).drop n = E.text s := by
      intro w v hw hv htake hn hL
      rw [← htext] at htake ⊢
      obtain ⟨t', rfl⟩ := word_of_take E hw htake
      refine ⟨v, t', by rw [hv], hL, ?_⟩
      have hlen : (E.text w).length = w.length := by rw [E.text_ascii hw, List.length_map]
      rw [hn, E.text_append, List.drop_left' hlen]
    rw [htext, consumeJsonValue] at h
    split at h
    · rename_i hu
      obtain ⟨t', rfl⟩ := hhead (by decide) hu
      cases h
      exact .inl ⟨t', rfl, rfl, rfl⟩
    split at h
    · rename_i hu
      obtain ⟨t', rfl⟩ := hhead (by decide) hu
      cases h
      exact .inr (.inl ⟨t', rfl, rfl, rfl⟩)
    refine .inr (.inr ?_)
    split at h
    · rename_i hu
      obtain ⟨t', rfl⟩ := hhead (by decide) hu
      rw [E.text_cons_ascii (by decide), List.cons.injEq] at htext
      rw [← htext.2] at h
      cases hc : consumeString (E.text t') with
      | error e => rw [hc] at h; cases h
      | ok m =>
        rw [hc] at h
        cases h
        obtain ⟨b, t'', rfl, rfl⟩ := (consumeString_eq_ok E).mp hc
        refine ⟨.str b, t'', by simp [Cst.text, strText], rfl, ?_⟩
        rw [← htext.1, ← htext.2, ← E.text_cons_ascii (by decide), drop_text_string]
    split at h
    · rename_i hu
      cases h
      exact hword (.bool true) (by decide) rfl hu.2 rfl rfl
    split at h
    · rename_i hu
      cases h
      exact hword (.bool false) (by decide) rfl hu.2 rfl rfl
    split at h
    · rename_i hu
      cases h
      exact hword .null (by decide) rfl hu.2 rfl rfl
    split at h
    · simp only at h
      split at h
      · rename_i hnum
        cases h
        rw [← htext] at hnum ⊢
        have hend := numberEnd_text E t
        rw [hend.1, isJsonNumber_text] at hnum
        exact ⟨.num ⟨_, hnum⟩, _, List.takeWhile_append_dropWhile.symm, rfl, hend.2⟩
      · cases h
    · cases h

def Accepts (L : List GrammarLevel) (t : Text) : Prop := grammarLoop 0 L (E.text t) = .ok ()

theorem accepts_dropWs {L : List GrammarLevel} {t : Text} (h : Accepts E L t) : Accepts E L (dropWs t) := by
  rw [Accepts, ← takeWs_dropWs t, grammarLoop_ws] at h
  exact h

theorem stops_dropWs (t : Text) : Stops isWs (dropWs t) := stops_dropWhile isWs t

variable {E}

theorem accepts_step {level : GrammarLevel} {L : List GrammarLevel} {t : Text} (h : Accepts E (level :: L) t)
    (ht : Stops isWs t) : ∃ n L', grammarStep L (E.text t) level = .ok (n, L') ∧
      grammarLoop 0 L' ((E.text t).drop n) = .ok () := by
  rw [Accepts, grammarLoop_step (stops_white E ht)] at h
  cases hs : grammarStep L (E.text t) level with
  | error e => rw [hs] at h; cases h
  | ok p =>
    rw [hs] at h
    exact ⟨p.1, p.2, rfl, h⟩

theorem accepts_punct {c : Char} {L : List GrammarLevel} {t : Text} (hc : c.toNat < 0x80)
    (h : grammarLoop 0 L ((E.text (c :: t)).drop 1) = .ok ()) : Accepts E L t := by
  rw [E.text_cons_ascii hc, List.drop_succ_cons, List.drop_zero] at h
  exact h

theorem accepts_colon {L : List GrammarLevel} {t : Text} (h : Accepts E (.object .colon :: L) t) :
    ∃ t', dropWs t = ':' :: t' ∧ Accepts E (.object .value :: L) t' := by
  obtain ⟨n, L', hs, hl⟩ := accepts_step (accepts_dropWs E h) (stops_dropWs t)
  rw [grammarStep] at hs
  split at hs
  · rename_i hu
    cases hs
    obtain ⟨t', ht'⟩ := head_of_unit E (by decide) hu
    rw [ht'] at hl
    exact ⟨t', ht', accepts_punct (by decide) hl⟩
  · cases hs

theorem accepts_afterMember {L : List GrammarLevel} {t : Text} (h : Accepts E (.object .commaOrEnd :: L) t) :
    (∃ t', dropWs t = ',' :: t' ∧ Accepts E (.object .key :: L) t') ∨ ∃ t', dropWs t = '}' :: t' ∧ Accepts E L t' := by
  obtain ⟨n, L', hs, hl⟩ := accepts_step (accepts_dropWs E h) (stops_dropWs t)
  rw [grammarStep] at hs
  split at hs
  · rename_i hu
    cases hs
    obtain ⟨t', ht'⟩ := head_of_unit E (by decide) hu
    rw [ht'] at hl
    exact .inl ⟨t', ht', accepts_punct (by decide) hl⟩
  split at hs
  · rename_i hu
    cases hs
    obtain ⟨t', ht'⟩ := head_of_unit E (by decide) hu
    rw [ht'] at hl
    exact .inr ⟨t', ht', accepts_punct (by decide) hl⟩
  · cases hs

theorem accepts_afterItem {L : List GrammarLevel} {t : Text} (h : Accepts E (.array .commaOrEnd :: L) t) :
    (∃ t', dropWs t = ',' :: t' ∧ Accepts E (.array .value :: L) t') ∨ ∃ t', dropWs t = ']' :: t' ∧ Accepts E L t' := by
  obtain ⟨n, L', hs, hl⟩ := accepts_step (accepts_dropWs E h) (stops_dropWs t)
  rw [grammarStep] at hs
  split at hs
  · rename_i hu
    cases hs
    obtain ⟨t', ht'⟩ := head_of_unit E (by decide) hu
    rw [ht'] at hl
    exact .inl ⟨t', ht', accepts_punct (by decide) hl⟩
  split at hs
  · rename_i hu
    cases hs
    obtain ⟨t', ht'⟩ := head_of_unit E (by decide) hu
    rw [ht'] at hl
    exact .inr ⟨t', ht', accepts_punct (by decide) hl⟩
  · cases hs

theorem accepts_key {L : List GrammarLevel} {t : Text} (h : Accepts E (.object .key :: L) t) :
    ∃ k t', dropWs t = strText k ++ t' ∧ Accepts E (.object .colon :: L) t' := by
  obtain ⟨n, L', hs, hl⟩ := accepts_step (accepts_dropWs E h) (stops_dropWs t)
  cases htext : E.text (dropWs t) with
  | nil => rw [htext] at hs; cases hs
  | cons u r =>
    rw [htext] at hs
    simp only [grammarStep] at hs
    split at hs
    · rename_i hu
      obtain ⟨t', ht'⟩ := head_of_unit E (show '"'.toNat < 0x80 by decide) (by rw [htext, List.head?_cons, hu])
      rw [ht', E.text_cons_ascii (by decide), List.cons.injEq] at htext
      rw [← htext.2] at hs
      cases hc : consumeString (E.text t') with
      | error e => rw [hc] at hs; cases hs
      | ok m =>
        rw [hc] at hs
        cases hs
        obtain ⟨b, t'', rfl, rfl⟩ := (consumeString_eq_ok E).mp hc
        rw [ht', drop_text_string] at hl
        exact ⟨b, t'', by rw [ht']; simp [strText], hl⟩
    · cases hs

theorem accepts_keyOrEnd {L : List GrammarLevel} {t : Text} (h : Accepts E (.object .keyOrEnd :: L) t) :
    (∃ t', dropWs t = '}' :: t' ∧ Accepts E L t') ∨ Accepts E (.object .key :: L) t := by
  obtain ⟨n, L', hs, hl⟩ := accepts_step (accepts_dropWs E h) (stops_dropWs t)
  cases htext : E.text (dropWs t) with
  | nil => rw [htext] at hs; cases hs
  | cons u r =>
    have hhead : ∀ {c : Char}, u = c.toNat → (E.text (dropWs t)).head? = some c.toNat := by
      intro c hu; rw [htext, List.head?_cons, hu]
    have hs' := hs
    rw [htext] at hs'
    simp only [grammarStep] at hs'
    split at hs'
    · rename_i hu
      cases hs'
      obtain ⟨t', ht'⟩ := head_of_unit E (by decide) (hhead hu)
      rw [ht'] at hl
      exact .inl ⟨t', ht', accepts_punct (by decide) hl⟩
    · split at hs'
      · rename_i hu
        refine .inr ?_
        rw [Accepts, ← takeWs_dropWs t, grammarLoop_ws, grammarLoop_step (stops_white E (stops_dropWs t))]
        have : grammarStep L (E.text (dropWs t)) (.object .key) = .ok (n, L') := by
          rw [htext]
          simp only [grammarStep, hu, ite_true]
          exact hs'
        rw [this]
        exact hl
      · cases hs'

theorem accepts_value {level : GrammarLevel} {below L : List GrammarLevel} {t : Text}
    (h : Accepts E (level :: below) t)
    (hs : grammarStep below (E.text (dropWs t)) level = consumeJsonValue L (E.text (dropWs t))) :
    valueThen L (E.text (dropWs t)) = .ok () := by
  rw [← grammarLoop_value E (stops_dropWs t) hs]
  exact accepts_dropWs E h

theorem accepts_valueOrEnd {L : List GrammarLevel} {t : Text} (h : Accepts E (.array .valueOrEnd :: L) t) :
    (∃ t', dropWs t = ']' :: t' ∧ Accepts E L t') ∨ Accepts E (.array .value :: L) t := by
  by_cases hu : (E.text (dropWs t)).head? = some ']'.toNat
  · obtain ⟨t', ht'⟩ := head_of_unit E (by decide) hu
    obtain ⟨n, L', hs, hl⟩ := accepts_step (accepts_dropWs E h) (stops_dropWs t)
    rw [grammarStep, if_pos hu] at hs
    cases hs
    rw [ht'] at hl
    exact .inl ⟨t', ht', accepts_punct (by decide) hl⟩
  · refine .inr ?_
    have := accepts_value h (if_neg hu)
    rw [Accepts, ← takeWs_dropWs t, grammarLoop_ws, grammarLoop_value E (stops_dropWs t) rfl]
    exact this

/-- What the loop accepts, up to texts of length `m`: a value, the rest of an array, the rest of an object. -/
structure GrammarReads (E : Encoding) (m : Nat) : Prop where
  value : ∀ t : Text, t.length ≤ m → ∀ L, valueThen L (E.text t) = .ok () → ∃ v r, t = Cst.text v ++ r ∧ Accepts E L r
  items : ∀ t : Text, t.length ≤ m → ∀ L, Accepts E (.array .value :: L) t → ∃ es r, t = Items.text es ++ r ∧ Accepts E L r
  members : ∀ t : Text, t.length ≤ m → ∀ L, Accepts E (.object .key :: L) t →
    ∃ ms r, t = Members.text ms ++ r ∧ Accepts E L r

theorem length_dropWs (t : Text) : (dropWs t).length ≤ t.length := (List.dropWhile_sublist _).length_le

theorem reads_value {m : Nat} (ih : GrammarReads E m) {t : Text} (ht : t.length ≤ m + 1) {L : List GrammarLevel}
    (h : valueThen L (E.text t) = .ok ()) : ∃ v r, t = Cst.text v ++ r ∧ Accepts E L r := by
  rw [valueThen] at h
  cases hc : consumeJsonValue L (E.text t) with
  | error e => rw [hc] at h; cases h
  | ok p =>
    obtain ⟨n, L'⟩ := p
    rw [hc] at h
    simp only [Except.bind] at h
    rcases consumeJsonValue_cases E hc with ⟨t', rfl, rfl, rfl⟩ | ⟨t', rfl, rfl, rfl⟩ | ⟨v, r, rfl, rfl, hd⟩
    · have hlen : t'.length ≤ m := by simpa using ht
      rcases accepts_keyOrEnd (accepts_punct (by decide) h) with ⟨r, hr, ha⟩ | ha
      · exact ⟨.obj0 (takeWs t'), r, by simp [Cst.text, ← hr, takeWs_dropWs], ha⟩
      · obtain ⟨ms, r, rfl, hr⟩ := ih.members t' hlen L ha
        exact ⟨.obj ms, r, rfl, hr⟩
    · have hlen : t'.length ≤ m := by simpa using ht
      rcases accepts_valueOrEnd (accepts_punct (by decide) h) with ⟨r, hr, ha⟩ | ha
      · exact ⟨.arr0 (takeWs t'), r, by simp [Cst.text, ← hr, takeWs_dropWs], ha⟩
      · obtain ⟨es, r, rfl, hr⟩ := ih.items t' hlen L ha
        exact ⟨.arr es, r, rfl, hr⟩
    · rw [hd] at h
      exact ⟨v, r, rfl, h⟩

theorem split_ws {t s : Text} (h : dropWs t = s) : ∃ w : Ws, t = w.chars ++ s :=
  ⟨takeWs t, by rw [← h, takeWs_dropWs]⟩

theorem reads_items {m : Nat} (ih : GrammarReads E m) {t : Text} (ht : t.length ≤ m + 1) {L : List GrammarLevel}
    (h : Accepts E (.array .value :: L) t) : ∃ es r, t = Items.text es ++ r ∧ Accepts E L r := by
  have hl := length_dropWs t
  obtain ⟨v, r, hv, ha⟩ := reads_value ih (by omega) (accepts_value h rfl)
  have hpos := v.length_pos
  obtain ⟨w₁, rfl⟩ := split_ws hv
  rcases accepts_afterItem ha with ⟨r', hr', ha'⟩ | ⟨r', hr', ha'⟩
  · obtain ⟨w₂, rfl⟩ := split_ws hr'
    simp only [List.length_append, List.length_cons] at ht
    obtain ⟨es, s, rfl, has⟩ := ih.items r' (by omega) L ha'
    exact ⟨.more w₁ v w₂ es, s, by simp [Items.text], has⟩
  · obtain ⟨w₂, rfl⟩ := split_ws hr'
    exact ⟨.last w₁ v w₂, r', by simp [Items.text], ha'⟩

theorem reads_members {m : Nat} (ih : GrammarReads E m) {t : Text} (ht : t.length ≤ m + 1) {L : List GrammarLevel}
    (h : Accepts E (.object .key :: L) t) : ∃ ms r, t = Members.text ms ++ r ∧ Accepts E L r := by
  obtain ⟨k, r₁, hk, h₁⟩ := accepts_key h
  obtain ⟨w₁, rfl⟩ := split_ws hk
  obtain ⟨r₂, hr₂, h₂⟩ := accepts_colon h₁
  obtain ⟨w₂, rfl⟩ := split_ws hr₂
  have hl := length_dropWs r₂
  simp only [List.length_append, List.length_cons] at ht
  obtain ⟨v, r₃, hv, h₃⟩ := reads_value ih (by omega) (accepts_value h₂ rfl)
  obtain ⟨w₃, rfl⟩ := split_ws hv
  rcases accepts_afterMember h₃ with ⟨r₄, hr₄, h₄⟩ | ⟨r₄, hr₄, h₄⟩
  · obtain ⟨w₄, rfl⟩ := split_ws hr₄
    simp only [List.length_append, List.length_cons] at ht
    obtain ⟨ms, s, rfl, has⟩ := ih.members r₄ (by omega) L h₄
    exact ⟨.more w₁ k w₂ w₃ v w₄ ms, s, by simp [Members.text], has⟩
  · obtain ⟨w₄, rfl⟩ := split_ws hr₄
    exact ⟨.last w₁ k w₂ w₃ v w₄, r₄, by simp [Members.text], h₄⟩

theorem reads (m : Nat) : GrammarReads E m := by
  induction m with
  | zero =>
    refine ⟨?_, ?_, ?_⟩
    · intro t ht L h
      rw [List.length_eq_zero_iff.mp (by omega : t.length = 0)] at h
      cases h
    · intro t ht L h
      rw [List.length_eq_zero_iff.mp (by omega : t.length = 0)] at h
      cases h
    · intro t ht L h
      rw [List.length_eq_zero_iff.mp (by omega : t.length = 0)] at h
      cases h
  | succ m ih => exact ⟨fun t ht L => reads_value ih ht, fun t ht L => reads_items ih ht, fun t ht L => reads_members ih ht⟩

theorem accepts_nil {t : Text} (h : Accepts E [] t) : t.all isWs = true := by
  induction t with
  | nil => rfl
  | cons c t ih =>
    by_cases hc : isWs c = true
    · rw [Accepts, E.text_cons_ascii (ascii_of_ws hc), grammarLoop_white (by rw [isWs_toNat]; exact hc)] at h
      rw [List.all_cons, hc, ih h]; rfl
    · exfalso
      have hs := stops_white E (t := c :: t) (stops_cons _ (by simpa using hc))
      rw [Accepts] at h
      cases htext : E.text (c :: t) with
      | nil => exact absurd ((E.text_eq_nil).mp htext) (List.cons_ne_nil c t)
      | cons u r =>
        rw [htext] at h hs
        rw [grammarLoop] at h
        simp only [hs u (by simp), Bool.false_eq_true, ite_false] at h
        cases h

theorem validateUnits_iff {t : Text} : validateUnits (E.text t) = .ok () ↔ ∃ d : Doc, d.text = t := by
  constructor
  · intro h
    by_cases hne : dropWs t = []
    · rw [validateUnits, nextNonWhitespace_text, hne] at h
      cases h
    · rw [validateUnits_eq E t hne] at h
      obtain ⟨v, r, hv, ha⟩ := (reads (dropWs t).length).value _ (Nat.le_refl _) [] h
      obtain ⟨w, rfl⟩ := split_ws hv
      exact ⟨⟨w, v, ⟨r, accepts_nil ha⟩⟩, rfl⟩
  · rintro ⟨d, rfl⟩
    exact validateUnits_doc E d

end

/-! ## The two walks over a string token agree -/

theorem endOfString_split {us : Units} {k : Nat} (h : endOfString us = some k) :
    ∃ content post, us = content ++ '"'.toNat :: post ∧ k = content.length + 1 ∧
      ∀ post', endOfString (content ++ '"'.toNat :: post') = some k := by
  induction us using endOfString.induct generalizing k with
  | case1 => cases h
  | case2 =>
    rw [endOfString_quote, Option.some.injEq] at h
    exact ⟨[], [], rfl, h.symm, fun post' => by rw [← h]; exact endOfString_quote post'⟩
  | case3 u hu => rw [endOfString, if_neg hu] at h; cases h
  | case4 v r ih =>
    rw [endOfString_escape] at h
    obtain ⟨j, hj, rfl⟩ := Option.map_eq_some_iff.mp h
    obtain ⟨content, post, rfl, rfl, hp⟩ := ih hj
    refine ⟨'\\'.toNat :: v :: content, post, rfl, rfl, fun post' => ?_⟩
    rw [List.cons_append, List.cons_append, endOfString_escape, hp post']
    rfl
  | case5 v r =>
    rw [endOfString_quote, Option.some.injEq] at h
    exact ⟨[], v :: r, rfl, h.symm, fun post' => by rw [← h]; exact endOfString_quote post'⟩
  | case6 u v r hb hq ih =>
    rw [endOfString_cons, if_neg hb, if_neg hq] at h
    obtain ⟨j, hj, rfl⟩ := Option.map_eq_some_iff.mp h
    obtain ⟨content, post, hr, rfl, hp⟩ := ih hj
    refine ⟨u :: content, post, by rw [hr, List.cons_append], rfl, fun post' => ?_⟩
    rw [List.cons_append, endOfString_cons, if_neg hb, if_neg hq, hp post']
    rfl

/-- A token that is found valid is a string body. -/
theorem body_of_valid {E : Encoding} {t : Text} {k : Nat} (hk : endOfString (E.text t) = some (k + 1))
    (hv : (stringTokenState (k + 1) (E.text t)).syntaxValid = true) :
    ∃ b t', t = bodyText b ++ '"' :: t' ∧ k = (E.text (bodyText b)).length := by
  obtain ⟨b, t', rfl⟩ := quoted_of_stringTokenLoop E (t.length + 1) t (Nat.lt_succ_self _) true k hk hv
  rw [E.text_append, E.text_cons_ascii (by decide), (stringToken_body E b _).1, Option.some.injEq] at hk
  exact ⟨b, t', rfl, by omega⟩

/-- On every UTF-8 text the recognizer accepts exactly the JSON texts. Behind an opening quote, where
`end_of_string` puts the closing one decides everything: what comes after it changes neither answer, and a token that
is found valid is a string body of exactly that length, read to its end and not further. -/
theorem validateJsonGrammar_exact :
    (∀ t : Text, validateJsonGrammar (utf8 t) = .ok () ↔ ∃ d : Doc, d.text = t) ∧
    ∀ (t : Text) (k : Nat), endOfString (utf8Encoding.text t) = some k →
      ∃ content post, utf8Encoding.text t = content ++ '"'.toNat :: post ∧ k = content.length + 1 ∧
        (∀ post', endOfString (content ++ '"'.toNat :: post') = some k ∧
          stringTokenState k (content ++ '"'.toNat :: post') = stringTokenState k (utf8Encoding.text t)) ∧
        ((stringTokenState k (utf8Encoding.text t)).syntaxValid = true ↔
          ∃ b, content = utf8Encoding.text (bodyText b)) ∧
        ((stringTokenState k (utf8Encoding.text t)).syntaxValid = true →
          (stringTokenState k (utf8Encoding.text t)).past = 0) := by
  refine ⟨fun t => ?_, fun t k hk => ?_⟩
  · rw [validateJsonGrammar, ← utf8Encoding_text]
    exact validateUnits_iff
  · obtain ⟨content, post, ht, rfl, hp⟩ := endOfString_split hk
    have hbody : ∀ b, content = utf8Encoding.text (bodyText b) →
        stringTokenState (content.length + 1) (utf8Encoding.text t) = ⟨true, (strValue b).isSome, 0⟩ := by
      intro b hb
      rw [ht, hb]
      exact (stringToken_body utf8Encoding b post).2
    have hvalid : (stringTokenState (content.length + 1) (utf8Encoding.text t)).syntaxValid = true →
        ∃ b, content = utf8Encoding.text (bodyText b) := by
      intro hv
      obtain ⟨b, t', rfl, hlen⟩ := body_of_valid hk hv
      rw [utf8Encoding.text_append] at ht
      exact ⟨b, (List.append_inj ht hlen.symm).1.symm⟩
    refine ⟨content, post, ht, rfl, fun post' => ⟨hp post', ?_⟩, ⟨hvalid, ?_⟩, ?_⟩
    · rw [ht]
      exact stringTokenLoop_post post' post content 0 true
    · intro h
      obtain ⟨b, hb⟩ := h
      rw [hbody b hb]
    · intro hv
      obtain ⟨b, hb⟩ := hvalid hv
      rw [hbody b hb]

end Aizign
