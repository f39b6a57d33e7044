import Aizign.Json

/-!
# Reading a JSON text is exact

`parse_text`: every spelled document is read back as itself.
`text_of_parse`: what is read is spelled by the text that was given. The two
together say that `parse` accepts exactly the texts of the grammar and that a
text spells at most one document.
-/

namespace Aizign

/-! ## White space -/

def Stops (p : Char → Bool) (r : Text) : Prop := ∀ c ∈ r.head?, p c = false

theorem stops_nil (p : Char → Bool) : Stops p [] := by simp [Stops]

theorem stops_cons {p : Char → Bool} {c : Char} (r : Text) (h : p c = false) : Stops p (c :: r) := by
  simpa [Stops] using h

theorem takeWhile_append_stops {p : Char → Bool} : ∀ {w r : Text}, w.all p = true → Stops p r →
    (w ++ r).takeWhile p = w ∧ (w ++ r).dropWhile p = r
  | [], [], _, _ => by simp
  | [], c :: r, _, hr => by
    have hc : p c = false := by simpa [Stops] using hr
    simp [hc]
  | a :: w, r, hw, hr => by
    simp only [List.all_cons, Bool.and_eq_true] at hw
    obtain ⟨h₁, h₂⟩ := takeWhile_append_stops hw.2 hr
    simp [hw.1, h₁, h₂]

theorem stops_dropWhile (p : Char → Bool) (t : Text) : Stops p (t.dropWhile p) := by
  intro c hc
  have := List.head?_dropWhile_not p t
  rw [Option.mem_def] at hc
  rw [hc] at this
  simpa using this

theorem takeWs_append (w : Ws) {r : Text} (hr : Stops isWs r) : takeWs (w.chars ++ r) = w := by
  have h := (takeWhile_append_stops w.ok hr).1
  obtain ⟨cs, ok⟩ := w
  simp only [takeWs] at h ⊢
  congr

theorem dropWs_append (w : Ws) {r : Text} (hr : Stops isWs r) : dropWs (w.chars ++ r) = r :=
  (takeWhile_append_stops w.ok hr).2

theorem takeWs_dropWs (t : Text) : (takeWs t).chars ++ dropWs t = t := List.takeWhile_append_dropWhile

theorem numChar_of_isWs {c : Char} (h : isWs c = true) : isNumChar c = false := by
  simp only [isWs, Bool.or_eq_true, beq_iff_eq] at h
  rcases h with ((rfl | rfl) | rfl) | rfl <;> decide

theorem stops_ws_append (w : Ws) {r : Text} (hr : Stops isNumChar r) : Stops isNumChar (w.chars ++ r) := by
  obtain ⟨cs, ok⟩ := w
  cases cs with
  | nil => exact hr
  | cons a cs =>
    simp only [List.all_cons, Bool.and_eq_true] at ok
    exact stops_cons _ (numChar_of_isWs ok.1)

theorem stops_of_ws_cons {c : Char} (w : Ws) (r : Text) (hc : isNumChar c = false) :
    Stops isNumChar (w.chars ++ c :: r) :=
  stops_ws_append w (stops_cons r hc)

/-! ## Words, strings and numbers -/

theorem expect_eq_some {w t r : Text} : expect w t = some r ↔ t = w ++ r := by
  induction w generalizing t with
  | nil => simp [expect]
  | cons a w ih =>
    cases t with
    | nil => simp [expect]
    | cons b t =>
      simp only [expect]
      split
      · rename_i h; subst h; rw [ih]; simp
      · rename_i h; simp [Ne.symm h]

theorem bodyText_cons (c : StrChar) (b : List StrChar) : bodyText (c :: b) = c.text ++ bodyText b := by
  simp [bodyText]

theorem parseBody_text : ∀ (b : List StrChar) (r : Text), parseBody (bodyText b ++ '"' :: r) = some (b, r)
  | [], r => by simp [bodyText, parseBody]
  | .raw c h :: b, r => by
    have h₁ : c ≠ '"' := by rintro rfl; revert h; decide
    have h₂ : c ≠ '\\' := by rintro rfl; revert h; decide
    rw [bodyText_cons]
    simp only [StrChar.text, List.cons_append, List.nil_append]
    rw [parseBody]
    · simp [h, parseBody_text b r]
    all_goals simp_all
  | .esc e h :: b, r => by
    have h₁ : e ≠ 'u' := by rintro rfl; revert h; decide
    rw [bodyText_cons]
    simp only [StrChar.text, List.cons_append, List.nil_append]
    rw [parseBody]
    · simp [h, parseBody_text b r]
    · intro a b' c d r' he; exact absurd he h₁
  | .uni a b' c d h :: b, r => by
    rw [bodyText_cons]
    simp only [StrChar.text, List.cons_append, List.nil_append]
    rw [parseBody]
    simp [h, parseBody_text b r]

theorem text_of_parseBody {t r : Text} {b : List StrChar} (h : parseBody t = some (b, r)) :
    t = bodyText b ++ '"' :: r := by
  fun_induction parseBody t generalizing b with
  | case1 => simp at h
  | case2 r' => simp only [Option.some.injEq, Prod.mk.injEq] at h; obtain ⟨rfl, rfl⟩ := h; rfl
  | case3 a b' c d r' hx ih =>
    rw [Option.map_eq_some_iff] at h
    obtain ⟨p, hp, he⟩ := h
    simp only [Prod.mk.injEq] at he
    obtain ⟨rfl, rfl⟩ := he
    rw [ih hp, bodyText_cons]; rfl
  | case4 => simp at h
  | case5 e r' _ hx ih =>
    rw [Option.map_eq_some_iff] at h
    obtain ⟨p, hp, he⟩ := h
    simp only [Prod.mk.injEq] at he
    obtain ⟨rfl, rfl⟩ := he
    rw [ih hp, bodyText_cons]; rfl
  | case6 => simp at h
  | case7 c r' _ _ _ hx ih =>
    rw [Option.map_eq_some_iff] at h
    obtain ⟨p, hp, he⟩ := h
    simp only [Prod.mk.injEq] at he
    obtain ⟨rfl, rfl⟩ := he
    rw [ih hp, bodyText_cons]; rfl
  | case8 => simp at h

theorem numChar_of_isDigit {c : Char} (h : c.isDigit = true) : isNumChar c = true := by
  simp [isNumChar, h]

theorem all_numChar_of_digits1 {t r : Text} (h : digits1 t = some r) (hr : r.all isNumChar = true) :
    t.all isNumChar = true := by
  cases t with
  | nil => simp [digits1] at h
  | cons c t =>
    simp only [digits1] at h
    split at h
    · rename_i hc
      simp only [Option.some.injEq] at h
      have hs : (t.takeWhile Char.isDigit ++ t.dropWhile Char.isDigit).all isNumChar = true := by
        rw [List.all_append, h, hr, Bool.and_true, List.all_eq_true]
        intro x hx
        exact numChar_of_isDigit (List.all_eq_true.mp List.all_takeWhile x hx)
      rw [List.takeWhile_append_dropWhile] at hs
      simp [numChar_of_isDigit hc, hs]
    · cases h

theorem isNumber_parts {t : Text} (h : isNumber t = true) :
    ∃ r₁ r₂, intPart (dropMinus t) = some r₁ ∧ fracPart r₁ = some r₂ ∧ expPart r₂ = some [] := by
  unfold isNumber at h
  split at h
  · cases h
  · rename_i r₁ h₁
    split at h
    · cases h
    · rename_i r₂ h₂
      exact ⟨r₁, r₂, h₁, h₂, by simpa using h⟩

theorem all_numChar_of_isNumber {t : Text} (h : isNumber t = true) : t.all isNumChar = true := by
  obtain ⟨r₁, r₂, h₁, h₂, h₃⟩ := isNumber_parts h
  have a₂ : r₂.all isNumChar = true := by
    unfold expPart at h₃
    split at h₃
    · rfl
    · rename_i c r
      split at h₃
      · rename_i hc
        have hc' : isNumChar c = true := by rcases hc with rfl | rfl <;> decide
        have hp : isNumChar '+' = true := by decide
        have hm : isNumChar '-' = true := by decide
        split at h₃ <;> simp [hc', hp, hm, all_numChar_of_digits1 h₃ rfl]
      · cases h₃
  have a₁ : r₁.all isNumChar = true := by
    unfold fracPart at h₂
    split at h₂
    · simp [all_numChar_of_digits1 h₂ a₂, isNumChar]
    · simp only [Option.some.injEq] at h₂; rw [h₂]; exact a₂
  have a₀ : (dropMinus t).all isNumChar = true := by
    unfold intPart at h₁
    split at h₁
    · cases h₁
    · rename_i hd
      rw [hd]
      split at h₁
      · rename_i hc
        simp only [Option.some.injEq] at h₁
        subst hc; subst h₁; simp [a₁, isNumChar]
      · exact all_numChar_of_digits1 h₁ a₁
  unfold dropMinus at a₀
  split at a₀
  · simp [a₀, isNumChar]
  · exact a₀

/-- A number token starts with a minus sign or a digit. -/
theorem head_of_isNumber {t : Text} (h : isNumber t = true) :
    ∃ c r, t = c :: r ∧ (c = '-' ∨ c.isDigit = true) := by
  obtain ⟨r₁, -, h₁, -⟩ := isNumber_parts h
  cases t with
  | nil => simp [dropMinus, intPart] at h₁
  | cons c r =>
    refine ⟨c, r, rfl, ?_⟩
    by_cases hm : c = '-'
    · exact Or.inl hm
    · right
      have hd : dropMinus (c :: r) = c :: r := by unfold dropMinus; split <;> simp_all
      rw [hd] at h₁
      simp only [intPart] at h₁
      split at h₁
      · rename_i hc; subst hc; decide
      · simp only [digits1] at h₁; split at h₁
        · assumption
        · cases h₁

theorem parseNum_tok (n : Num) {r : Text} (hr : Stops isNumChar r) : parseNum (n.tok ++ r) = some (n, r) := by
  obtain ⟨h₁, h₂⟩ := takeWhile_append_stops (all_numChar_of_isNumber n.ok) hr
  unfold parseNum
  simp [h₁, h₂, n.ok]

theorem text_of_parseNum {t r : Text} {n : Num} (h : parseNum t = some (n, r)) :
    t = n.tok ++ r ∧ Stops isNumChar r := by
  unfold parseNum at h
  split at h
  · simp only [Option.some.injEq, Prod.mk.injEq] at h
    obtain ⟨rfl, rfl⟩ := h
    exact ⟨List.takeWhile_append_dropWhile.symm, stops_dropWhile _ _⟩
  · cases h

/-! ## Values -/

/-- The first character of a value: never white space, a closing bracket, or a comma. -/
theorem Cst.head (v : Cst) :
    ∃ c r, v.text = c :: r ∧ isWs c = false ∧ c ≠ ']' ∧ c ≠ '}' := by
  cases v with
  | num n =>
    obtain ⟨c, r, h, hc⟩ := head_of_isNumber n.ok
    refine ⟨c, r, h, ?_⟩
    rcases hc with rfl | hc
    · decide
    · refine ⟨?_, ?_, ?_⟩
      · cases hw : isWs c with
        | false => rfl
        | true =>
          simp only [isWs, Bool.or_eq_true, beq_iff_eq] at hw
          rcases hw with ((rfl | rfl) | rfl) | rfl <;> exact absurd hc (by decide)
      · rintro rfl; exact absurd hc (by decide)
      · rintro rfl; exact absurd hc (by decide)
  | str b => exact ⟨_, _, rfl, by decide⟩
  | null => exact ⟨_, _, rfl, by decide⟩
  | bool b => cases b <;> exact ⟨_, _, rfl, by decide⟩
  | arr0 w => exact ⟨_, _, rfl, by decide⟩
  | arr es => exact ⟨_, _, rfl, by decide⟩
  | obj0 w => exact ⟨_, _, rfl, by decide⟩
  | obj ms => exact ⟨_, _, rfl, by decide⟩

theorem Cst.stops_text (v : Cst) (r : Text) : Stops isWs (v.text ++ r) := by
  obtain ⟨c, t, h, hc, -⟩ := v.head
  rw [h]; exact stops_cons _ hc

theorem Cst.length_pos (v : Cst) : 0 < v.text.length := by
  obtain ⟨c, t, h, -⟩ := v.head
  rw [h]; simp

theorem parseValue_obj {n : Nat} {ms : Members} {t r : Text} (hd : ∀ r', dropWs t ≠ '}' :: r')
    (h : parseMembers n t = some (ms, r)) : parseValue (n + 1) ('{' :: t) = some (.obj ms, r) := by
  rw [parseValue]
  simp [h]

theorem parseValue_arr {n : Nat} {es : Items} {t r : Text} (hd : ∀ r', dropWs t ≠ ']' :: r')
    (h : parseItems n t = some (es, r)) : parseValue (n + 1) ('[' :: t) = some (.arr es, r) := by
  rw [parseValue]
  simp [h]

theorem parseValue_num {m : Nat} (n : Num) {r : Text} (hr : Stops isNumChar r) :
    parseValue (m + 1) (n.tok ++ r) = some (.num n, r) := by
  obtain ⟨c, t, h, hc⟩ := head_of_isNumber n.ok
  have hne : ∀ d : Char, d.isDigit = false → d ≠ '-' → c ≠ d := by
    rintro d hd hm rfl
    rcases hc with rfl | hc
    · exact hm rfl
    · rw [hd] at hc; cases hc
  have hp := parseNum_tok n hr
  rw [h] at hp ⊢
  rw [List.cons_append, parseValue]
  simp only [hne '{' (by decide) (by decide), hne '[' (by decide) (by decide), hne '"' (by decide) (by decide),
    hne 't' (by decide) (by decide), hne 'f' (by decide) (by decide), hne 'n' (by decide) (by decide), ite_false]
  rw [List.cons_append] at hp
  simp [hp]

theorem dropWs_items_ne (es : Items) (r r' : Text) : dropWs (es.text ++ r) ≠ ']' :: r' := by
  have key : ∀ (w : Ws) (v : Cst) (t : Text), dropWs (w.chars ++ (v.text ++ t)) ≠ ']' :: r' := by
    intro w v t
    obtain ⟨c, u, h, -, hc, -⟩ := v.head
    rw [dropWs_append w (v.stops_text t), h]
    simp [hc]
  cases es with
  | last w₁ v w₂ => simpa [Items.text] using key w₁ v _
  | more w₁ v w₂ rest => simpa [Items.text] using key w₁ v _

theorem dropWs_members_ne (ms : Members) (r r' : Text) : dropWs (ms.text ++ r) ≠ '}' :: r' := by
  have key : ∀ (w : Ws) (t : Text), dropWs (w.chars ++ '"' :: t) ≠ '}' :: r' := by
    intro w t
    rw [dropWs_append w (stops_cons t (by decide))]
    simp
  cases ms with
  | last w₁ k w₂ w₃ v w₄ => simpa [Members.text, strText] using key w₁ _
  | more w₁ k w₂ w₃ v w₄ rest => simpa [Members.text, strText] using key w₁ _

mutual

theorem parseValue_text (v : Cst) : ∀ {n : Nat} {r : Text}, v.text.length ≤ n →
    (∀ k, v = .num k → Stops isNumChar r) → parseValue n (v.text ++ r) = some (v, r) := by
  intro n r hn hr
  have hpos := v.length_pos
  obtain ⟨m, rfl⟩ : ∃ m, n = m + 1 := ⟨n - 1, by omega⟩
  cases v with
  | null => simp [Cst.text, parseValue, expect]
  | bool b => cases b <;> simp [Cst.text, parseValue, expect]
  | num k => exact parseValue_num k (hr k rfl)
  | str b => simp [Cst.text, strText, parseValue, parseBody_text]
  | arr0 w =>
    simp only [Cst.text, List.cons_append, List.append_assoc, parseValue]
    rw [dropWs_append w (stops_cons _ (by decide)), takeWs_append w (stops_cons _ (by decide))]
    simp
  | obj0 w =>
    simp only [Cst.text, List.cons_append, List.append_assoc, parseValue]
    rw [dropWs_append w (stops_cons _ (by decide)), takeWs_append w (stops_cons _ (by decide))]
    simp
  | arr es =>
    simp only [Cst.text, List.length_cons] at hn
    exact parseValue_arr (dropWs_items_ne es r) (parseItems_text es (by omega))
  | obj ms =>
    simp only [Cst.text, List.length_cons] at hn
    exact parseValue_obj (dropWs_members_ne ms r) (parseMembers_text ms (by omega))

theorem parseItems_text (es : Items) : ∀ {n : Nat} {r : Text}, es.text.length ≤ n →
    parseItems n (es.text ++ r) = some (es, r) := by
  intro n r hn
  cases es with
  | last w₁ v w₂ =>
    simp only [Items.text, List.length_append, List.length_cons, List.length_nil] at hn
    obtain ⟨m, rfl⟩ : ∃ m, n = m + 1 := ⟨n - 1, by omega⟩
    simp only [Items.text, List.append_assoc, List.cons_append, List.nil_append, parseItems]
    rw [dropWs_append w₁ (v.stops_text _), takeWs_append w₁ (v.stops_text _),
      parseValue_text v (by omega) (fun _ _ => stops_of_ws_cons w₂ r (by decide))]
    simp only
    rw [dropWs_append w₂ (stops_cons _ (by decide)), takeWs_append w₂ (stops_cons _ (by decide))]
    simp only
  | more w₁ v w₂ rest =>
    simp only [Items.text, List.length_append, List.length_cons] at hn
    obtain ⟨m, rfl⟩ : ∃ m, n = m + 1 := ⟨n - 1, by omega⟩
    simp only [Items.text, List.append_assoc, List.cons_append, parseItems]
    rw [dropWs_append w₁ (v.stops_text _), takeWs_append w₁ (v.stops_text _),
      parseValue_text v (by omega) (fun _ _ => stops_of_ws_cons w₂ _ (by decide))]
    simp only
    rw [dropWs_append w₂ (stops_cons _ (by decide)), takeWs_append w₂ (stops_cons _ (by decide))]
    simp [parseItems_text rest (show rest.text.length ≤ m by omega)]

theorem parseMembers_text (ms : Members) : ∀ {n : Nat} {r : Text}, ms.text.length ≤ n →
    parseMembers n (ms.text ++ r) = some (ms, r) := by
  intro n r hn
  cases ms with
  | last w₁ k w₂ w₃ v w₄ =>
    simp only [Members.text, List.length_append, List.length_cons, List.length_nil] at hn
    obtain ⟨m, rfl⟩ : ∃ m, n = m + 1 := ⟨n - 1, by omega⟩
    simp only [Members.text, strText, List.append_assoc, List.cons_append, List.nil_append, parseMembers]
    rw [dropWs_append w₁ (stops_cons _ (by decide)), takeWs_append w₁ (stops_cons _ (by decide))]
    simp only [parseBody_text]
    rw [dropWs_append w₂ (stops_cons _ (by decide)), takeWs_append w₂ (stops_cons _ (by decide))]
    simp only
    rw [dropWs_append w₃ (v.stops_text _), takeWs_append w₃ (v.stops_text _),
      parseValue_text v (by omega) (fun _ _ => stops_of_ws_cons w₄ _ (by decide))]
    simp only
    rw [dropWs_append w₄ (stops_cons _ (by decide)), takeWs_append w₄ (stops_cons _ (by decide))]
    simp only
  | more w₁ k w₂ w₃ v w₄ rest =>
    simp only [Members.text, List.length_append, List.length_cons] at hn
    obtain ⟨m, rfl⟩ : ∃ m, n = m + 1 := ⟨n - 1, by omega⟩
    simp only [Members.text, strText, List.append_assoc, List.cons_append, List.nil_append, parseMembers]
    rw [dropWs_append w₁ (stops_cons _ (by decide)), takeWs_append w₁ (stops_cons _ (by decide))]
    simp only [parseBody_text]
    rw [dropWs_append w₂ (stops_cons _ (by decide)), takeWs_append w₂ (stops_cons _ (by decide))]
    simp only
    rw [dropWs_append w₃ (v.stops_text _), takeWs_append w₃ (v.stops_text _),
      parseValue_text v (by omega) (fun _ _ => stops_of_ws_cons w₄ _ (by decide))]
    simp only
    rw [dropWs_append w₄ (stops_cons _ (by decide)), takeWs_append w₄ (stops_cons _ (by decide))]
    simp [parseMembers_text rest (show rest.text.length ≤ m by omega)]

end

theorem parse_text (d : Doc) : parse d.text = some d := by
  obtain ⟨w₁, v, w₂⟩ := d
  have hs : Stops isNumChar w₂.chars := by simpa using stops_ws_append w₂ (stops_nil _)
  unfold parse
  simp only [Doc.text]
  rw [dropWs_append w₁ (v.stops_text _), takeWs_append w₁ (v.stops_text _),
    parseValue_text v (by simp; omega) (fun _ _ => hs)]
  simp [w₂.ok]

mutual

theorem text_of_parseValue : ∀ (n : Nat) {t r : Text} {v : Cst}, parseValue n t = some (v, r) →
    t = v.text ++ r
  | 0, _, _, _, h => by simp [parseValue] at h
  | n + 1, [], _, _, h => by simp [parseValue] at h
  | n + 1, c :: t, r, v, h => by
    rw [parseValue] at h
    split at h
    · rename_i hc; subst hc
      split at h
      · rename_i r' hd
        simp only [Option.some.injEq, Prod.mk.injEq] at h
        obtain ⟨rfl, rfl⟩ := h
        simp [Cst.text, ← hd, takeWs_dropWs]
      · rw [Option.map_eq_some_iff] at h
        obtain ⟨p, hp, he⟩ := h
        simp only [Prod.mk.injEq] at he
        obtain ⟨rfl, rfl⟩ := he
        rw [text_of_parseMembers n hp]; rfl
    split at h
    · rename_i hc; subst hc
      split at h
      · rename_i r' hd
        simp only [Option.some.injEq, Prod.mk.injEq] at h
        obtain ⟨rfl, rfl⟩ := h
        simp [Cst.text, ← hd, takeWs_dropWs]
      · rw [Option.map_eq_some_iff] at h
        obtain ⟨p, hp, he⟩ := h
        simp only [Prod.mk.injEq] at he
        obtain ⟨rfl, rfl⟩ := he
        rw [text_of_parseItems n hp]; rfl
    split at h
    · rename_i hc; subst hc
      rw [Option.map_eq_some_iff] at h
      obtain ⟨p, hp, he⟩ := h
      simp only [Prod.mk.injEq] at he
      obtain ⟨rfl, rfl⟩ := he
      rw [text_of_parseBody hp]
      simp [Cst.text, strText]
    -- the three literal names
    split at h
    · rename_i hc; subst hc
      rw [Option.map_eq_some_iff] at h
      obtain ⟨p, hp, he⟩ := h
      simp only [Prod.mk.injEq] at he
      obtain ⟨rfl, rfl⟩ := he
      rw [expect_eq_some.mp hp]; rfl
    split at h
    · rename_i hc; subst hc
      rw [Option.map_eq_some_iff] at h
      obtain ⟨p, hp, he⟩ := h
      simp only [Prod.mk.injEq] at he
      obtain ⟨rfl, rfl⟩ := he
      rw [expect_eq_some.mp hp]; rfl
    split at h
    · rename_i hc; subst hc
      rw [Option.map_eq_some_iff] at h
      obtain ⟨p, hp, he⟩ := h
      simp only [Prod.mk.injEq] at he
      obtain ⟨rfl, rfl⟩ := he
      rw [expect_eq_some.mp hp]; rfl
    · rw [Option.map_eq_some_iff] at h
      obtain ⟨p, hp, he⟩ := h
      simp only [Prod.mk.injEq] at he
      obtain ⟨rfl, rfl⟩ := he
      exact (text_of_parseNum hp).1

theorem text_of_parseItems : ∀ (n : Nat) {t r : Text} {es : Items}, parseItems n t = some (es, r) →
    t = es.text ++ r
  | 0, _, _, _, h => by simp [parseItems] at h
  | n + 1, t, r, es, h => by
    rw [parseItems] at h
    split at h
    · cases h
    · rename_i v r₁ hv
      have h₁ := text_of_parseValue n hv
      split at h
      · rename_i r₂ hd
        simp only [Option.some.injEq, Prod.mk.injEq] at h
        obtain ⟨rfl, rfl⟩ := h
        conv_lhs => rw [← takeWs_dropWs t, h₁, ← takeWs_dropWs r₁, hd]
        simp [Items.text]
      · rename_i r₂ hd
        rw [Option.map_eq_some_iff] at h
        obtain ⟨p, hp, he⟩ := h
        simp only [Prod.mk.injEq] at he
        obtain ⟨rfl, rfl⟩ := he
        conv_lhs => rw [← takeWs_dropWs t, h₁, ← takeWs_dropWs r₁, hd, text_of_parseItems n hp]
        simp [Items.text]
      · cases h

theorem text_of_parseMembers : ∀ (n : Nat) {t r : Text} {ms : Members}, parseMembers n t = some (ms, r) →
    t = ms.text ++ r
  | 0, _, _, _, h => by simp [parseMembers] at h
  | n + 1, t, r, ms, h => by
    rw [parseMembers] at h
    split at h
    · rename_i r₁ h₁
      split at h
      · cases h
      · rename_i k r₂ hk
        have h₂ := text_of_parseBody hk
        split at h
        · rename_i r₃ h₃
          split at h
          · cases h
          · rename_i v r₄ hv
            have h₄ := text_of_parseValue n hv
            split at h
            · rename_i r₅ h₅
              simp only [Option.some.injEq, Prod.mk.injEq] at h
              obtain ⟨rfl, rfl⟩ := h
              conv_lhs =>
                rw [← takeWs_dropWs t, h₁, h₂, ← takeWs_dropWs r₂, h₃, ← takeWs_dropWs r₃, h₄,
                  ← takeWs_dropWs r₄, h₅]
              simp [Members.text, strText]
            · rename_i r₅ h₅
              rw [Option.map_eq_some_iff] at h
              obtain ⟨p, hp, he⟩ := h
              simp only [Prod.mk.injEq] at he
              obtain ⟨rfl, rfl⟩ := he
              conv_lhs =>
                rw [← takeWs_dropWs t, h₁, h₂, ← takeWs_dropWs r₂, h₃, ← takeWs_dropWs r₃, h₄,
                  ← takeWs_dropWs r₄, h₅, text_of_parseMembers n hp]
              simp [Members.text, strText]
            · cases h
        · cases h
    · cases h

end

theorem text_of_parse {t : Text} {d : Doc} (h : parse t = some d) : d.text = t := by
  unfold parse at h
  split at h
  · cases h
  · rename_i v r hv
    split at h
    · simp only [Option.some.injEq] at h
      subst h
      simp only [Doc.text]
      rw [← text_of_parseValue _ hv, takeWs_dropWs]
    · cases h

/-- `parse` decides the grammar, and a text spells at most one document. -/
theorem parse_eq_some_iff {t : Text} {d : Doc} : parse t = some d ↔ d.text = t := by
  constructor
  · exact text_of_parse
  · rintro rfl; exact parse_text d

/-- A text that starts with an opening brace and is cut short of its closing one is not a JSON text. -/
theorem parse_strict_prefix {v : Cst} {t p q : Text} (hv : v.text = '{' :: t) (hpq : v.text = p ++ q)
    (hq : q ≠ []) : parse p = none := by
  cases hp : parse p with
  | none => rfl
  | some d =>
    exfalso
    obtain ⟨⟨w, hw⟩, u, w'⟩ := d
    have hd := text_of_parse hp
    simp only [Doc.text] at hd
    have hvd : v.text = w ++ (u.text ++ (w'.chars ++ q)) := by rw [hpq, ← hd]; simp
    have hw0 : w = [] := by
      cases w with
      | nil => rfl
      | cons a w =>
        simp only [List.all_cons, Bool.and_eq_true] at hw
        rw [hv, List.cons_append, List.cons.injEq] at hvd
        rw [← hvd.1] at hw
        exact absurd hw.1 (by decide)
    subst hw0
    rw [List.nil_append] at hvd
    have hnum : ∀ k, u ≠ .num k := by
      rintro k rfl
      obtain ⟨c, r, hk, hc⟩ := head_of_isNumber k.ok
      rw [hv] at hvd
      simp only [Cst.text, hk, List.cons_append, List.cons.injEq] at hvd
      rw [← hvd.1] at hc
      exact absurd hc (by decide)
    have h₁ := parseValue_text v (r := []) (Nat.le_refl _) (fun _ _ => stops_nil _)
    rw [List.append_nil, hvd] at h₁
    have h₂ := parseValue_text u (n := (u.text ++ (w'.chars ++ q)).length) (r := w'.chars ++ q) (by simp)
      (fun k hk => absurd hk (hnum k))
    rw [h₁] at h₂
    simp only [Option.some.injEq, Prod.mk.injEq, List.nil_eq, List.append_eq_nil_iff] at h₂
    exact hq h₂.2.2

theorem Doc.text_inj {d e : Doc} (h : d.text = e.text) : d = e := by
  have := parse_text d
  rw [h, parse_text e] at this
  exact (Option.some.inj this).symm

end Aizign
