import Aizign.JsonTokenSound

/-!
# A scan as a walk over the tree

A scanner that runs `tokenLoop` over the code units of a JSON text visits the
tokens of its tree in source order. `Cst.walk` is that visit by recursion on
the tree; `tokenLoop_doc` says that the two give the same final state, for
every encoding and every pair of a reader and a handler that agree on single
tokens.
-/

namespace Aizign

structure Handler (σ : Type) where
  string : σ → (index : Nat) → List StrChar → (isName : Bool) → σ
  opened : σ → (index : Nat) → (isObject : Bool) → σ
  closed : σ → (index : Nat) → σ
  number : σ → (index : Nat) → Num → σ
  word : σ → (index : Nat) → Option Bool → σ

def Encoding.size (E : Encoding) (t : Text) : Nat := (E.text t).length

theorem Encoding.size_append (E : Encoding) (s t : Text) : E.size (s ++ t) = E.size s + E.size t := by
  rw [Encoding.size, E.text_append, List.length_append]; rfl

theorem Encoding.size_cons (E : Encoding) {c : Char} (h : c.toNat < 0x80) (t : Text) : E.size (c :: t) = E.size t + 1 := by
  rw [Encoding.size, E.text_cons_ascii h, List.length_cons]; rfl

theorem Encoding.size_nil (E : Encoding) : E.size [] = 0 := rfl

section
variable {σ : Type} (E : Encoding) (H : Handler σ)

mutual

def Cst.walk (i : Nat) (s : σ) : Cst → σ
  | .null => H.word s i none
  | .bool b => H.word s i (some b)
  | .num n => H.number s i n
  | .str b => H.string s i b false
  | .arr0 w => H.closed (H.opened s i false) (i + 1 + E.size w.chars)
  | .arr es => es.walk (i + 1) (H.opened s i false)
  | .obj0 w => H.closed (H.opened s i true) (i + 1 + E.size w.chars)
  | .obj ms => ms.walk (i + 1) (H.opened s i true)

def Items.walk (i : Nat) (s : σ) : Items → σ
  | .last w₁ v w₂ =>
    H.closed (v.walk (i + E.size w₁.chars) s) (i + E.size w₁.chars + E.size v.text + E.size w₂.chars)
  | .more w₁ v w₂ rest =>
    rest.walk (i + E.size w₁.chars + E.size v.text + E.size w₂.chars + 1) (v.walk (i + E.size w₁.chars) s)

def Members.walk (i : Nat) (s : σ) : Members → σ
  | .last w₁ k w₂ w₃ v w₄ =>
    let j := i + E.size w₁.chars + E.size (strText k) + E.size w₂.chars + 1 + E.size w₃.chars
    H.closed (v.walk j (H.string s (i + E.size w₁.chars) k true)) (j + E.size v.text + E.size w₄.chars)
  | .more w₁ k w₂ w₃ v w₄ rest =>
    let j := i + E.size w₁.chars + E.size (strText k) + E.size w₂.chars + 1 + E.size w₃.chars
    rest.walk (j + E.size v.text + E.size w₄.chars + 1) (v.walk j (H.string s (i + E.size w₁.chars) k true))

end

def wordText : Option Bool → Text
  | none => Cst.text .null
  | some b => Cst.text (.bool b)

/-- The reader does with the units of a token what the handler does with the token. -/
structure TokenReader.Reads (R : TokenReader σ) : Prop where
  string : ∀ s i b post isName, R.string s i ((E.text (bodyText b)).length + 1)
    (E.text (bodyText b) ++ '"'.toNat :: post) isName = H.string s i b isName
  opened : ∀ s i isObject, R.opened s i isObject = H.opened s i isObject
  closed : ∀ s i, R.closed s i = H.closed s i
  number : ∀ s i n, R.number s i (E.text n.tok) = H.number s i n
  literal : ∀ s i w post, R.literal s i (E.text (wordText w) ++ post) = H.word s i w

end

/-! ## Single tokens -/

section
variable {σ : Type} (R : TokenReader σ)

theorem tokenLoop_skip {n : Nat} {us : Units} (i : Nat) (s : σ) (h : n ≤ us.length) :
    tokenLoop R i n s us = tokenLoop R (i + n) 0 s (us.drop n) := by
  induction n generalizing us i with
  | zero => rfl
  | succ n ih =>
    cases us with
    | nil => cases h
    | cons u us =>
      rw [tokenLoop, ih (i + 1) (Nat.le_of_succ_le_succ h), List.drop_succ_cons]
      congr 1
      omega

def isGap (c : Char) : Bool :=
  c != '"' && c != '{' && c != '[' && c != '}' && c != ']' && c != '-' && !c.isDigit && c != 't' && c != 'f' && c != 'n'

theorem tokenLoop_gap {c : Char} (h : isGap c = true) (i : Nat) (s : σ) (r : Units) :
    tokenLoop R i 0 s (c.toNat :: r) = tokenLoop R (i + 1) 0 s r := by
  have hne : ∀ d : Char, c ≠ d → c.toNat ≠ d.toNat := fun d hd he => hd (Char.toNat_inj.mp he)
  simp only [isGap, Bool.and_eq_true, bne_iff_ne, Bool.not_eq_true'] at h
  obtain ⟨⟨⟨⟨⟨⟨⟨⟨⟨h₁, h₂⟩, h₃⟩, h₄⟩, h₅⟩, h₆⟩, h₇⟩, h₈⟩, h₉⟩, h₁₀⟩ := h
  rw [isDigit_iff] at h₇
  rw [tokenLoop, if_neg (hne _ h₁), if_neg (not_or.mpr ⟨hne _ h₂, hne _ h₃⟩), if_neg (not_or.mpr ⟨hne _ h₄, hne _ h₅⟩),
    if_neg (not_or.mpr ⟨hne _ h₆, by rw [h₇]; decide⟩),
    if_neg (not_or.mpr ⟨hne _ h₈, not_or.mpr ⟨hne _ h₉, hne _ h₁₀⟩⟩)]

end

theorem gap_of_ws {c : Char} (h : isWs c = true) : isGap c = true := by
  simp only [isWs, Bool.or_eq_true, beq_iff_eq] at h
  rcases h with ((rfl | rfl) | rfl) | rfl <;> decide

section
variable {σ : Type} (E : Encoding) {R : TokenReader σ} {H : Handler σ}

theorem tokenLoop_gaps {g : Text} (ha : isAscii g = true) (hg : g.all isGap = true) (i : Nat) (s : σ) (t : Text) :
    tokenLoop R i 0 s (E.text (g ++ t)) = tokenLoop R (i + E.size g) 0 s (E.text t) := by
  induction g generalizing i with
  | nil => rfl
  | cons c g ih =>
    rw [isAscii_cons, Bool.and_eq_true, decide_eq_true_eq] at ha
    rw [List.all_cons, Bool.and_eq_true] at hg
    rw [List.cons_append, E.text_cons_ascii ha.1, tokenLoop_gap R hg.1, ih ha.2 hg.2, E.size_cons ha.1]
    congr 1
    omega

theorem tokenLoop_ws (w : Ws) (i : Nat) (s : σ) (t : Text) :
    tokenLoop R i 0 s (E.text (w.chars ++ t)) = tokenLoop R (i + E.size w.chars) 0 s (E.text t) := by
  obtain ⟨w, hw⟩ := w
  apply tokenLoop_gaps
  · rw [isAscii, List.all_eq_true]
    exact fun c hc => decide_eq_true (ascii_of_ws (List.all_eq_true.mp hw c hc))
  · rw [List.all_eq_true]
    exact fun c hc => gap_of_ws (List.all_eq_true.mp hw c hc)

theorem tokenLoop_punct {c : Char} (ha : c.toNat < 0x80) (hg : isGap c = true) (i : Nat) (s : σ) (t : Text) :
    tokenLoop R i 0 s (E.text (c :: t)) = tokenLoop R (i + 1) 0 s (E.text t) := by
  rw [E.text_cons_ascii ha, tokenLoop_gap R hg]

/-- Whether a colon comes next, as both see it. -/
theorem colon_text (t : Text) :
    ((nextNonWhitespace (E.text t)).head? == some ':'.toNat) = ((dropWs t).head? == some ':') := by
  rw [nextNonWhitespace_text]
  cases dropWs t with
  | nil => rfl
  | cons c r =>
    obtain ⟨u, us, hu⟩ := List.exists_cons_of_length_pos (E.length_char_pos c)
    have h := char_ascii_iff E (c := c) (d := ':') (by decide) hu
    rw [E.text_cons, hu, List.cons_append, List.head?_cons, List.head?_cons]
    by_cases hc : c = ':'
    · rw [h.mpr hc, hc]; rfl
    · rw [beq_eq_false_iff_ne.mpr, beq_eq_false_iff_ne.mpr]
      · exact fun e => hc (Option.some.inj e)
      · exact fun e => hc (h.mp (Option.some.inj e))

variable (hR : R.Reads E H)
include hR

theorem tokenLoop_str (b : List StrChar) (i : Nat) (s : σ) (t : Text) :
    tokenLoop R i 0 s (E.text (strText b ++ t)) =
      tokenLoop R (i + E.size (strText b)) 0 (H.string s i b ((dropWs t).head? == some ':')) (E.text t) := by
  have hstr : strText b ++ t = '"' :: (bodyText b ++ '"' :: t) := by simp [strText]
  have hsize : E.size (strText b) = (E.text (bodyText b)).length + 2 := by
    rw [strText, E.size_cons (by decide), E.size_append, E.size_cons (by decide), E.size_nil]; rfl
  have htext : E.text (bodyText b ++ '"' :: t) = E.text (bodyText b) ++ '"'.toNat :: E.text t := by
    rw [E.text_append, E.text_cons_ascii (by decide)]
  have hdrop : (E.text (bodyText b) ++ '"'.toNat :: E.text t).drop ((E.text (bodyText b)).length + 1) = E.text t := by
    rw [← List.drop_drop, List.drop_left, List.drop_succ_cons, List.drop_zero]
  rw [hstr, E.text_cons_ascii (by decide), htext, tokenLoop, if_pos rfl, (stringToken_body E b (E.text t)).1]
  simp only [hdrop]
  rw [colon_text, hR.string, tokenLoop_skip R _ _ (by simp), hdrop, hsize]
  congr 1
  omega

theorem tokenLoop_num (n : Num) (i : Nat) (s : σ) {t : Text} (ht : StopsToken t) :
    tokenLoop R i 0 s (E.text (n.tok ++ t)) = tokenLoop R (i + E.size n.tok) 0 (H.number s i n) (E.text t) := by
  obtain ⟨c, r, hr, hlt, hunit, hne⟩ := num_head n
  obtain ⟨htake, hdrop⟩ := numberEnd_num E n ht
  have htext : E.text (n.tok ++ t) = c.toNat :: E.text (r ++ t) := by
    rw [hr, List.cons_append, E.text_cons_ascii hlt]
  have hend : numberEnd (E.text (n.tok ++ t)) = E.size n.tok := by
    have hl := congrArg List.length hdrop
    have hle : numberEnd (E.text (n.tok ++ t)) ≤ (E.text (n.tok ++ t)).length := (List.takeWhile_sublist _).length_le
    have happ : (E.text (n.tok ++ t)).length = E.size n.tok + (E.text t).length := by
      rw [E.text_append, List.length_append]; rfl
    rw [List.length_drop] at hl
    omega
  have hpos : 0 < E.size n.tok := by rw [hr, E.size_cons hlt]; omega
  have hsize : E.size n.tok - 1 ≤ (E.text (r ++ t)).length := by
    rw [hr, E.size_cons hlt, E.text_append, List.length_append, Encoding.size]
    omega
  rw [hend] at htake hdrop
  rw [htext] at htake hdrop hend ⊢
  rw [tokenLoop, if_neg (hne _ (by decide) (by decide)),
    if_neg (not_or.mpr ⟨hne _ (by decide) (by decide), hne _ (by decide) (by decide)⟩),
    if_neg (not_or.mpr ⟨hne _ (by decide) (by decide), hne _ (by decide) (by decide)⟩), if_pos hunit, hend, htake,
    hR.number, tokenLoop_skip R _ _ hsize]
  congr 1
  · omega
  · obtain ⟨m, hm⟩ : ∃ m, E.size n.tok = m + 1 := ⟨E.size n.tok - 1, by omega⟩
    rw [hm, List.drop_succ_cons] at hdrop
    rw [hm, Nat.add_sub_cancel, hdrop]

theorem tokenLoop_word (w : Option Bool) (i : Nat) (s : σ) (t : Text) :
    tokenLoop R i 0 s (E.text (wordText w ++ t)) = tokenLoop R (i + E.size (wordText w)) 0 (H.word s i w) (E.text t) := by
  have key : ∀ (c : Char) (g : Text), wordText w = c :: g → c = 't' ∨ c = 'f' ∨ c = 'n' → isAscii g = true →
      g.all isGap = true → tokenLoop R i 0 s (E.text (wordText w ++ t)) =
        tokenLoop R (i + E.size (wordText w)) 0 (H.word s i w) (E.text t) := by
    intro c g hw hc ha hg
    have hlt : c.toNat < 0x80 := by rcases hc with rfl | rfl | rfl <;> decide
    have hl := hR.literal s i w (E.text t)
    rw [← E.text_append, hw, List.cons_append, E.text_cons_ascii hlt] at hl
    rw [hw, List.cons_append, E.text_cons_ascii hlt, tokenLoop]
    rcases hc with rfl | rfl | rfl <;>
      (rw [if_neg (by decide), if_neg (by decide), if_neg (by decide), if_neg (by decide), if_pos (by decide), hl,
         tokenLoop_gaps E ha hg, E.size_cons (by decide)]
       congr 1
       omega)
  cases w with
  | none => exact key 'n' ['u', 'l', 'l'] rfl (by decide) (by decide) (by decide)
  | some b =>
    cases b with
    | true => exact key 't' ['r', 'u', 'e'] rfl (by decide) (by decide) (by decide)
    | false => exact key 'f' ['a', 'l', 's', 'e'] rfl (by decide) (by decide) (by decide)

theorem tokenLoop_open {c : Char} (hc : c = '{' ∨ c = '[') (i : Nat) (s : σ) (t : Text) :
    tokenLoop R i 0 s (E.text (c :: t)) = tokenLoop R (i + 1) 0 (H.opened s i (c == '{')) (E.text t) := by
  rcases hc with rfl | rfl
  · rw [E.text_cons_ascii (by decide), tokenLoop, if_neg (by decide), if_pos (by decide), hR.opened]; rfl
  · rw [E.text_cons_ascii (by decide), tokenLoop, if_neg (by decide), if_pos (by decide), hR.opened]; rfl

theorem tokenLoop_close {c : Char} (hc : c = '}' ∨ c = ']') (i : Nat) (s : σ) (t : Text) :
    tokenLoop R i 0 s (E.text (c :: t)) = tokenLoop R (i + 1) 0 (H.closed s i) (E.text t) := by
  rcases hc with rfl | rfl
  · rw [E.text_cons_ascii (by decide), tokenLoop, if_neg (by decide), if_neg (by decide), if_pos (by decide), hR.closed]
  · rw [E.text_cons_ascii (by decide), tokenLoop, if_neg (by decide), if_neg (by decide), if_pos (by decide), hR.closed]

end

/-! ## Values -/

/-- What may follow a value: white space, then the end or a character that closes it off. -/
def EndsValue (t : Text) : Prop :=
  ∃ (w : Ws) (r : Text), t = w.chars ++ r ∧ Stops (fun c => c != ',' && c != ']' && c != '}') r

theorem endsValue_ws (w : Ws) : EndsValue w.chars := ⟨w, [], (List.append_nil _).symm, stops_nil _⟩

theorem endsValue_cons {c : Char} (w : Ws) (t : Text) (hc : c = ',' ∨ c = ']' ∨ c = '}') : EndsValue (w.chars ++ c :: t) := by
  refine ⟨w, c :: t, rfl, stops_cons t ?_⟩
  rcases hc with rfl | rfl | rfl <;> decide

theorem EndsValue.cases {t : Text} (h : EndsValue t) :
    ∃ w : Ws, t = w.chars ∨ ∃ c r, t = w.chars ++ c :: r ∧ (c = ',' ∨ c = ']' ∨ c = '}') := by
  obtain ⟨w, r, rfl, hr⟩ := h
  cases r with
  | nil => exact ⟨w, .inl (List.append_nil _)⟩
  | cons c r =>
    refine ⟨w, .inr ⟨c, r, rfl, ?_⟩⟩
    have := hr c (by simp)
    simp only [Bool.and_eq_false_iff, bne_eq_false_iff_eq] at this
    rcases this with (h | h) | h
    · exact .inl h
    · exact .inr (.inl h)
    · exact .inr (.inr h)

theorem EndsValue.stopsToken {t : Text} (h : EndsValue t) : StopsToken t := by
  obtain ⟨w, rfl | ⟨c, r, rfl, hc⟩⟩ := h.cases
  · obtain ⟨_ | ⟨d, w⟩, hw⟩ := w
    · exact stops_nil _
    · simp only [List.all_cons, Bool.and_eq_true] at hw
      refine stops_cons _ ?_
      rw [isTokenChar, isWs_toNat, hw.1]; rfl
  · apply stopsToken_ws
    rcases hc with rfl | rfl | rfl <;> decide

theorem EndsValue.no_colon {t : Text} (h : EndsValue t) : ((dropWs t).head? == some ':') = false := by
  obtain ⟨w, rfl | ⟨c, r, rfl, hc⟩⟩ := h.cases
  · have := dropWs_append w (stops_nil isWs)
    rw [List.append_nil] at this
    rw [this]; rfl
  · rw [dropWs_append w (stops_cons r (by rcases hc with rfl | rfl | rfl <;> decide))]
    rcases hc with rfl | rfl | rfl <;> rfl

section
variable {σ : Type} (E : Encoding) {R : TokenReader σ} {H : Handler σ} (hR : R.Reads E H)
include hR

/-- A member name, up to the value. -/
theorem tokenLoop_name (w₁ w₂ w₃ : Ws) (k : List StrChar) (i : Nat) (s : σ) (t : Text) :
    tokenLoop R i 0 s (E.text (w₁.chars ++ (strText k ++ (w₂.chars ++ ':' :: (w₃.chars ++ t))))) =
      tokenLoop R (i + E.size w₁.chars + E.size (strText k) + E.size w₂.chars + 1 + E.size w₃.chars) 0
        (H.string s (i + E.size w₁.chars) k true) (E.text t) := by
  have hcolon : ((dropWs (w₂.chars ++ ':' :: (w₃.chars ++ t))).head? == some ':') = true := by
    rw [dropWs_append w₂ (stops_cons _ (by decide))]; rfl
  rw [tokenLoop_ws, tokenLoop_str E hR, hcolon, tokenLoop_ws, tokenLoop_punct E (by decide) (by decide), tokenLoop_ws]

mutual

theorem Cst.tokenLoop_eq (v : Cst) {t : Text} (ht : EndsValue t) (i : Nat) (s : σ) :
    tokenLoop R i 0 s (E.text (v.text ++ t)) = tokenLoop R (i + E.size v.text) 0 (v.walk E H i s) (E.text t) := by
  cases v with
  | null => exact tokenLoop_word E hR none i s t
  | bool b => exact tokenLoop_word E hR (some b) i s t
  | num n => exact tokenLoop_num E hR n i s ht.stopsToken
  | str b =>
    simp only [Cst.text, Cst.walk]
    rw [tokenLoop_str E hR, ht.no_colon]
  | arr0 w =>
    simp only [Cst.text, Cst.walk, List.cons_append, List.append_assoc, List.nil_append]
    rw [tokenLoop_open E hR (.inr rfl), tokenLoop_ws, tokenLoop_close E hR (.inr rfl), E.size_cons (by decide),
      E.size_append, E.size_cons (by decide), E.size_nil]
    congr 1
    omega
  | arr es =>
    simp only [Cst.text, Cst.walk, List.cons_append]
    rw [tokenLoop_open E hR (.inr rfl), Items.tokenLoop_eq es, E.size_cons (by decide)]
    congr 1
    omega
  | obj0 w =>
    simp only [Cst.text, Cst.walk, List.cons_append, List.append_assoc, List.nil_append]
    rw [tokenLoop_open E hR (.inl rfl), tokenLoop_ws, tokenLoop_close E hR (.inl rfl), E.size_cons (by decide),
      E.size_append, E.size_cons (by decide), E.size_nil]
    congr 1
    omega
  | obj ms =>
    simp only [Cst.text, Cst.walk, List.cons_append]
    rw [tokenLoop_open E hR (.inl rfl), Members.tokenLoop_eq ms, E.size_cons (by decide)]
    congr 1
    omega

theorem Items.tokenLoop_eq (es : Items) (t : Text) (i : Nat) (s : σ) :
    tokenLoop R i 0 s (E.text (es.text ++ t)) = tokenLoop R (i + E.size es.text) 0 (es.walk E H i s) (E.text t) := by
  cases es with
  | last w₁ v w₂ =>
    simp only [Items.text, Items.walk, List.append_assoc, List.cons_append, List.nil_append]
    rw [tokenLoop_ws, Cst.tokenLoop_eq v (endsValue_cons w₂ t (.inr (.inl rfl))), tokenLoop_ws,
      tokenLoop_close E hR (.inr rfl)]
    simp only [E.size_append, E.size_cons (c := ']') (by decide), E.size_nil]
    congr 1
    omega
  | more w₁ v w₂ rest =>
    simp only [Items.text, Items.walk, List.append_assoc, List.cons_append]
    rw [tokenLoop_ws, Cst.tokenLoop_eq v (endsValue_cons w₂ _ (.inl rfl)), tokenLoop_ws,
      tokenLoop_punct E (by decide) (by decide), Items.tokenLoop_eq rest]
    simp only [E.size_append, E.size_cons (c := ',') (by decide)]
    congr 1
    omega

theorem Members.tokenLoop_eq (ms : Members) (t : Text) (i : Nat) (s : σ) :
    tokenLoop R i 0 s (E.text (ms.text ++ t)) = tokenLoop R (i + E.size ms.text) 0 (ms.walk E H i s) (E.text t) := by
  cases ms with
  | last w₁ k w₂ w₃ v w₄ =>
    simp only [Members.text, Members.walk, List.append_assoc, List.cons_append, List.nil_append]
    rw [tokenLoop_name E hR, Cst.tokenLoop_eq v (endsValue_cons w₄ t (.inr (.inr rfl))), tokenLoop_ws,
      tokenLoop_close E hR (.inl rfl)]
    simp only [E.size_append, E.size_cons (c := '}') (by decide), E.size_cons (c := ':') (by decide), E.size_nil]
    congr 1
    omega
  | more w₁ k w₂ w₃ v w₄ rest =>
    simp only [Members.text, Members.walk, List.append_assoc, List.cons_append]
    rw [tokenLoop_name E hR, Cst.tokenLoop_eq v (endsValue_cons w₄ _ (.inl rfl)), tokenLoop_ws,
      tokenLoop_punct E (by decide) (by decide), Members.tokenLoop_eq rest]
    simp only [E.size_append, E.size_cons (c := ',') (by decide), E.size_cons (c := ':') (by decide)]
    congr 1
    omega

end

/-- The loop over a whole text is the walk over its value. -/
theorem tokenLoop_doc (d : Doc) (s : σ) :
    tokenLoop R 0 0 s (E.text d.text) = d.value.walk E H (E.size d.lead.chars) s := by
  have hend : ∀ (w : Ws) (i : Nat) (s : σ), tokenLoop R i 0 s (E.text w.chars) = s := by
    intro w i s
    have := tokenLoop_ws (R := R) E w i s []
    rw [List.append_nil] at this
    rw [this, E.text_nil, tokenLoop]
  rw [Doc.text, tokenLoop_ws, d.value.tokenLoop_eq E hR (endsValue_ws d.trail), hend, Nat.zero_add]

end

/-! ## Two walks in lockstep -/

/-- Where a walk stands in an open container: in an array, between the members of an object, or after a name. -/
inductive Frame
  | array
  | ready
  | named

def Frame.done : Frame → Frame
  | .named => .ready
  | f => f

def doneTop : List Frame → List Frame
  | [] => []
  | f :: L => f.done :: L

/-- A relation between the states of two handlers that every token preserves. The offsets are where the next token starts
at the earliest. -/
structure Lockstep {σ τ : Type} (H₁ : Handler σ) (H₂ : Handler τ) (R : List Frame → Nat → Nat → σ → τ → Prop) : Prop where
  advance : ∀ {L i j s t} (m n : Nat), R L i j s t → R L (i + m) (j + n) s t
  name : ∀ {L i j s t} b, R (.ready :: L) i j s t →
    R (.named :: L) (i + 1) (j + 1) (H₁.string s i b true) (H₂.string t j b true)
  string : ∀ {L i j s t} b, R L i j s t → R (doneTop L) (i + 1) (j + 1) (H₁.string s i b false) (H₂.string t j b false)
  number : ∀ {L i j s t} n, R L i j s t → R (doneTop L) (i + 1) (j + 1) (H₁.number s i n) (H₂.number t j n)
  word : ∀ {L i j s t} w, R L i j s t → R (doneTop L) (i + 1) (j + 1) (H₁.word s i w) (H₂.word t j w)
  opened : ∀ {L i j s t} isObject, R L i j s t →
    R ((if isObject then .ready else .array) :: doneTop L) (i + 1) (j + 1) (H₁.opened s i isObject) (H₂.opened t j isObject)
  closed : ∀ {f L i j s t}, R (f :: L) i j s t → R L (i + 1) (j + 1) (H₁.closed s i) (H₂.closed t j)

section
variable {σ τ : Type} (E₁ E₂ : Encoding) {H₁ : Handler σ} {H₂ : Handler τ} {R : List Frame → Nat → Nat → σ → τ → Prop}
  (h : Lockstep H₁ H₂ R)
include h

theorem Lockstep.reach {L : List Frame} {i j i' j' : Nat} {s : σ} {t : τ} (hr : R L i j s t) (hi : i ≤ i') (hj : j ≤ j') :
    R L i' j' s t := by
  have := h.advance (i' - i) (j' - j) hr
  rwa [Nat.add_sub_cancel' hi, Nat.add_sub_cancel' hj] at this

mutual

theorem Cst.lockstep (v : Cst) {L : List Frame} {i j : Nat} {s : σ} {t : τ} (hr : R L i j s t) :
    R (doneTop L) (i + E₁.size v.text) (j + E₂.size v.text) (v.walk E₁ H₁ i s) (v.walk E₂ H₂ j t) := by
  have hpos : ∀ E : Encoding, 1 ≤ E.size v.text := by
    intro E
    obtain ⟨c, r, hc, -⟩ := v.head
    have := E.length_char_pos c
    rw [hc, Encoding.size, E.text_cons, List.length_append]
    omega
  have h₁ : i + 1 ≤ i + E₁.size v.text := Nat.add_le_add_left (hpos E₁) i
  have h₂ : j + 1 ≤ j + E₂.size v.text := Nat.add_le_add_left (hpos E₂) j
  cases v with
  | null => exact h.reach (h.word none hr) h₁ h₂
  | bool b => exact h.reach (h.word (some b) hr) h₁ h₂
  | num n => exact h.reach (h.number n hr) h₁ h₂
  | str b => exact h.reach (h.string b hr) h₁ h₂
  | arr0 w =>
    have ho := h.advance (E₁.size w.chars) (E₂.size w.chars) (h.opened false hr)
    refine h.reach (h.closed ho) ?_ ?_
    all_goals
      simp only [Cst.text, Encoding.size_append, Encoding.size_cons _ (c := '[') (by decide),
        Encoding.size_cons _ (c := ']') (by decide), Encoding.size_nil]
      omega
  | arr es =>
    refine h.reach (es.lockstep (h.opened false hr)) ?_ ?_
    all_goals
      simp only [Cst.text, Encoding.size_cons _ (c := '[') (by decide)]
      omega
  | obj0 w =>
    have ho := h.advance (E₁.size w.chars) (E₂.size w.chars) (h.opened true hr)
    refine h.reach (h.closed ho) ?_ ?_
    all_goals
      simp only [Cst.text, Encoding.size_append, Encoding.size_cons _ (c := '{') (by decide),
        Encoding.size_cons _ (c := '}') (by decide), Encoding.size_nil]
      omega
  | obj ms =>
    refine h.reach (ms.lockstep (h.opened true hr)) ?_ ?_
    all_goals
      simp only [Cst.text, Encoding.size_cons _ (c := '{') (by decide)]
      omega

theorem Items.lockstep (es : Items) {L : List Frame} {i j : Nat} {s : σ} {t : τ} (hr : R (.array :: L) i j s t) :
    R L (i + E₁.size es.text) (j + E₂.size es.text) (es.walk E₁ H₁ i s) (es.walk E₂ H₂ j t) := by
  cases es with
  | last w₁ v w₂ =>
    have hv := v.lockstep (h.advance (E₁.size w₁.chars) (E₂.size w₁.chars) hr)
    refine h.reach (h.closed (h.advance (E₁.size w₂.chars) (E₂.size w₂.chars) hv)) ?_ ?_
    all_goals
      simp only [Items.text, Encoding.size_append, Encoding.size_cons _ (c := ']') (by decide), Encoding.size_nil]
      omega
  | more w₁ v w₂ rest =>
    have hv := v.lockstep (h.advance (E₁.size w₁.chars) (E₂.size w₁.chars) hr)
    refine h.reach (rest.lockstep (h.advance 1 1 (h.advance (E₁.size w₂.chars) (E₂.size w₂.chars) hv))) ?_ ?_
    all_goals
      simp only [Items.text, Encoding.size_append, Encoding.size_cons _ (c := ',') (by decide)]
      omega

theorem Members.lockstep (ms : Members) {L : List Frame} {i j : Nat} {s : σ} {t : τ} (hr : R (.ready :: L) i j s t) :
    R L (i + E₁.size ms.text) (j + E₂.size ms.text) (ms.walk E₁ H₁ i s) (ms.walk E₂ H₂ j t) := by
  have hname : ∀ (w₁ : Ws) (k : List StrChar) (w₂ w₃ : Ws), R (.named :: L)
      (i + E₁.size w₁.chars + E₁.size (strText k) + E₁.size w₂.chars + 1 + E₁.size w₃.chars)
      (j + E₂.size w₁.chars + E₂.size (strText k) + E₂.size w₂.chars + 1 + E₂.size w₃.chars)
      (H₁.string s (i + E₁.size w₁.chars) k true) (H₂.string t (j + E₂.size w₁.chars) k true) := by
    intro w₁ k w₂ w₃
    refine h.reach (h.name k (h.advance (E₁.size w₁.chars) (E₂.size w₁.chars) hr)) ?_ ?_
    all_goals
      rw [strText, Encoding.size_cons _ (by decide)]
      omega
  cases ms with
  | last w₁ k w₂ w₃ v w₄ =>
    have hv := v.lockstep (hname w₁ k w₂ w₃)
    refine h.reach (h.closed (h.advance (E₁.size w₄.chars) (E₂.size w₄.chars) hv)) ?_ ?_
    all_goals
      simp only [Members.text, Encoding.size_append, Encoding.size_cons _ (c := ':') (by decide),
        Encoding.size_cons _ (c := '}') (by decide), Encoding.size_nil]
      omega
  | more w₁ k w₂ w₃ v w₄ rest =>
    have hv := v.lockstep (hname w₁ k w₂ w₃)
    refine h.reach (rest.lockstep (h.advance 1 1 (h.advance (E₁.size w₄.chars) (E₂.size w₄.chars) hv))) ?_ ?_
    all_goals
      simp only [Members.text, Encoding.size_append, Encoding.size_cons _ (c := ':') (by decide),
        Encoding.size_cons _ (c := ',') (by decide)]
      omega

end

end

end Aizign
