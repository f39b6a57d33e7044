import Aizign.CommitSound
import Aizign.JsonTokenExact

/-!
# Store metadata: the integer scan over bytes

`has_noncanonical_integer_token` as the source runs it: an index into the bytes
and two flags, one turn of the loop at a time. Every turn moves the index, so
the loop ends on all bytes; on the bytes of a text it answers as the scan over
its characters.
-/

namespace Aizign

/-! ## The loop -/

def isIntegerEnd (u : Nat) : Bool :=
  u == ','.toNat || u == '}'.toNat || u == ']'.toNat || u == ' '.toNat || u == '\t'.toNat || u == '\r'.toNat ||
    u == '\n'.toNat

structure IntegerScan where
  index : Nat
  inString : Bool
  escaped : Bool

inductive Turn
  | goOn (s : IntegerScan)
  | done (answer : Bool)

def noncanonicalUnits (token : Units) : Bool :=
  if token = ['0'.toNat] then false
  else (match token with | [] => true | u :: _ => !(isDigitUnit u && u != '0'.toNat)) || token.any fun u => !isDigitUnit u

/-- The number token that starts with `byte`. -/
def integerToken (byte : Nat) (rest : Units) : Units := byte :: rest.takeWhile fun u => !isIntegerEnd u

def integerTurn (bytes : Units) (s : IntegerScan) : Turn :=
  match bytes[s.index]? with
  | none => .done false
  | some byte =>
    if s.inString then
      if s.escaped then .goOn ⟨s.index + 1, true, false⟩
      else if byte = '\\'.toNat then .goOn ⟨s.index + 1, true, true⟩
      else if byte = '"'.toNat then .goOn ⟨s.index + 1, false, s.escaped⟩
      else .goOn ⟨s.index + 1, true, s.escaped⟩
    else if byte = '"'.toNat then .goOn ⟨s.index + 1, true, s.escaped⟩
    else if byte = '-'.toNat ∨ isDigitUnit byte then
      let token := integerToken byte (bytes.drop (s.index + 1))
      if noncanonicalUnits token then .done true else .goOn ⟨s.index + token.length, s.inString, s.escaped⟩
    else .goOn ⟨s.index + 1, s.inString, s.escaped⟩

def integerLoop : Nat → Units → IntegerScan → Option Bool
  | 0, _, _ => none
  | fuel + 1, bytes, s =>
    match integerTurn bytes s with
    | .done answer => some answer
    | .goOn s => integerLoop fuel bytes s

def hasNoncanonicalIntegerBytes (fuel : Nat) (bytes : Bytes) : Option Bool :=
  integerLoop fuel (bytes.map UInt8.toNat) ⟨0, false, false⟩

/-! ## Termination -/

theorem integerTurn_advances {bytes : Units} {s s' : IntegerScan} (h : integerTurn bytes s = .goOn s') :
    s.index < bytes.length ∧ s.index < s'.index := by
  unfold integerTurn at h
  cases hb : bytes[s.index]? with
  | none => simp [hb] at h
  | some byte =>
    refine ⟨(List.getElem?_eq_some_iff.mp hb).1, ?_⟩
    simp only [hb] at h
    split at h
    · split at h
      · cases h; exact Nat.lt_succ_self _
      · split at h
        · cases h; exact Nat.lt_succ_self _
        · split at h <;> (cases h; exact Nat.lt_succ_self _)
    · split at h
      · cases h; exact Nat.lt_succ_self _
      · split at h
        · split at h
          · cases h
          · cases h
            simp only [integerToken, List.length_cons]
            omega
        · cases h; exact Nat.lt_succ_self _

/-- The loop ends with this answer whenever it is given a turn for every byte that is left, and one more. -/
def Answers (bytes : Units) (s : IntegerScan) (answer : Bool) : Prop :=
  ∀ fuel, bytes.length - s.index < fuel → integerLoop fuel bytes s = some answer

theorem answers_done {bytes : Units} {s : IntegerScan} {answer : Bool} (h : integerTurn bytes s = .done answer) :
    Answers bytes s answer := by
  intro fuel hf
  cases fuel with
  | zero => omega
  | succ fuel => simp only [integerLoop, h]

theorem answers_goOn {bytes : Units} {s s' : IntegerScan} {answer : Bool} (h : integerTurn bytes s = .goOn s')
    (h' : Answers bytes s' answer) : Answers bytes s answer := by
  obtain ⟨hlt, hadv⟩ := integerTurn_advances h
  intro fuel hf
  cases fuel with
  | zero => omega
  | succ fuel =>
    simp only [integerLoop, h]
    exact h' fuel (by omega)

theorem integerLoop_terminates (bytes : Units) (n : Nat) :
    ∀ s : IntegerScan, bytes.length - s.index ≤ n → ∃ answer, Answers bytes s answer := by
  induction n with
  | zero =>
    intro s hs
    cases h : integerTurn bytes s with
    | done answer => exact ⟨answer, answers_done h⟩
    | goOn s' =>
      have := (integerTurn_advances h).1
      omega
  | succ n ih =>
    intro s hs
    cases h : integerTurn bytes s with
    | done answer => exact ⟨answer, answers_done h⟩
    | goOn s' =>
      obtain ⟨hlt, hadv⟩ := integerTurn_advances h
      obtain ⟨answer, ha⟩ := ih s' (by omega)
      exact ⟨answer, answers_goOn h ha⟩

/-! ## The bytes of a text -/

section
variable (E : Encoding)

/-- A property of units that every character above the ASCII range has, cut where it first fails. -/
theorem Encoding.takeWhile_text {p : Nat → Bool} {q : Char → Bool} (hlow : ∀ c : Char, p c.toNat = q c)
    (hhigh : ∀ u, 0x80 ≤ u → p u = true) (t : Text) :
    (E.text t).takeWhile p = E.text (t.takeWhile q) ∧ (E.text t).dropWhile p = E.text (t.dropWhile q) := by
  induction t with
  | nil => exact ⟨rfl, rfl⟩
  | cons c t ih =>
    rw [E.text_cons]
    rcases E.char_cases c with ⟨-, hc⟩ | ⟨hge, -⟩
    · rw [hc, List.singleton_append, List.takeWhile_cons, List.dropWhile_cons, List.takeWhile_cons, List.dropWhile_cons, hlow]
      cases q c with
      | true =>
        simp only [ite_true]
        rw [E.text_cons, hc, ih.1, ih.2]
        exact ⟨rfl, rfl⟩
      | false =>
        simp only [Bool.false_eq_true, ite_false]
        rw [E.text_cons, hc]
        exact ⟨rfl, rfl⟩
    · have hall : ∀ u ∈ E.char c, p u = true := fun u hu => hhigh u ((E.high c hge).2 u hu)
      have hq : q c = true := by rw [← hlow]; exact hhigh _ hge
      rw [List.takeWhile_append_of_pos hall, List.dropWhile_append_of_pos hall, List.takeWhile_cons_of_pos hq,
        List.dropWhile_cons_of_pos hq, E.text_cons, ih.1, ih.2]
      exact ⟨rfl, rfl⟩

theorem isDigitUnit_toNat (c : Char) : isDigitUnit c.toNat = c.isDigit := by
  rw [Bool.eq_iff_iff, isDigitUnit, Bool.and_eq_true, decide_eq_true_eq, decide_eq_true_eq, Char.isDigit, Bool.and_eq_true,
    decide_eq_true_eq, decide_eq_true_eq]
  exact Iff.rfl

theorem toNat_beq (c d : Char) : (c.toNat == d.toNat) = (c == d) := by
  rw [Bool.eq_iff_iff, beq_iff_eq, beq_iff_eq]
  exact Char.toNat_inj

theorem isIntegerEnd_toNat (c : Char) : isIntegerEnd c.toNat = isTokenEnd c := by
  simp only [isIntegerEnd, isTokenEnd, isWs, toNat_beq, Bool.or_assoc]
  cases c == ',' <;> cases c == '}' <;> cases c == ']' <;> cases c == ' ' <;> cases c == '\t' <;> cases c == '\r' <;>
    cases c == '\n' <;> rfl

theorem isIntegerEnd_high {u : Nat} (h : 0x80 ≤ u) : isIntegerEnd u = false := by
  simp only [isIntegerEnd, Bool.or_eq_false_iff, beq_eq_false_iff_ne]
  refine ⟨⟨⟨⟨⟨⟨?_, ?_⟩, ?_⟩, ?_⟩, ?_⟩, ?_⟩, ?_⟩ <;> (intro e; rw [e] at h; revert h; decide)

theorem isDigitUnit_high {u : Nat} (h : 0x80 ≤ u) : isDigitUnit u = false := by
  have h9 : '9'.toNat = 57 := rfl
  rw [isDigitUnit, Bool.and_eq_false_iff]
  exact .inr (decide_eq_false (by omega))

theorem integerToken_text (c : Char) (hc : c.toNat < 0x80) (t : Text) :
    integerToken c.toNat (E.text t) = E.text (c :: t.takeWhile fun x => !isTokenEnd x) := by
  have h := E.takeWhile_text (p := fun u => !isIntegerEnd u) (q := fun x => !isTokenEnd x)
    (fun x => by rw [isIntegerEnd_toNat]) (fun u hu => by rw [isIntegerEnd_high hu]; rfl) t
  rw [integerToken, h.1, E.text_cons_ascii hc]

theorem any_nondigit_text (t : Text) : (E.text t).any (fun u => !isDigitUnit u) = t.any fun c => !c.isDigit := by
  induction t with
  | nil => rfl
  | cons c t ih =>
    rw [E.text_cons, List.any_append, List.any_cons, ih]
    congr 1
    rcases E.char_cases c with ⟨-, hc⟩ | ⟨hge, u, r, hc, hu, -⟩
    · rw [hc, List.any_cons, List.any_nil, Bool.or_false, isDigitUnit_toNat]
    · rw [hc, List.any_cons, isDigitUnit_high hu, ← isDigitUnit_toNat, isDigitUnit_high hge]
      rfl

theorem noncanonicalUnits_text {c : Char} (hc : c.toNat < 0x80) (t : Text) :
    noncanonicalUnits (E.text (c :: t)) = noncanonicalToken (c :: t) := by
  have hzero : E.text (c :: t) = ['0'.toNat] ↔ c :: t = ['0'] := by
    rw [E.text_cons_ascii hc, List.cons.injEq, List.cons.injEq, E.text_eq_nil, Char.toNat_inj]
  have hfirst : (isDigitUnit c.toNat && c.toNat != '0'.toNat) = isNonzeroDigit c := by
    rw [isDigitUnit_toNat, bne, toNat_beq]
    rfl
  unfold noncanonicalUnits noncanonicalToken
  rw [any_nondigit_text]
  by_cases hz : c :: t = ['0']
  · rw [if_pos (hzero.mpr hz), if_pos hz]
  · rw [if_neg fun h => hz (hzero.mp h), if_neg hz, E.text_cons_ascii hc]
    simp only [hfirst]

end

/-- The scan from inside a number token. -/
theorem scanIntegers_token (a : Char) (tok r : Text) : scanIntegers (a :: tok) false false r =
    (noncanonicalToken (a :: tok ++ r.takeWhile fun x => !isTokenEnd x) ||
      scanIntegers [] false false (r.dropWhile fun x => !isTokenEnd x)) := by
  induction r generalizing tok with
  | nil => simp [scanIntegers]
  | cons c r ih =>
    rw [scanIntegers]
    by_cases hc : isTokenEnd c = true
    · rw [if_pos hc, List.takeWhile_cons_of_neg (by simp [hc]), List.dropWhile_cons_of_neg (by simp [hc]), List.append_nil,
        scanIntegers_tokenEnd hc]
    · rw [if_neg hc, List.takeWhile_cons_of_pos (by simp [hc]), List.dropWhile_cons_of_pos (by simp [hc]), List.cons_append,
        ih]
      simp only [List.cons_append, List.append_assoc, List.nil_append]

section
variable {bytes : Units}

theorem getElem_of_drop {i u : Nat} {rest : Units} (h : bytes.drop i = u :: rest) :
    bytes[i]? = some u ∧ bytes.drop (i + 1) = rest := by
  constructor
  · rw [← List.head?_drop, h]
    rfl
  · rw [← List.drop_drop, h]
    rfl

/-- A unit above the ASCII range is passed over, except that it spends an escape. -/
theorem integerTurn_high {i u : Nat} {rest : Units} (h : bytes.drop i = u :: rest) (hu : 0x80 ≤ u) (b e : Bool)
    (hbe : b = false → e = false) : integerTurn bytes ⟨i, b, e⟩ = .goOn ⟨i + 1, b, false⟩ := by
  have hne : ∀ c : Char, c.toNat < 0x80 → u ≠ c.toNat := fun c hc he => by omega
  simp only [integerTurn, (getElem_of_drop h).1, isDigitUnit_high hu]
  rw [if_neg (hne '\\' (by decide)), if_neg (hne '"' (by decide))]
  cases b with
  | true => cases e <;> rfl
  | false =>
    rw [hbe rfl, if_neg (by simp), if_neg (hne '"' (by decide)), if_neg]
    rintro (h | h)
    · exact hne '-' (by decide) h
    · cases h

theorem answers_high {rest : Units} {b answer : Bool} : ∀ {hs : Units} {i : Nat}, (∀ u ∈ hs, 0x80 ≤ u) →
    bytes.drop i = hs ++ rest → Answers bytes ⟨i + hs.length, b, false⟩ answer → Answers bytes ⟨i, b, false⟩ answer
  | [], _, _, _, ha => ha
  | u :: hs, i, hall, h, ha => by
    refine answers_goOn (integerTurn_high h (hall u (by simp)) b false fun _ => rfl) ?_
    refine answers_high (fun v hv => hall v (by simp [hv])) (getElem_of_drop h).2 ?_
    rw [List.length_cons, Nat.add_comm hs.length, ← Nat.add_assoc] at ha
    exact ha

theorem scanIntegers_high {c : Char} (hc : 0x80 ≤ c.toNat) (b : Bool) (r : Text) :
    scanIntegers [] b false (c :: r) = scanIntegers [] b false r := by
  have hne : ∀ d : Char, d.toNat < 0x80 → c ≠ d := fun d hd he => by rw [he] at hc; omega
  cases b with
  | true => rw [scanIntegers, if_neg (hne '\\' (by decide)), if_neg (hne '"' (by decide))]
  | false =>
    rw [scanIntegers, if_neg (hne '"' (by decide)), if_neg]
    rintro (h | h)
    · exact hne '-' (by decide) h
    · rw [← isDigitUnit_toNat, isDigitUnit_high hc] at h
      cases h

variable (E : Encoding)

def Follows (E : Encoding) (bytes : Units) (t : Text) : Prop :=
  ∀ (i : Nat) (b e : Bool), bytes.drop i = E.text t → (b = false → e = false) → Answers bytes ⟨i, b, e⟩ (scanIntegers [] b e t)

theorem follows_nil : Follows E bytes [] := by
  intro i b e ht _
  have hend : bytes[i]? = none := List.getElem?_eq_none (List.drop_eq_nil_iff.mp ht)
  rw [scanIntegers]
  exact answers_done (by simp [integerTurn, hend])

theorem follows_high {c : Char} {t : Text} (hc : 0x80 ≤ c.toNat) (h : Follows E bytes t) : Follows E bytes (c :: t) := by
  intro i b e ht hbe
  rw [E.text_cons] at ht
  obtain ⟨hne, hall⟩ := E.high c hc
  have hrest : bytes.drop (i + (E.char c).length) = E.text t := by
    rw [← List.drop_drop, ht, List.drop_left]
  have hscan : scanIntegers [] b e (c :: t) = scanIntegers [] b false t := by
    cases e with
    | false => exact scanIntegers_high hc b t
    | true =>
      cases b with
      | false => cases hbe rfl
      | true => rw [scanIntegers]
  rw [hscan]
  obtain ⟨u, r, hu⟩ := List.exists_cons_of_ne_nil hne
  rw [hu] at ht hall hrest
  -- the first unit spends a pending escape, the others are passed over
  refine answers_goOn (integerTurn_high ht (hall u (by simp)) b e hbe) ?_
  refine answers_high (fun v hv => hall v (by simp [hv])) (getElem_of_drop ht).2 ?_
  refine h _ b false ?_ fun _ => rfl
  rw [List.length_cons] at hrest
  rw [Nat.add_assoc, Nat.add_comm 1]
  exact hrest

theorem follows_inString {c : Char} {t : Text} (hc : c.toNat < 0x80) (h : Follows E bytes t) {i : Nat} {e : Bool}
    (ht : bytes.drop i = E.text (c :: t)) : Answers bytes ⟨i, true, e⟩ (scanIntegers [] true e (c :: t)) := by
  rw [E.text_cons_ascii hc] at ht
  obtain ⟨hget, hdrop⟩ := getElem_of_drop ht
  cases e with
  | true =>
    rw [scanIntegers]
    exact answers_goOn (by simp [integerTurn, hget]) (h (i + 1) true false hdrop fun _ => rfl)
  | false =>
    rw [scanIntegers]
    by_cases hb : c = '\\'
    · rw [if_pos hb]
      exact answers_goOn (by simp [integerTurn, hget, hb]) (h (i + 1) true true hdrop (by simp))
    · rw [if_neg hb]
      have hb' : c.toNat ≠ '\\'.toNat := fun he => hb (Char.toNat_inj.mp he)
      by_cases hq : c = '"'
      · rw [if_pos hq]
        exact answers_goOn (by simp [integerTurn, hget, hq]) (h (i + 1) false false hdrop fun _ => rfl)
      · rw [if_neg hq]
        have hq' : c.toNat ≠ '"'.toNat := fun he => hq (Char.toNat_inj.mp he)
        refine answers_goOn ?_ (h (i + 1) true false hdrop fun _ => rfl)
        simp only [integerTurn, hget]
        rw [if_neg hb', if_neg hq']
        rfl

/-- A number token is read whole by the loop; what follows it is the rest of the text. -/
theorem follows_number {c : Char} {t : Text} (hc : c.toNat < 0x80) (hn : c = '-' ∨ c.isDigit = true)
    (h : ∀ t', t'.length ≤ t.length → Follows E bytes t') {i : Nat} (ht : bytes.drop i = E.text (c :: t)) :
    Answers bytes ⟨i, false, false⟩ (scanIntegers [c] false false t) := by
  have hu : c.toNat = '-'.toNat ∨ isDigitUnit c.toNat = true := by rwa [Char.toNat_inj, isDigitUnit_toNat]
  have hq : c.toNat ≠ '"'.toNat := by
    intro he
    rw [Char.toNat_inj.mp he] at hn
    revert hn
    decide
  have ht' := ht
  rw [E.text_cons_ascii hc] at ht'
  obtain ⟨hget, hdrop⟩ := getElem_of_drop ht'
  have htoken := integerToken_text E c hc t
  have hturn : integerTurn bytes ⟨i, false, false⟩ =
      if noncanonicalToken (c :: t.takeWhile fun x => !isTokenEnd x) then .done true
      else .goOn ⟨i + (E.text (c :: t.takeWhile fun x => !isTokenEnd x)).length, false, false⟩ := by
    simp only [integerTurn, hget, hdrop, htoken, noncanonicalUnits_text E hc]
    rw [if_neg (by simp), if_neg hq, if_pos hu]
  rw [scanIntegers_token, List.singleton_append]
  cases hnc : noncanonicalToken (c :: t.takeWhile fun x => !isTokenEnd x) with
  | true =>
    rw [hnc] at hturn
    exact answers_done hturn
  | false =>
    rw [hnc] at hturn
    refine answers_goOn hturn (h _ ?_ _ false false ?_ fun _ => rfl)
    · exact (List.dropWhile_suffix _).length_le
    · rw [← List.drop_drop, ht]
      have hsplit : c :: t = (c :: t.takeWhile fun x => !isTokenEnd x) ++ t.dropWhile fun x => !isTokenEnd x := by
        rw [List.cons_append, List.takeWhile_append_dropWhile]
      rw [hsplit, E.text_append, List.drop_left]

theorem follows_outside {c : Char} {t : Text} (hc : c.toNat < 0x80) (h : ∀ t', t'.length ≤ t.length → Follows E bytes t')
    {i : Nat} (ht : bytes.drop i = E.text (c :: t)) : Answers bytes ⟨i, false, false⟩ (scanIntegers [] false false (c :: t)) := by
  have ht' := ht
  rw [E.text_cons_ascii hc] at ht'
  obtain ⟨hget, hdrop⟩ := getElem_of_drop ht'
  rw [scanIntegers]
  by_cases hq : c = '"'
  · rw [if_pos hq]
    exact answers_goOn (by simp [integerTurn, hget, hq]) (h t (Nat.le_refl _) (i + 1) true false hdrop fun _ => rfl)
  · rw [if_neg hq]
    by_cases hn : c = '-' ∨ c.isDigit = true
    · rw [if_pos hn]
      exact follows_number E hc hn h ht
    · rw [if_neg hn]
      refine answers_goOn ?_ (h t (Nat.le_refl _) (i + 1) false false hdrop fun _ => rfl)
      have hq' : c.toNat ≠ '"'.toNat := fun he => hq (Char.toNat_inj.mp he)
      have hn' : ¬(c.toNat = '-'.toNat ∨ isDigitUnit c.toNat = true) := by rwa [Char.toNat_inj, isDigitUnit_toNat]
      simp only [integerTurn, hget]
      rw [if_neg (by simp), if_neg hq', if_neg hn']

/-- The loop over the units of a text answers as the scan over its characters. -/
theorem follows (n : Nat) : ∀ t : Text, t.length ≤ n → Follows E bytes t := by
  induction n with
  | zero =>
    intro t hn
    obtain rfl : t = [] := List.length_eq_zero_iff.mp (Nat.le_zero.mp hn)
    exact follows_nil E
  | succ n ih =>
    intro t hn
    cases t with
    | nil => exact follows_nil E
    | cons c t =>
      have hn' : t.length ≤ n := by simpa using hn
      by_cases hc : c.toNat < 0x80
      · intro i b e ht hbe
        cases b with
        | true => exact follows_inString E hc (ih t hn') ht
        | false =>
          rw [hbe rfl]
          exact follows_outside E hc (fun t' ht' => ih t' (Nat.le_trans ht' hn')) ht
      · exact follows_high E (by omega) (ih t hn')

end

theorem hasNoncanonicalIntegerBytes_utf8 (t : Text) {fuel : Nat} (hf : (utf8 t).length < fuel) :
    hasNoncanonicalIntegerBytes fuel (utf8 t) = some (hasNoncanonicalIntegerToken t) := by
  have h : Answers ((utf8 t).map UInt8.toNat) ⟨0, false, false⟩ (scanIntegers [] false false t) :=
    follows utf8Encoding t.length t (Nat.le_refl _) 0 false false (by rw [List.drop_zero, utf8Encoding_text]) fun _ => rfl
  exact h fuel (by simpa using hf)

/-! ## Exactness -/

/-- The spellings `0` and `[1-9][0-9]*`. -/
def CanonicalNatural (tok : Text) : Prop :=
  tok = ['0'] ∨ ∃ c r, tok = c :: r ∧ c.isDigit = true ∧ c ≠ '0' ∧ r.all Char.isDigit = true

theorem noncanonicalToken_iff (tok : Text) : noncanonicalToken tok = true ↔ ¬CanonicalNatural tok := by
  unfold noncanonicalToken CanonicalNatural
  by_cases hz : tok = ['0']
  · simp [hz]
  · rw [if_neg hz]
    cases tok with
    | nil => simp
    | cons c r =>
      have hlist : (∃ c' r', c :: r = c' :: r' ∧ c'.isDigit = true ∧ c' ≠ '0' ∧ r'.all Char.isDigit = true) ↔
          c.isDigit = true ∧ c ≠ '0' ∧ r.all Char.isDigit = true := by
        constructor
        · rintro ⟨c', r', he, h⟩
          cases he
          exact h
        · intro h
          exact ⟨c, r, rfl, h⟩
      rw [hlist]
      by_cases hd : c.isDigit = true <;> by_cases h0 : c = '0' <;> simp [isNonzeroDigit, hd, h0, hz] <;> simp_all

mutual
theorem canonical_within : ∀ v : Cst, v.canonical = true ↔ ∀ n, v.Within (.num n) → CanonicalNatural n.tok
  | .num n => by
    have h : (Cst.num n).canonical = true ↔ CanonicalNatural n.tok := by
      rw [Cst.canonical, Bool.not_eq_true', ← Bool.not_eq_true, noncanonicalToken_iff, not_not]
    rw [h]
    constructor
    · intro hc m hm
      cases hm
      exact hc
    · intro hall
      exact hall n .self
  | .arr es => by
    rw [Cst.canonical, canonical_within_items es]
    constructor
    · intro h n hw
      rcases within_arr.mp hw with he | ⟨v, hv, hw⟩
      · cases he
      · exact h v hv n hw
    · intro h v hv n hw
      exact h n (.item hv hw)
  | .obj ms => by
    rw [Cst.canonical, canonical_within_members ms]
    constructor
    · intro h n hw
      rcases within_obj.mp hw with he | ⟨m, hm, hw⟩
      · cases he
      · exact h m hm n hw
    · intro h m hm n hw
      exact h n (.member hm hw)
  | .str _ => by
    simp only [Cst.canonical, true_iff]
    intro n hw
    cases hw
  | .null => by
    simp only [Cst.canonical, true_iff]
    intro n hw
    cases hw
  | .bool _ => by
    simp only [Cst.canonical, true_iff]
    intro n hw
    cases hw
  | .arr0 _ => by
    simp only [Cst.canonical, true_iff]
    intro n hw
    cases hw
  | .obj0 _ => by
    simp only [Cst.canonical, true_iff]
    intro n hw
    cases hw

theorem canonical_within_items : ∀ es : Items,
    es.canonical = true ↔ ∀ v ∈ es.toList, ∀ n, v.Within (.num n) → CanonicalNatural n.tok
  | .last _ v _ => by
    rw [Items.canonical, canonical_within v, Items.toList, List.forall_mem_singleton]
  | .more _ v _ rest => by
    rw [Items.canonical, Bool.and_eq_true, canonical_within v, canonical_within_items rest, Items.toList,
      List.forall_mem_cons]

theorem canonical_within_members : ∀ ms : Members,
    ms.canonical = true ↔ ∀ m ∈ ms.toList, ∀ n, m.2.Within (.num n) → CanonicalNatural n.tok
  | .last _ _ _ _ v _ => by
    rw [Members.canonical, canonical_within v, Members.toList, List.forall_mem_singleton]
  | .more _ _ _ _ v _ rest => by
    rw [Members.canonical, Bool.and_eq_true, canonical_within v, canonical_within_members rest, Members.toList,
      List.forall_mem_cons]
end

/-! ## Strings do not count -/

mutual
/-- The value with every string token, the member names included, emptied. -/
def Cst.blanked : Cst → Cst
  | .str _ => .str []
  | .arr es => .arr es.blanked
  | .obj ms => .obj ms.blanked
  | v => v

def Items.blanked : Items → Items
  | .last w₁ v w₂ => .last w₁ v.blanked w₂
  | .more w₁ v w₂ rest => .more w₁ v.blanked w₂ rest.blanked

def Members.blanked : Members → Members
  | .last w₁ _ w₂ w₃ v w₄ => .last w₁ [] w₂ w₃ v.blanked w₄
  | .more w₁ _ w₂ w₃ v w₄ rest => .more w₁ [] w₂ w₃ v.blanked w₄ rest.blanked
end

mutual
theorem canonical_blanked : ∀ v : Cst, v.blanked.canonical = v.canonical
  | .arr es => by rw [Cst.blanked, Cst.canonical, Cst.canonical, canonical_blanked_items es]
  | .obj ms => by rw [Cst.blanked, Cst.canonical, Cst.canonical, canonical_blanked_members ms]
  | .str _ => by simp [Cst.blanked, Cst.canonical]
  | .num _ => rfl
  | .null => rfl
  | .bool _ => rfl
  | .arr0 _ => rfl
  | .obj0 _ => rfl

theorem canonical_blanked_items : ∀ es : Items, es.blanked.canonical = es.canonical
  | .last _ v _ => by rw [Items.blanked, Items.canonical, Items.canonical, canonical_blanked v]
  | .more _ v _ rest => by
    rw [Items.blanked, Items.canonical, Items.canonical, canonical_blanked v, canonical_blanked_items rest]

theorem canonical_blanked_members : ∀ ms : Members, ms.blanked.canonical = ms.canonical
  | .last _ _ _ _ v _ => by rw [Members.blanked, Members.canonical, Members.canonical, canonical_blanked v]
  | .more _ _ _ _ v _ rest => by
    rw [Members.blanked, Members.canonical, Members.canonical, canonical_blanked v, canonical_blanked_members rest]
end

/-- The scan ends on all bytes; on a JSON text it finds exactly the number tokens spelled otherwise than `0` or
`[1-9][0-9]*`, and what stands inside string tokens does not matter. -/
theorem integer_scan_exact :
    (∀ bytes : Bytes, ∃ answer, ∀ fuel, bytes.length < fuel → hasNoncanonicalIntegerBytes fuel bytes = some answer) ∧
    (∀ (d : Doc) (fuel : Nat), (utf8 d.text).length < fuel →
      ∃ answer, hasNoncanonicalIntegerBytes fuel (utf8 d.text) = some answer ∧
        (answer = true ↔ ∃ n, d.value.Within (.num n) ∧ ¬CanonicalNatural n.tok)) ∧
    (∀ (d d' : Doc) (fuel : Nat), d.value.blanked = d'.value.blanked → (utf8 d.text).length < fuel →
      (utf8 d'.text).length < fuel →
      hasNoncanonicalIntegerBytes fuel (utf8 d.text) = hasNoncanonicalIntegerBytes fuel (utf8 d'.text)) := by
  refine ⟨?_, ?_, ?_⟩
  · intro bytes
    obtain ⟨answer, ha⟩ := integerLoop_terminates (bytes.map UInt8.toNat) _ ⟨0, false, false⟩ (Nat.le_refl _)
    exact ⟨answer, fun fuel hf => ha fuel (by simpa using hf)⟩
  · intro d fuel hf
    refine ⟨_, hasNoncanonicalIntegerBytes_utf8 d.text hf, ?_⟩
    rw [hasNoncanonicalIntegerToken_doc, Bool.not_eq_true', ← Bool.not_eq_true, canonical_within]
    simp only [not_forall, exists_prop]
  · intro d d' fuel hb hf hf'
    rw [hasNoncanonicalIntegerBytes_utf8 d.text hf, hasNoncanonicalIntegerBytes_utf8 d'.text hf',
      hasNoncanonicalIntegerToken_doc, hasNoncanonicalIntegerToken_doc, ← canonical_blanked d.value, hb, canonical_blanked]

end Aizign
