import Aizign.JsonTokenScan

/-!
# The raw-token scan is exact

The offenders of a text stated on its tree (`Cst.Offends`, with byte offsets)
and the clean trees (`Cst.Clean`, at every depth). The failure of the scan is
the offender with the least offset, the probed values are those of the last
members of each name.
-/

namespace Aizign

/-! ## Offenders -/

/-- `0` or `-?[1-9][0-9]*`. -/
def CanonicalInteger (t : Text) : Prop :=
  t = ['0'] ∨ ∃ c r, (t = c :: r ∨ t = '-' :: c :: r) ∧ c.isDigit = true ∧ c ≠ '0' ∧ r.all Char.isDigit = true

theorem isCanonicalInteger_iff {t : Text} : isCanonicalInteger t = true ↔ CanonicalInteger t := by
  have hdigits : ∀ u : Text, (!u.isEmpty && u.head? != some '0' && u.all Char.isDigit) = true ↔
      ∃ c r, u = c :: r ∧ c.isDigit = true ∧ c ≠ '0' ∧ r.all Char.isDigit = true := by
    intro u
    cases u with
    | nil => simp
    | cons c r => simp [and_left_comm, and_assoc]
  rw [isCanonicalInteger, Bool.or_eq_true, beq_iff_eq, hdigits, CanonicalInteger]
  apply or_congr Iff.rfl
  have hminus : ∀ c : Char, c.isDigit = true → c ≠ '-' := by rintro c hc rfl; cases hc
  constructor
  · rintro ⟨c, r, hu, hc⟩
    cases t with
    | nil => cases hu
    | cons a t =>
      by_cases ha : a = '-'
      · subst ha
        exact ⟨c, r, .inr (by rw [show t = c :: r from hu]), hc⟩
      · rw [show dropMinus (a :: t) = a :: t by simp [dropMinus, ha]] at hu
        exact ⟨c, r, .inl hu, hc⟩
  · rintro ⟨c, r, rfl | rfl, hc⟩
    · exact ⟨c, r, by simp [dropMinus, hminus c hc.1], hc⟩
    · exact ⟨c, r, rfl, hc⟩

def Items.located (i : Nat) : Items → List (Nat × Cst)
  | .last w₁ v _ => [(i + utf8Encoding.size w₁.chars, v)]
  | .more w₁ v w₂ rest =>
    (i + utf8Encoding.size w₁.chars, v) ::
      rest.located (i + utf8Encoding.size w₁.chars + utf8Encoding.size v.text + utf8Encoding.size w₂.chars + 1)

structure MemberAt where
  nameAt : Nat
  name : List StrChar
  valueAt : Nat
  value : Cst

def Members.located (i : Nat) : Members → List MemberAt
  | .last w₁ k w₂ w₃ v _ => [⟨i + utf8Encoding.size w₁.chars, k, valueOffset i w₁ k w₂ w₃, v⟩]
  | .more w₁ k w₂ w₃ v w₄ rest =>
    ⟨i + utf8Encoding.size w₁.chars, k, valueOffset i w₁ k w₂ w₃, v⟩ ::
      rest.located (valueOffset i w₁ k w₂ w₃ + utf8Encoding.size v.text + utf8Encoding.size w₄.chars + 1)

/-- A name token with a lone surrogate, or one that repeats an earlier name. -/
def NameOffends (inPayload : Bool) (depth : Nat) (seen : List Text) (before : List MemberAt) (m : MemberAt) (f : Failure) :
    Prop :=
  (strValue m.name = none ∧ f = ⟨.invalidUnicode, m.nameAt, inPayload, unicodeMessage⟩) ∨
    ∃ name, strValue m.name = some name ∧ (name ∈ seen ∨ ∃ m' ∈ before, strValue m'.name = some name) ∧
      f = ⟨.duplicateMember, m.nameAt, memberInPayload inPayload depth (some name), duplicateMessage⟩

/-- The offenders of a value at a byte offset, below `depth` levels. A value is in the payload when a top-level member
`payload` is it or holds it. -/
inductive Cst.Offends : (inPayload : Bool) → (depth i : Nat) → Cst → Failure → Prop
  | num {p d i n} (h : ¬CanonicalInteger n.tok) : Offends p d i (.num n) ⟨.noncanonicalNumber, i, p, numberMessage⟩
  | str {p d i b} (h : strValue b = none) : Offends p d i (.str b) ⟨.invalidUnicode, i, p, unicodeMessage⟩
  | item {p d i es x f} (hx : x ∈ es.located (i + 1)) (h : Offends p (d + 1) x.1 x.2 f) : Offends p d i (.arr es) f
  | name {p d i ms before m after f} (hm : ms.located (i + 1) = before ++ m :: after)
    (h : NameOffends p (d + 1) [] before m f) : Offends p d i (.obj ms) f
  | member {p d i ms m f} (hm : m ∈ ms.located (i + 1))
    (h : Offends (memberInPayload p (d + 1) (strValue m.name)) (d + 1) m.valueAt m.value f) : Offends p d i (.obj ms) f

def Doc.Offends (d : Doc) (f : Failure) : Prop := d.value.Offends false 0 (utf8Encoding.size d.lead.chars) f

/-- The offenders among some members, other names having been seen before them. -/
def MembersOffend (inPayload : Bool) (depth : Nat) (seen : List Text) (l : List MemberAt) (f : Failure) : Prop :=
  (∃ before m after, l = before ++ m :: after ∧ NameOffends inPayload depth seen before m f) ∨
    ∃ m ∈ l, m.value.Offends (memberInPayload inPayload depth (strValue m.name)) depth m.valueAt f

theorem mem_seeName {seen : List Text} {k : List StrChar} {name : Text} :
    name ∈ seeName seen k ↔ name ∈ seen ∨ strValue k = some name := by
  rw [seeName]
  cases strValue k <;> simp [or_comm, eq_comm]

theorem nameOffends_cons {p : Bool} {d : Nat} {seen : List Text} {x : MemberAt} {before : List MemberAt} {m : MemberAt}
    {f : Failure} : NameOffends p d seen (x :: before) m f ↔ NameOffends p d (seeName seen x.name) before m f := by
  simp only [NameOffends, mem_seeName, List.mem_cons, exists_eq_or_imp, or_assoc]

theorem membersOffend_cons {p : Bool} {d : Nat} {seen : List Text} {m : MemberAt} {l : List MemberAt} {f : Failure} :
    MembersOffend p d seen (m :: l) f ↔ NameOffends p d seen [] m f ∨
      m.value.Offends (memberInPayload p d (strValue m.name)) d m.valueAt f ∨
      MembersOffend p d (seeName seen m.name) l f := by
  constructor
  · rintro (⟨before, x, after, he, hn⟩ | ⟨x, hx, hv⟩)
    · cases before with
      | nil =>
        cases he
        exact .inl hn
      | cons b before =>
        cases he
        exact .inr (.inr (.inl ⟨before, x, after, rfl, nameOffends_cons.mp hn⟩))
    · rcases List.mem_cons.mp hx with rfl | hx
      · exact .inr (.inl hv)
      · exact .inr (.inr (.inr ⟨x, hx, hv⟩))
  · rintro (hn | hv | ⟨before, x, after, rfl, hn⟩ | ⟨x, hx, hv⟩)
    · exact .inl ⟨[], m, l, rfl, hn⟩
    · exact .inr ⟨m, List.mem_cons_self .., hv⟩
    · exact .inl ⟨m :: before, x, after, rfl, nameOffends_cons.mpr hn⟩
    · exact .inr ⟨x, List.mem_cons_of_mem _ hx, hv⟩

theorem mem_nameFound {p : Bool} {d : Nat} {seen : List Text} {m : MemberAt} {f : Failure} :
    f ∈ (nameFound p d seen m.nameAt m.name).failures ↔ NameOffends p d seen [] m f := by
  rw [nameFound, NameOffends]
  cases strValue m.name with
  | none => simp [Found.fail]
  | some name =>
    by_cases hn : name ∈ seen
    · simp [Found.fail, hn]
    · simp [Found.none, hn]

mutual

theorem Cst.mem_found (v : Cst) {p : Bool} {d i : Nat} {f : Failure} :
    f ∈ (v.found p d i).failures ↔ v.Offends p d i f := by
  cases v with
  | null => exact ⟨fun h => (List.not_mem_nil h).elim, fun h => by cases h⟩
  | bool b => exact ⟨fun h => (List.not_mem_nil h).elim, fun h => by cases h⟩
  | arr0 w => exact ⟨fun h => (List.not_mem_nil h).elim, fun h => by cases h⟩
  | obj0 w => exact ⟨fun h => (List.not_mem_nil h).elim, fun h => by cases h⟩
  | num n =>
    rw [Cst.found, numFound]
    by_cases hc : isCanonicalInteger n.tok = true
    · have hnone : ∀ x : Found, x.failures = [] → (f ∈ x.failures ↔ (Cst.num n).Offends p d i f) := by
        intro x hx
        rw [hx]
        refine ⟨fun h => (List.not_mem_nil h).elim, fun h => ?_⟩
        cases h with
        | num h => exact absurd (isCanonicalInteger_iff.mp hc) h
      simp only [hc, Bool.not_true, Bool.false_eq_true, ite_false]
      split
      · exact hnone _ rfl
      · exact hnone _ rfl
    · simp only [hc, Bool.not_false, ite_true]
      rw [Found.fail, List.mem_singleton]
      constructor
      · rintro rfl
        exact .num fun h => hc (isCanonicalInteger_iff.mpr h)
      · intro h
        cases h; rfl
  | str b =>
    rw [Cst.found, strFound]
    cases hb : strValue b with
    | none =>
      simp only [Option.isSome_none, Bool.false_eq_true, ite_false]
      rw [Found.fail, List.mem_singleton]
      constructor
      · rintro rfl
        exact .str hb
      · intro h
        cases h; rfl
    | some t =>
      simp only [Option.isSome_some, ite_true]
      refine ⟨fun h => (List.not_mem_nil h).elim, fun h => ?_⟩
      cases h with
      | str h => rw [hb] at h; cases h
  | arr es =>
    rw [Cst.found, Found.append_failures, openFound_failures, List.nil_append, es.mem_found]
    constructor
    · rintro ⟨x, hx, h⟩
      exact .item hx h
    · intro h
      cases h with
      | item hx h => exact ⟨_, hx, h⟩
  | obj ms =>
    rw [Cst.found, Found.append_failures, openFound_failures, List.nil_append, ms.mem_found]
    constructor
    · rintro (⟨before, m, after, hm, h⟩ | ⟨m, hm, h⟩)
      · exact .name hm h
      · exact .member hm h
    · intro h
      cases h with
      | name hm h => exact .inl ⟨_, _, _, hm, h⟩
      | member hm h => exact .inr ⟨_, hm, h⟩

theorem Items.mem_found (es : Items) {p : Bool} {d i : Nat} {f : Failure} :
    f ∈ (es.found p d i).failures ↔ ∃ x ∈ es.located i, x.2.Offends p d x.1 f := by
  cases es with
  | last w₁ v w₂ =>
    rw [Items.found, v.mem_found, Items.located]
    simp only [List.mem_singleton, exists_eq_left]
  | more w₁ v w₂ rest =>
    rw [Items.found, Found.append_failures, List.mem_append, v.mem_found, rest.mem_found, Items.located]
    simp only [List.mem_cons, exists_eq_or_imp]

theorem Members.mem_found (ms : Members) {p : Bool} {d i : Nat} {seen : List Text} {f : Failure} :
    f ∈ (ms.found p d seen i).failures ↔ MembersOffend p d seen (ms.located i) f := by
  have hnil : ∀ seen, ¬MembersOffend p d seen [] f := by
    rintro seen (⟨before, m, after, he, -⟩ | ⟨m, hm, -⟩)
    · cases before <;> cases he
    · cases hm
  cases ms with
  | last w₁ k w₂ w₃ v w₄ =>
    rw [Members.found, Found.append_failures, List.mem_append, Members.located, membersOffend_cons, v.mem_found,
      ← mem_nameFound, iff_false_intro (hnil _), or_false]
  | more w₁ k w₂ w₃ v w₄ rest =>
    rw [Members.found, Found.append_failures, Found.append_failures, List.mem_append, List.mem_append, Members.located,
      membersOffend_cons, v.mem_found, rest.mem_found, ← mem_nameFound, or_assoc]

end

/-! ## Clean trees -/

/-- `w` is `v` or stands somewhere inside it. -/
inductive Cst.Within : Cst → Cst → Prop
  | self {v} : Within v v
  | item {es v w} (hv : v ∈ es.toList) (h : Within v w) : Within (.arr es) w
  | member {ms k v w} (hv : (k, v) ∈ ms.toList) (h : Within v w) : Within (.obj ms) w

def decodedNames (members : List (List StrChar × Cst)) : List Text := members.filterMap fun m => strValue m.1

/-- At every depth: names distinct, no lone surrogate in a name or a string, numbers canonical. -/
structure Cst.Clean (v : Cst) : Prop where
  distinct : ∀ ms, v.Within (.obj ms) → (decodedNames ms.toList).Nodup
  names : ∀ ms, v.Within (.obj ms) → ∀ m ∈ ms.toList, strValue m.1 ≠ none
  strings : ∀ b, v.Within (.str b) → strValue b ≠ none
  numbers : ∀ n, v.Within (.num n) → CanonicalInteger n.tok

theorem within_arr {es : Items} {w : Cst} : (Cst.arr es).Within w ↔ w = .arr es ∨ ∃ v ∈ es.toList, v.Within w := by
  constructor
  · intro h
    cases h with
    | self => exact .inl rfl
    | item hv h => exact .inr ⟨_, hv, h⟩
  · rintro (rfl | ⟨v, hv, h⟩)
    · exact .self
    · exact .item hv h

theorem within_obj {ms : Members} {w : Cst} :
    (Cst.obj ms).Within w ↔ w = .obj ms ∨ ∃ m ∈ ms.toList, m.2.Within w := by
  constructor
  · intro h
    cases h with
    | self => exact .inl rfl
    | member hv h => exact .inr ⟨_, hv, h⟩
  · rintro (rfl | ⟨m, hm, h⟩)
    · exact .self
    · exact .member hm h

theorem clean_arr {es : Items} : (Cst.arr es).Clean ↔ ∀ v ∈ es.toList, v.Clean := by
  constructor
  · intro h v hv
    exact ⟨fun ms hw => h.distinct ms (.item hv hw), fun ms hw => h.names ms (.item hv hw),
      fun b hw => h.strings b (.item hv hw), fun n hw => h.numbers n (.item hv hw)⟩
  · intro h
    refine ⟨fun ms hw => ?_, fun ms hw => ?_, fun b hw => ?_, fun n hw => ?_⟩
    all_goals
      rcases within_arr.mp hw with he | ⟨v, hv, hw⟩
      · cases he
    · exact (h v hv).distinct ms hw
    · exact (h v hv).names ms hw
    · exact (h v hv).strings b hw
    · exact (h v hv).numbers n hw

theorem clean_obj {ms : Members} : (Cst.obj ms).Clean ↔ (decodedNames ms.toList).Nodup ∧
    ∀ m ∈ ms.toList, strValue m.1 ≠ none ∧ m.2.Clean := by
  constructor
  · intro h
    refine ⟨h.distinct ms .self, fun m hm => ⟨h.names ms .self m hm, ?_⟩⟩
    exact ⟨fun ms hw => h.distinct ms (.member hm hw), fun ms hw => h.names ms (.member hm hw),
      fun b hw => h.strings b (.member hm hw), fun n hw => h.numbers n (.member hm hw)⟩
  · rintro ⟨hd, h⟩
    refine ⟨fun ms hw => ?_, fun ms hw => ?_, fun b hw => ?_, fun n hw => ?_⟩
    all_goals rcases within_obj.mp hw with he | ⟨m, hm, hw⟩
    · cases he; exact hd
    · exact (h m hm).2.distinct ms hw
    · cases he; exact fun m hm => (h m hm).1
    · exact (h m hm).2.names ms hw
    · cases he
    · exact (h m hm).2.strings b hw
    · cases he
    · exact (h m hm).2.numbers n hw

theorem clean_of_leaf {v : Cst} (h : ∀ w, v.Within w → w = v) (ho : ∀ ms, v ≠ .obj ms)
    (hs : ∀ b, v = .str b → strValue b ≠ none) (hn : ∀ n, v = .num n → CanonicalInteger n.tok) : v.Clean :=
  ⟨fun ms hw => absurd (h _ hw).symm (ho ms), fun ms hw => absurd (h _ hw).symm (ho ms), fun b hw => hs b (h _ hw).symm,
    fun n hw => hn n (h _ hw).symm⟩

theorem nameFound_failures {p : Bool} {d : Nat} {seen : List Text} {i : Nat} {k : List StrChar} :
    (nameFound p d seen i k).failures = [] ↔ strValue k ≠ none ∧ ∀ name ∈ seen, strValue k ≠ some name := by
  rw [nameFound]
  cases strValue k with
  | none => simp [Found.fail]
  | some name =>
    by_cases hn : name ∈ seen
    · simp only [hn, ite_true, Found.fail, List.cons_ne_nil, ne_eq, reduceCtorEq, not_false_eq_true, true_and, false_iff,
        Option.some.injEq]
      exact fun h => h name hn rfl
    · simp only [hn, ite_false, Found.none, ne_eq, reduceCtorEq, not_false_eq_true, true_and, true_iff, Option.some.injEq]
      rintro n hmem rfl
      exact hn hmem

def FreshNames (seen : List Text) (members : List (List StrChar × Cst)) : Prop :=
  (decodedNames members).Nodup ∧ ∀ name ∈ seen, name ∉ decodedNames members

theorem freshNames_cons {seen : List Text} {m : List StrChar × Cst} {l : List (List StrChar × Cst)} {name : Text}
    (hm : strValue m.1 = some name) : FreshNames seen (m :: l) ↔ name ∉ seen ∧ FreshNames (name :: seen) l := by
  have hnames : decodedNames (m :: l) = name :: decodedNames l := by simp [decodedNames, hm]
  rw [FreshNames, FreshNames, hnames, List.nodup_cons]
  constructor
  · rintro ⟨⟨hn, hd⟩, hs⟩
    refine ⟨fun h => hs name h (List.mem_cons_self ..), hd, fun n hmem => ?_⟩
    rcases List.mem_cons.mp hmem with rfl | hmem
    · exact hn
    · exact fun h => hs n hmem (List.mem_cons_of_mem _ h)
  · rintro ⟨hn, hd, hs⟩
    refine ⟨⟨hs name (List.mem_cons_self ..), hd⟩, fun n hmem h => ?_⟩
    rcases List.mem_cons.mp h with rfl | h
    · exact hn hmem
    · exact hs n (List.mem_cons_of_mem _ hmem) h

mutual

theorem Cst.found_clean (v : Cst) {p : Bool} {d i : Nat} : (v.found p d i).failures = [] ↔ v.Clean := by
  have leaf : ∀ {v : Cst}, (∀ w, v.Within w → w = v) → (∀ ms, v ≠ .obj ms) → (∀ b, v ≠ .str b) → (∀ n, v ≠ .num n) → v.Clean :=
    fun h ho hs hn => clean_of_leaf h ho (fun b e => absurd e (hs b)) fun n e => absurd e (hn n)
  cases v with
  | null => exact ⟨fun _ => leaf (fun w h => by cases h; rfl) nofun nofun nofun, fun _ => rfl⟩
  | bool b => exact ⟨fun _ => leaf (fun w h => by cases h; rfl) nofun nofun nofun, fun _ => rfl⟩
  | arr0 w => exact ⟨fun _ => leaf (fun w h => by cases h; rfl) nofun nofun nofun, fun _ => rfl⟩
  | obj0 w => exact ⟨fun _ => leaf (fun w h => by cases h; rfl) nofun nofun nofun, fun _ => rfl⟩
  | num n =>
    have hiff : (Cst.num n).Clean ↔ CanonicalInteger n.tok := by
      refine ⟨fun h => h.numbers n .self, fun h => clean_of_leaf (fun w h => by cases h; rfl) nofun nofun fun n' he => ?_⟩
      cases he; exact h
    rw [hiff, ← isCanonicalInteger_iff, Cst.found, numFound]
    by_cases hc : isCanonicalInteger n.tok = true
    · simp only [hc, Bool.not_true, Bool.false_eq_true, ite_false, iff_true]
      split <;> rfl
    · simp [hc, Found.fail]
  | str b =>
    have hiff : (Cst.str b).Clean ↔ strValue b ≠ none := by
      refine ⟨fun h => h.strings b .self, fun h => clean_of_leaf (fun w h => by cases h; rfl) nofun (fun b' he => ?_) nofun⟩
      cases he; exact h
    rw [hiff, Cst.found, strFound]
    cases strValue b <;> simp [Found.fail, Found.none]
  | arr es => rw [Cst.found, Found.append_failures, openFound_failures, List.nil_append, es.found_clean, clean_arr]
  | obj ms =>
    rw [Cst.found, Found.append_failures, openFound_failures, List.nil_append, ms.found_clean, clean_obj]
    simp [FreshNames]

theorem Items.found_clean (es : Items) {p : Bool} {d i : Nat} :
    (es.found p d i).failures = [] ↔ ∀ v ∈ es.toList, v.Clean := by
  cases es with
  | last w₁ v w₂ => rw [Items.found, v.found_clean, Items.toList]; simp
  | more w₁ v w₂ rest =>
    rw [Items.found, Found.append_failures, List.append_eq_nil_iff, v.found_clean, rest.found_clean, Items.toList]
    simp

theorem Members.found_clean (ms : Members) {p : Bool} {d i : Nat} {seen : List Text} :
    (ms.found p d seen i).failures = [] ↔
      FreshNames seen ms.toList ∧ ∀ m ∈ ms.toList, strValue m.1 ≠ none ∧ m.2.Clean := by
  cases ms with
  | last w₁ k w₂ w₃ v w₄ =>
    rw [Members.found, Found.append_failures, List.append_eq_nil_iff, v.found_clean, nameFound_failures, Members.toList]
    cases hk : strValue k with
    | none => simp [hk]
    | some name =>
      have hnil : FreshNames (name :: seen) [] := ⟨List.nodup_nil, fun _ _ => List.not_mem_nil⟩
      rw [freshNames_cons hk, iff_true_intro hnil, and_true]
      simp only [ne_eq, reduceCtorEq, not_false_eq_true, true_and, Option.some.injEq, List.mem_singleton, forall_eq, hk]
      exact and_congr_left fun _ => ⟨fun h hmem => h name hmem rfl, fun h n hmem he => h (he ▸ hmem)⟩
  | more w₁ k w₂ w₃ v w₄ rest =>
    rw [Members.found, Found.append_failures, Found.append_failures, List.append_eq_nil_iff, List.append_eq_nil_iff,
      v.found_clean, rest.found_clean, nameFound_failures, Members.toList]
    cases hk : strValue k with
    | none => simp [hk]
    | some name =>
      have hsee : seeName seen k = name :: seen := by rw [seeName, hk, Option.elim_some]
      rw [freshNames_cons hk, hsee]
      simp only [ne_eq, reduceCtorEq, not_false_eq_true, true_and, Option.some.injEq, List.forall_mem_cons, hk]
      have hseen : (∀ n ∈ seen, ¬name = n) ↔ name ∉ seen :=
        ⟨fun h hmem => h name hmem rfl, fun h n hmem he => h (he ▸ hmem)⟩
      rw [hseen, and_assoc, and_assoc]
      exact and_congr_right fun _ => and_left_comm

end

/-! ## Last members -/

def lastMember (members : List (List StrChar × Cst)) (name : Text) : Option Cst :=
  (members.filter fun m => strValue m.1 = some name).getLast?.map Prod.snd

theorem lastMember_cons (m : List StrChar × Cst) (l : List (List StrChar × Cst)) (name : Text) :
    lastMember (m :: l) name = (lastMember l name).or (if strValue m.1 = some name then some m.2 else none) := by
  by_cases hm : strValue m.1 = some name
  · simp only [lastMember, hm, decide_true, List.filter_cons_of_pos, List.getLast?_cons, Option.map_some, ite_true]
    cases (l.filter fun m => strValue m.1 = some name).getLast? <;> rfl
  · simp [lastMember, hm]

theorem foldl_valueStep (l : List (List StrChar × Cst)) (map : Text → Option ProbeValue) (name : Text) :
    l.foldl valueStep map name = ((lastMember l name).map Cst.probe).or (map name) := by
  induction l generalizing map with
  | nil => rfl
  | cons m l ih =>
    rw [List.foldl_cons, ih, lastMember_cons]
    cases lastMember l name with
    | some v => rfl
    | none =>
      rw [Option.none_or, Option.map_none, Option.none_or, valueStep]
      cases hm : strValue m.1 with
      | none => rfl
      | some key =>
        rw [Option.elim_some, insertValue]
        by_cases hk : name = key
        · simp [hk]
        · simp [hk, Ne.symm hk]

theorem foldl_lastMember {α : Type} (step : Option α → List StrChar × Cst → Option α) (key : Text) (g : Cst → Option α)
    (hstep : ∀ c m, step c m = if strValue m.1 = some key then g m.2 else c) (l : List (List StrChar × Cst))
    (c : Option α) : l.foldl step c = (lastMember l key).elim c g := by
  induction l generalizing c with
  | nil => rfl
  | cons m l ih =>
    rw [List.foldl_cons, ih, lastMember_cons, hstep]
    cases lastMember l key with
    | some v => rfl
    | none =>
      by_cases hm : strValue m.1 = some key
      · simp [hm]
      · simp [hm]

theorem foldl_safetyStep (l : List (List StrChar × Cst)) (c : CorrelationSafety) :
    l.foldl safetyStep c = .suppressed ↔ c = .suppressed ∨ ∃ m ∈ l, strValue m.1 = none := by
  induction l generalizing c with
  | nil => simp
  | cons m l ih =>
    rw [List.foldl_cons, ih, safetyStep]
    by_cases hm : strValue m.1 = none
    · simp [hm]
    · simp [hm]

theorem errorCode_eq_some {v : Cst} {c : Text} : v.errorCode = some c ↔
    ∃ ms b, v.members? = some ms ∧ lastMember ms codeKey = some (.str b) ∧ strValue b = some c := by
  have hcode : ∀ w : Cst, w.probe.string? = some c ↔ ∃ b, w = .str b ∧ strValue b = some c := by
    intro w
    cases w with
    | str b =>
      simp only [Cst.probe, Cst.str.injEq, exists_eq_left']
      cases strValue b <;> simp [ProbeValue.string?]
    | _ => simp [Cst.probe, ProbeValue.string?]
  have hobj : ∀ ms : List (List StrChar × Cst), ms.foldl codeStep none = some c ↔
      ∃ b, lastMember ms codeKey = some (.str b) ∧ strValue b = some c := by
    intro ms
    rw [foldl_lastMember codeStep codeKey (fun v => v.probe.string?) fun _ _ => rfl]
    cases lastMember ms codeKey with
    | none => simp
    | some w => simpa using hcode w
  cases v with
  | obj ms =>
    rw [Cst.errorCode, hobj]
    simp [Cst.members?]
  | obj0 w => simp [Cst.errorCode, Cst.members?, lastMember]
  | _ => simp [Cst.errorCode, Cst.members?]

/-! ## The scan -/

theorem scanJsonTokens_doc (d : Doc) : scanJsonTokens d.text =
    { syntaxError := none
      failure := d.found.failures.head?
      typedText := unitsText (applyReplacements (utf8Encoding.text d.text) d.found.typed)
      envelopeText := unitsText (applyReplacements (utf8Encoding.text d.text) d.envelopes)
      topLevelObject := (d.text.dropWhile isUnicodeSpace).head? == some '{'
      topLevelValues := fun name => (lastMember d.members name).map Cst.probe
      correlationSafety := d.members.foldl safetyStep .safe
      errorCode := (lastMember d.members errorKey).bind Cst.errorCode
      payloadIntegerOutOfRange := !d.found.typed.isEmpty
      payloadExceedsTypedDepth := d.found.tooDeep } := by
  have hvalues : d.members.foldl valueStep (fun _ => none) = fun name => (lastMember d.members name).map Cst.probe := by
    funext name
    rw [foldl_valueStep, Option.or_none]
  have hcode : d.members.foldl errorStep none = (lastMember d.members errorKey).bind Cst.errorCode := by
    rw [foldl_lastMember errorStep errorKey Cst.errorCode fun _ _ => rfl]
    cases lastMember d.members errorKey <;> rfl
  rw [scanJsonTokens, validateUnits_doc]
  simp only [scanLoop_eq]
  rw [← hvalues, ← hcode]
  simp [ScanState.record, ScanState.absorb, ScanState.start]

theorem head?_least {lo hi : Nat} {l : List Failure} (h : InOrder lo hi l) {f : Failure} :
    l.head? = some f ↔ f ∈ l ∧ ∀ g ∈ l, f.index ≤ g.index := by
  cases l with
  | nil => simp
  | cons a l =>
    have hp := List.pairwise_cons.mp h.1
    rw [List.head?_cons, Option.some.injEq]
    constructor
    · rintro rfl
      refine ⟨List.mem_cons_self .., fun g hg => ?_⟩
      rcases List.mem_cons.mp hg with rfl | hg
      · exact Nat.le_refl _
      · exact Nat.le_of_lt (hp.1 g hg)
    · rintro ⟨hf, hle⟩
      rcases List.mem_cons.mp hf with rfl | hf
      · rfl
      · have := hp.1 f hf
        have := hle a (List.mem_cons_self ..)
        omega

theorem Doc.head?_failures (d : Doc) {f : Failure} :
    d.found.failures.head? = some f ↔ d.Offends f ∧ ∀ g, d.Offends g → f.index ≤ g.index := by
  have hmem : ∀ g, g ∈ d.found.failures ↔ d.Offends g := fun g => d.value.mem_found
  have hord : InOrder _ _ d.found.failures := d.value.inOrder_found ..
  simp only [head?_least hord, hmem]

theorem Doc.clean_iff (d : Doc) : d.value.Clean ↔ ∀ f, ¬d.Offends f := by
  rw [← d.value.found_clean, List.eq_nil_iff_forall_not_mem]
  exact forall_congr' fun f => not_congr d.value.mem_found

theorem scanJsonTokens_exact (text : Text) (h : validateJsonGrammar (utf8 text) = .ok ()) : ∃ d : Doc, d.text = text ∧
    (scanJsonTokens text).syntaxError = none ∧
    ((scanJsonTokens text).failure = none ↔ d.value.Clean) ∧
    (∀ f, (scanJsonTokens text).failure = some f ↔ d.Offends f ∧ ∀ g, d.Offends g → f.index ≤ g.index) ∧
    (∀ name, (scanJsonTokens text).topLevelValues name = (lastMember d.members name).map Cst.probe) ∧
    (∀ c, (scanJsonTokens text).errorCode = some c ↔ ∃ v ms b, lastMember d.members errorKey = some v ∧
      v.members? = some ms ∧ lastMember ms codeKey = some (.str b) ∧ strValue b = some c) ∧
    ((scanJsonTokens text).correlationSafety = .suppressed ↔ ∃ m ∈ d.members, strValue m.1 = none) := by
  rw [validateJsonGrammar, ← utf8Encoding_text] at h
  obtain ⟨d, rfl⟩ := validateUnits_iff.mp h
  rw [scanJsonTokens_doc]
  refine ⟨d, rfl, rfl, ?_, fun f => ?_, fun _ => rfl, fun c => ?_, ?_⟩
  · rw [List.head?_eq_none_iff]
    exact d.value.found_clean
  · exact d.head?_failures
  · simp only [Option.bind_eq_some_iff, errorCode_eq_some]
    constructor
    · rintro ⟨v, hv, ms, b, h⟩
      exact ⟨v, ms, b, hv, h⟩
    · rintro ⟨v, ms, b, hv, h⟩
      exact ⟨v, hv, ms, b, h⟩
  · rw [foldl_safetyStep]
    simp

def repeatedMember : Text := "\x7b\"payload\":-0,\"payload\":1\x7d".toList

theorem repeatedMember_exact : validateJsonGrammar (utf8 repeatedMember) = .ok () ∧ ∃ d : Doc, d.text = repeatedMember ∧
    ((scanJsonTokens repeatedMember).failure = none ↔ d.value.Clean) ∧
    ∀ f, (scanJsonTokens repeatedMember).failure = some f ↔ d.Offends f ∧ ∀ g, d.Offends g → f.index ≤ g.index := by
  obtain ⟨d, hd, -, hc, hf, -⟩ := scanJsonTokens_exact repeatedMember rfl
  exact ⟨rfl, d, hd, hc, hf⟩

end Aizign
