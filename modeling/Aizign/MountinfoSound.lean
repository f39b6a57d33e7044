import Aizign.Mountinfo
import Aizign.SerdeSound

/-!
# Soundness of mount qualification

A text is accepted exactly when each of its lines is a row and one row alone
carries the mount id. The row is described from its fields, the option lists
from their characters, without the loops that read them.
-/

namespace Aizign

/-! ## Whole elements of an option list -/

def Element (name options : Text) : Prop :=
  ∃ before after, options = before ++ name ++ after ∧ (before = [] ∨ ∃ b, before = b ++ [',']) ∧
    (after = [] ∨ ∃ a, after = ',' :: a)

section
variable {α : Type} [DecidableEq α] {a : α}

theorem splitOn_append_cons (xs ys : List α) : (xs ++ a :: ys).splitOn a = xs.splitOn a ++ ys.splitOn a := by
  rw [List.splitOn_eq_splitOnP, List.splitOn_eq_splitOnP, List.splitOn_eq_splitOnP]
  exact List.splitOnP_append_cons xs ys (by simp)

theorem splitOn_of_notMem {xs : List α} (h : a ∉ xs) : xs.splitOn a = [xs] := by
  rw [List.splitOn_eq_splitOnP]
  refine List.splitOnP_eq_singleton fun x hx => ?_
  rw [beq_eq_false_iff_ne]
  intro he
  exact h (he ▸ hx)

theorem mem_splitOn_of_between {x before after : List α} (hx : a ∉ x) (hb : before = [] ∨ ∃ b, before = b ++ [a])
    (ha : after = [] ∨ ∃ r, after = a :: r) : x ∈ (before ++ x ++ after).splitOn a := by
  have hright : x ∈ (x ++ after).splitOn a := by
    rcases ha with rfl | ⟨r, rfl⟩
    · rw [List.append_nil, splitOn_of_notMem hx]
      exact List.mem_singleton_self x
    · rw [splitOn_append_cons, splitOn_of_notMem hx]
      exact List.mem_append_left _ (List.mem_singleton_self x)
  rcases hb with rfl | ⟨b, rfl⟩
  · exact hright
  · rw [List.append_assoc, List.append_assoc, List.singleton_append, splitOn_append_cons]
    exact List.mem_append_right _ hright

theorem between_of_mem_splitOn (n : Nat) : ∀ {l x : List α}, l.length ≤ n → x ∈ l.splitOn a →
    ∃ before after, l = before ++ x ++ after ∧ (before = [] ∨ ∃ b, before = b ++ [a]) ∧
      (after = [] ∨ ∃ r, after = a :: r) := by
  induction n with
  | zero =>
    intro l x hn hx
    obtain rfl : l = [] := List.length_eq_zero_iff.mp (Nat.le_zero.mp hn)
    rw [splitOn_of_notMem (by simp), List.mem_singleton] at hx
    exact ⟨[], [], by simp [hx], .inl rfl, .inl rfl⟩
  | succ n ih =>
    intro l x hn hx
    by_cases ha : a ∈ l
    · obtain ⟨xs, ys, rfl, hxs⟩ := List.eq_append_cons_of_mem ha
      rw [splitOn_append_cons, splitOn_of_notMem hxs, List.singleton_append, List.mem_cons] at hx
      rcases hx with rfl | hx
      · exact ⟨[], a :: ys, by simp, .inl rfl, .inr ⟨ys, rfl⟩⟩
      · have hlen : ys.length ≤ n := by
          rw [List.length_append, List.length_cons] at hn
          omega
        obtain ⟨before, after, rfl, hb, hr⟩ := ih hlen hx
        refine ⟨xs ++ a :: before, after, by simp, .inr ?_, hr⟩
        rcases hb with rfl | ⟨b, rfl⟩
        · exact ⟨xs, rfl⟩
        · exact ⟨xs ++ a :: b, by simp⟩
    · rw [splitOn_of_notMem ha, List.mem_singleton] at hx
      exact ⟨[], [], by simp [hx], .inl rfl, .inl rfl⟩

end

theorem optionPresent_iff {options name : Text} (h : ',' ∉ name) : optionPresent options name = true ↔ Element name options := by
  have hmem : optionPresent options name = true ↔ name ∈ options.splitOn ',' := by simp [optionPresent]
  rw [hmem]
  constructor
  · intro hm
    exact between_of_mem_splitOn options.length (Nat.le_refl _) hm
  · rintro ⟨before, after, rfl, hb, ha⟩
    exact mem_splitOn_of_between h hb ha

example : optionPresent "rw,errors=remount-ro".toList "ro".toList = false := by decide

/-! ## Numbers -/

/-- `t` spells `n` in decimal digits, with or without a plus sign, and `n` is at most `max`. -/
def Unsigned (max : Nat) (t : Text) (n : Nat) : Prop :=
  ∃ digits, (t = digits ∨ t = '+' :: digits) ∧ digits ≠ [] ∧ digits.all Char.isDigit = true ∧ digitsValue digits = n ∧ n ≤ max

theorem parseUnsigned_iff {max : Nat} {t : Text} {n : Nat} : parseUnsigned max t = some n ↔ Unsigned max t n := by
  have hnat : ∀ d : Text, natToken d = some n ↔ d ≠ [] ∧ d.all Char.isDigit = true ∧ digitsValue d = n := by
    intro d
    unfold natToken
    by_cases hd : d.all Char.isDigit = true <;> by_cases hne : d = [] <;> simp [hd, hne]
  have hparse : parseUnsigned max t = some n ↔ natToken (dropPlus t) = some n ∧ n ≤ max := by
    unfold parseUnsigned
    cases hk : natToken (dropPlus t) with
    | none => simp
    | some k =>
      by_cases hle : k ≤ max
      · simp only [hle, if_true, Option.some.injEq]
        constructor
        · rintro rfl
          exact ⟨rfl, hle⟩
        · exact fun h => h.1
      · simp only [hle, if_false, Option.some.injEq]
        constructor
        · intro h
          cases h
        · rintro ⟨rfl, h⟩
          exact absurd h hle
  rw [hparse, hnat]
  constructor
  · rintro ⟨⟨hne, hall, hv⟩, hle⟩
    refine ⟨dropPlus t, ?_, hne, hall, hv, hle⟩
    unfold dropPlus
    split
    · exact .inr rfl
    · exact .inl rfl
  · rintro ⟨digits, ht, hne, hall, hv, hle⟩
    have hdrop : dropPlus t = digits := by
      rcases ht with rfl | rfl
      · unfold dropPlus
        split
        · revert hall
          simp
        · rfl
      · rfl
    rw [hdrop]
    exact ⟨⟨hne, hall, hv⟩, hle⟩

theorem Unsigned.notMem_colon {max : Nat} {t : Text} {n : Nat} (h : Unsigned max t n) : ':' ∉ t := by
  obtain ⟨digits, ht, -, hall, -, -⟩ := h
  have hd : ':' ∉ digits := by
    intro hm
    have := List.all_eq_true.mp hall ':' hm
    revert this
    decide
  rcases ht with rfl | rfl
  · exact hd
  · simpa using hd

theorem parseU64_iff {value : Option Text} {name : String} {n : Nat} :
    parseU64 value name = .ok n ↔ ∃ t, value = some t ∧ Unsigned u64Max t n := by
  unfold parseU64
  cases value with
  | none => simp
  | some t =>
    simp only [Option.some.injEq, exists_eq_left', ← parseUnsigned_iff]
    cases parseUnsigned u64Max t <;> simp

theorem parseDevice_iff {value : Option Text} {d : Nat × Nat} : parseDevice value = .ok d ↔
    ∃ major minor, value = some (major ++ ':' :: minor) ∧ Unsigned u32Max major d.1 ∧ Unsigned u32Max minor d.2 := by
  constructor
  · intro h
    unfold parseDevice at h
    cases value with
    | none => cases h
    | some t =>
      simp only at h
      cases hd : t.dropWhile (· != ':') with
      | nil => simp [hd] at h
      | cons c minor =>
        simp only [hd] at h
        have hc : c = ':' := by
          have hhead := List.head_dropWhile_not (· != ':') (l := t) (by simp [hd])
          simpa [hd] using hhead
        subst hc
        cases hma : parseUnsigned u32Max (t.takeWhile (· != ':')) with
        | none => simp [hma] at h
        | some ma =>
          cases hmi : parseUnsigned u32Max minor with
          | none => simp [hma, hmi] at h
          | some mi =>
            simp only [hma, hmi, Except.ok.injEq] at h
            subst h
            refine ⟨_, minor, ?_, parseUnsigned_iff.mp hma, parseUnsigned_iff.mp hmi⟩
            rw [← hd, List.takeWhile_append_dropWhile]
  · rintro ⟨major, minor, rfl, hma, hmi⟩
    have hnot : ∀ c ∈ major, (c != ':') = true := fun c hc => by
      rw [bne_iff_ne]
      rintro rfl
      exact hma.notMem_colon hc
    have htake : (major ++ ':' :: minor).takeWhile (· != ':') = major := by
      rw [List.takeWhile_append_of_pos hnot]
      simp
    have hdrop : (major ++ ':' :: minor).dropWhile (· != ':') = ':' :: minor := by
      rw [List.dropWhile_append_of_pos hnot]
      simp
    unfold parseDevice
    simp only [htake, hdrop, parseUnsigned_iff.mpr hma, parseUnsigned_iff.mpr hmi]

/-! ## Rows -/

theorem nextField_iff {detail : String} {fields : List Text} {f : Text} {r : List Text} :
    nextField detail fields = .ok (f, r) ↔ fields = f :: r := by
  cases fields <;> simp [nextField]

theorem readSeparated_iff {fields : List Text} {ty super : Text} : readSeparated fields = .ok (some ty, some super) ↔
    ∃ optional source, fields = optional ++ [['-'], ty, source, super] ∧ ['-'] ∉ optional := by
  induction fields with
  | nil => simp [readSeparated]
  | cons f r ih =>
    rw [readSeparated]
    by_cases hf : f = ['-']
    · rw [if_pos hf]
      subst hf
      have hsplit : (∃ optional source, ['-'] :: r = optional ++ [['-'], ty, source, super] ∧ ['-'] ∉ optional) ↔
          ∃ source, r = [ty, source, super] := by
        constructor
        · rintro ⟨optional, source, he, hn⟩
          cases optional with
          | nil => exact ⟨source, by simpa using he⟩
          | cons o os =>
            rw [List.cons_append, List.cons.injEq] at he
            rw [← he.1] at hn
            exact absurd (List.mem_cons_self ..) hn
        · rintro ⟨source, rfl⟩
          exact ⟨[], source, rfl, by simp⟩
      rw [hsplit]
      match r with
      | [] => simp
      | [_] => simp
      | [_, _] => simp
      | [_, _, _] => simp
      | _ :: _ :: _ :: _ :: _ => simp
    · rw [if_neg hf, ih]
      constructor
      · rintro ⟨optional, source, rfl, hn⟩
        exact ⟨f :: optional, source, rfl, by simp [hn, Ne.symm hf]⟩
      · rintro ⟨optional, source, he, hn⟩
        cases optional with
        | nil =>
          rw [List.nil_append, List.cons.injEq] at he
          exact absurd he.1 hf
        | cons o os =>
          rw [List.cons_append, List.cons.injEq] at he
          exact ⟨os, source, he.2, fun hm => hn (List.mem_cons_of_mem _ hm)⟩

/-- The line is a row with these facts: a mount id, a parent id, a device, a root, a mount point and options, any
number of optional fields, the separator, and after it a filesystem type, a source and superblock options. -/
def IsRow (line : Text) (row : MountRow) : Prop :=
  ∃ id parent major minor root point source : Text, ∃ optional : List Text, ∃ parentId : Nat,
    splitAsciiWhitespace line = [id, parent, major ++ ':' :: minor, root, point, row.mountOptions] ++ optional ++
      [['-'], row.filesystemType, source, row.superOptions] ∧
    ['-'] ∉ optional ∧ Unsigned u64Max id row.mountId ∧ Unsigned u64Max parent parentId ∧
    Unsigned u32Max major row.deviceMajor ∧ Unsigned u32Max minor row.deviceMinor

theorem isRow_of_parseRow {line : Text} {row : MountRow} (h : parseRow line = .ok row) : IsRow line row := by
  unfold parseRow at h
  simp only at h
  obtain ⟨id, hid, h⟩ := bind_eq_ok.mp h
  obtain ⟨parentId, hparent, h⟩ := bind_eq_ok.mp h
  obtain ⟨device, hdevice, h⟩ := bind_eq_ok.mp h
  obtain ⟨⟨root, r₁⟩, hroot, h⟩ := bind_eq_ok.mp h
  obtain ⟨⟨point, r₂⟩, hpoint, h⟩ := bind_eq_ok.mp h
  obtain ⟨⟨options, r₃⟩, hoptions, h⟩ := bind_eq_ok.mp h
  obtain ⟨⟨ty, super⟩, hsep, h⟩ := bind_eq_ok.mp h
  rw [nextField_iff] at hroot hpoint hoptions
  obtain ⟨t₁, ht₁, hid⟩ := parseU64_iff.mp hid
  obtain ⟨t₂, ht₂, hparent⟩ := parseU64_iff.mp hparent
  obtain ⟨major, minor, ht₃, hmajor, hminor⟩ := parseDevice_iff.mp hdevice
  cases ty with
  | none => simp at h
  | some ty =>
    cases super with
    | none => simp at h
    | some super =>
      simp only [Except.ok.injEq] at h
      subst h
      obtain ⟨optional, source, hr₃, hn⟩ := readSeparated_iff.mp hsep
      refine ⟨t₁, t₂, major, minor, root, point, source, optional, parentId, ?_, hn, hid, hparent, hmajor, hminor⟩
      simp only at hpoint hoptions hr₃
      generalize splitAsciiWhitespace line = fields at *
      match fields, ht₁, ht₂, ht₃, hroot with
      | _ :: _ :: _ :: _, ht₁, ht₂, ht₃, hroot =>
        simp only [List.head?_cons, List.drop_succ_cons, List.drop_zero, Option.some.injEq] at ht₁ ht₂ ht₃ hroot
        rw [ht₁, ht₂, ht₃, hroot, hpoint, hoptions, hr₃]
        simp

theorem parseRow_of_isRow {line : Text} {row : MountRow} (h : IsRow line row) : parseRow line = .ok row := by
  obtain ⟨id, parent, major, minor, root, point, source, optional, parentId, hf, hn, hid, hparent, hmajor, hminor⟩ := h
  have hid' : parseU64 (some id) "mount ID" = .ok row.mountId := parseU64_iff.mpr ⟨id, rfl, hid⟩
  have hparent' : parseU64 (some parent) "parent mount ID" = .ok parentId := parseU64_iff.mpr ⟨parent, rfl, hparent⟩
  have hdevice : parseDevice (some (major ++ ':' :: minor)) = .ok (row.deviceMajor, row.deviceMinor) :=
    parseDevice_iff.mpr ⟨major, minor, rfl, hmajor, hminor⟩
  have hsep : readSeparated (optional ++ [['-'], row.filesystemType, source, row.superOptions]) =
      .ok (some row.filesystemType, some row.superOptions) := readSeparated_iff.mpr ⟨optional, source, rfl, hn⟩
  unfold parseRow
  simp only [hf, List.cons_append, List.nil_append, List.head?_cons, List.drop_succ_cons, List.drop_zero]
  refine bind_eq_ok.mpr ⟨_, hid', bind_eq_ok.mpr ⟨_, hparent', bind_eq_ok.mpr ⟨_, hdevice, ?_⟩⟩⟩
  refine bind_eq_ok.mpr ⟨_, rfl, bind_eq_ok.mpr ⟨_, rfl, bind_eq_ok.mpr ⟨_, rfl, ?_⟩⟩⟩
  exact bind_eq_ok.mpr ⟨_, hsep, rfl⟩

theorem parseRow_iff {line : Text} {row : MountRow} : parseRow line = .ok row ↔ IsRow line row :=
  ⟨isRow_of_parseRow, parseRow_of_isRow⟩

theorem IsRow.unique {line : Text} {row row' : MountRow} (h : IsRow line row) (h' : IsRow line row') : row = row' := by
  have hp := parseRow_of_isRow h
  rw [parseRow_of_isRow h'] at hp
  exact (Except.ok.inj hp).symm

/-! ## The row loop -/

theorem findRows_cons {mountId rows : Nat} {found : Option MountRecord} {line : Text} {rest : List Text}
    {r : Option MountRecord} : findRows mountId rows found (line :: rest) = .ok r ↔
      rows + 1 ≤ maxMountinfoRows ∧ ∃ row, IsRow line row ∧
        ((row.mountId ≠ mountId ∧ findRows mountId (rows + 1) found rest = .ok r) ∨
          (row.mountId = mountId ∧ found = none ∧ mountId ≠ 0 ∧
            findRows mountId (rows + 1) (some row.record) rest = .ok r)) := by
  rw [findRows]
  by_cases hrows : maxMountinfoRows < rows + 1
  · rw [if_pos hrows]
    simp only [reduceCtorEq, false_iff]
    rintro ⟨hle, -⟩
    omega
  · rw [if_neg hrows]
    cases hp : parseRow line with
    | error e =>
      simp only [reduceCtorEq, false_iff]
      rintro ⟨-, row, hrow, -⟩
      rw [parseRow_of_isRow hrow] at hp
      cases hp
    | ok row =>
      have hrow := isRow_of_parseRow hp
      have hone : ∀ P : MountRow → Prop, (∃ row', IsRow line row' ∧ P row') ↔ P row := by
        intro P
        constructor
        · rintro ⟨row', hrow', h⟩
          rwa [hrow.unique hrow']
        · intro h
          exact ⟨row, hrow, h⟩
      rw [hone]
      simp only
      by_cases hid : row.mountId = mountId
      · by_cases hbad : found.isSome = true ∨ mountId = 0
        · rw [if_neg (not_not_intro hid), if_pos hbad]
          simp only [reduceCtorEq, false_iff]
          rintro ⟨-, ⟨hne, -⟩ | ⟨-, hnone, h0, -⟩⟩
          · exact hne hid
          · rcases hbad with hsome | hz
            · rw [hnone] at hsome
              cases hsome
            · exact h0 hz
        · rw [if_neg (not_not_intro hid), if_neg hbad]
          rw [not_or, Bool.not_eq_true, Option.isSome_eq_false_iff, Option.isNone_iff_eq_none] at hbad
          simp only [hid, hbad.1, hbad.2, ne_eq, not_true, false_and, false_or, not_false_iff, true_and]
          constructor
          · exact fun h => ⟨by omega, h⟩
          · exact fun h => h.2
      · rw [if_pos hid]
        simp only [hid, ne_eq, not_false_iff, true_and, false_and, or_false]
        constructor
        · exact fun h => ⟨by omega, h⟩
        · exact fun h => h.2

def Absent (mountId : Nat) (ls : List Text) : Prop := ∀ l ∈ ls, ∀ row, IsRow l row → row.mountId ≠ mountId

def Sole (mountId : Nat) (ls : List Text) (row : MountRow) : Prop :=
  ∃ before line after, ls = before ++ line :: after ∧ IsRow line row ∧ row.mountId = mountId ∧ Absent mountId (before ++ after)

theorem absent_cons {mountId : Nat} {line : Text} {ls : List Text} {row : MountRow} (h : IsRow line row) :
    Absent mountId (line :: ls) ↔ row.mountId ≠ mountId ∧ Absent mountId ls := by
  unfold Absent
  rw [List.forall_mem_cons]
  refine and_congr_left fun _ => ⟨fun hall => hall row h, fun hne row' h' => ?_⟩
  rwa [h'.unique h]

theorem sole_cons {mountId : Nat} {line : Text} {ls : List Text} {row row' : MountRow} (h : IsRow line row) :
    Sole mountId (line :: ls) row' ↔ (row.mountId ≠ mountId ∧ Sole mountId ls row') ∨
      (row.mountId = mountId ∧ row' = row ∧ Absent mountId ls) := by
  constructor
  · rintro ⟨before, line', after, he, hrow, hid, habs⟩
    cases before with
    | nil =>
      rw [List.nil_append, List.cons.injEq] at he
      obtain ⟨rfl, rfl⟩ := he
      obtain rfl := hrow.unique h
      exact .inr ⟨hid, rfl, habs⟩
    | cons b before =>
      rw [List.cons_append, List.cons.injEq] at he
      obtain ⟨rfl, rfl⟩ := he
      rw [List.cons_append, absent_cons h] at habs
      exact .inl ⟨habs.1, before, line', after, rfl, hrow, hid, habs.2⟩
  · rintro (⟨hne, before, line', after, rfl, hrow, hid, habs⟩ | ⟨hid, rfl, habs⟩)
    · refine ⟨line :: before, line', after, rfl, hrow, hid, ?_⟩
      rw [List.cons_append, absent_cons h]
      exact ⟨hne, habs⟩
    · exact ⟨[], line, ls, rfl, h, hid, habs⟩

/-- What the loop leaves: the record it came with when no row carries the id, else that of the one row that does. -/
theorem findRows_iff {mountId : Nat} {ls : List Text} : ∀ {rows : Nat} {found r : Option MountRecord}, rows ≤ maxMountinfoRows →
    (findRows mountId rows found ls = .ok r ↔
      rows + ls.length ≤ maxMountinfoRows ∧ (∀ l ∈ ls, ∃ row, IsRow l row) ∧
      ((Absent mountId ls ∧ r = found) ∨
        (found = none ∧ mountId ≠ 0 ∧ ∃ row, Sole mountId ls row ∧ r = some row.record))) := by
  induction ls with
  | nil =>
    intro rows found r hrows
    have hsole : ¬∃ row, Sole mountId [] row ∧ r = some row.record := by
      rintro ⟨row, ⟨before, line, after, he, -⟩, -⟩
      cases before <;> cases he
    have habs : Absent mountId [] := fun l hl => absurd hl (by simp)
    simp only [findRows, Except.ok.injEq, List.length_nil, Nat.add_zero, hrows, hsole, habs, List.not_mem_nil, true_and,
      and_false, or_false, false_imp_iff, implies_true]
    exact eq_comm
  | cons line ls ih =>
    intro rows found r hrows
    rw [findRows_cons, List.forall_mem_cons, List.length_cons]
    constructor
    · rintro ⟨hle, row, hrow, ⟨hne, h⟩ | ⟨hid, hnone, h0, h⟩⟩
      · obtain ⟨hlen, hall, hres⟩ := (ih hle).mp h
        refine ⟨by omega, ⟨⟨row, hrow⟩, hall⟩, ?_⟩
        rcases hres with ⟨habs, hr⟩ | ⟨hnone, h0, row', hsole, hr⟩
        · exact .inl ⟨(absent_cons hrow).mpr ⟨hne, habs⟩, hr⟩
        · exact .inr ⟨hnone, h0, row', (sole_cons hrow).mpr (.inl ⟨hne, hsole⟩), hr⟩
      · obtain ⟨hlen, hall, hres⟩ := (ih hle).mp h
        refine ⟨by omega, ⟨⟨row, hrow⟩, hall⟩, ?_⟩
        rcases hres with ⟨habs, hr⟩ | ⟨hsome, -⟩
        · exact .inr ⟨hnone, h0, row, (sole_cons hrow).mpr (.inr ⟨hid, rfl, habs⟩), hr⟩
        · cases hsome
    · rintro ⟨hlen, ⟨⟨row, hrow⟩, hall⟩, hres⟩
      have hle : rows + 1 ≤ maxMountinfoRows := by omega
      refine ⟨hle, row, hrow, ?_⟩
      rcases hres with ⟨habs, hr⟩ | ⟨hnone, h0, row', hsole, hr⟩
      · obtain ⟨hne, habs⟩ := (absent_cons hrow).mp habs
        exact .inl ⟨hne, (ih hle).mpr ⟨by omega, hall, .inl ⟨habs, hr⟩⟩⟩
      · rcases (sole_cons hrow).mp hsole with ⟨hne, hsole⟩ | ⟨hid, rfl, habs⟩
        · exact .inl ⟨hne, (ih hle).mpr ⟨by omega, hall, .inr ⟨hnone, h0, row', hsole, hr⟩⟩⟩
        · exact .inr ⟨hid, hnone, h0, (ih hle).mpr ⟨by omega, hall, .inl ⟨habs, hr⟩⟩⟩

theorem findExactMount_ok {text : Text} {mountId : Nat} {r : MountRecord} : findExactMount text mountId = .ok r ↔
    (lines text).length ≤ maxMountinfoRows ∧ (∀ l ∈ lines text, ∃ row, IsRow l row) ∧ mountId ≠ 0 ∧
      ∃ row, Sole mountId (lines text) row ∧ r = row.record := by
  have hfind : findExactMount text mountId = .ok r ↔ findRows mountId 0 none (lines text) = .ok (some r) := by
    unfold findExactMount
    split <;> simp_all
  rw [hfind, findRows_iff (Nat.zero_le _), Nat.zero_add]
  simp only [reduceCtorEq, and_false, false_or, true_and, Option.some.injEq]

structure MountRecord.Describes (r : MountRecord) (row : MountRow) : Prop where
  mountId : r.mountId = row.mountId
  deviceMajor : r.deviceMajor = row.deviceMajor
  deviceMinor : r.deviceMinor = row.deviceMinor
  filesystemType : r.filesystemType = row.filesystemType
  mountReadOnly : r.mountReadOnly = true ↔ Element "ro".toList row.mountOptions ∨ ¬Element "rw".toList row.mountOptions
  superblockReadOnly : r.superblockReadOnly = true ↔ Element "ro".toList row.superOptions

theorem describes_iff {r : MountRecord} {row : MountRow} : r.Describes row ↔ r = row.record := by
  have hro : ',' ∉ "ro".toList := by decide
  have hrw : ',' ∉ "rw".toList := by decide
  have hmount : row.record.mountReadOnly = true ↔
      Element "ro".toList row.mountOptions ∨ ¬Element "rw".toList row.mountOptions := by
    rw [MountRow.record, Bool.or_eq_true, Bool.not_eq_true', ← Bool.not_eq_true, optionPresent_iff hro, optionPresent_iff hrw]
  have hsuper : row.record.superblockReadOnly = true ↔ Element "ro".toList row.superOptions := optionPresent_iff hro
  constructor
  · intro h
    exact MountRecord.ext h.mountId h.deviceMajor h.deviceMinor h.filesystemType
      (Bool.eq_iff_iff.mpr (h.mountReadOnly.trans hmount.symm))
      (Bool.eq_iff_iff.mpr (h.superblockReadOnly.trans hsuper.symm))
  · rintro rfl
    exact ⟨rfl, rfl, rfl, rfl, hmount, hsuper⟩

/-- A mount is found exactly when the text has at most 4096 lines, every line is a row, and one line alone carries the
id, which is not zero. -/
theorem findExactMount_iff (text : Text) (mountId : Nat) (r : MountRecord) : findExactMount text mountId = .ok r ↔
    (lines text).length ≤ 4096 ∧ (∀ l ∈ lines text, ∃ row, IsRow l row) ∧ mountId ≠ 0 ∧
      ∃ row, Sole mountId (lines text) row ∧ r.Describes row := by
  simp only [describes_iff]
  exact findExactMount_ok

/-! ## The profile -/

theorem validateObservation_ok {o : ProfileObservation} : validateObservation o = .ok () ↔
    o.mountId ≠ 0 ∧ o.filesystemType = "ext4".toList ∧ o.mountReadOnly = false ∧ o.superblockReadOnly = false ∧
      o.filesystemMagic = extFamilyMagic := by
  unfold validateObservation
  by_cases h₁ : o.mountId = 0
  · simp [h₁]
  · by_cases h₂ : o.filesystemType = "ext4".toList
    · cases h₃ : o.mountReadOnly <;> cases h₄ : o.superblockReadOnly <;> simp [h₁, h₂]
    · rw [if_neg h₁, if_pos h₂]
      constructor
      · intro h
        cases h
      · rintro ⟨-, hty, -⟩
        exact absurd hty h₂

/-- A directory is qualified only on the strength of the one row of its mount: an ext4 mount on its own device, writable
in its mount options and not read-only in its superblock options. -/
theorem qualified_mount {statx : Except Text Statx} {mountinfo : Except Text Bytes} {fstatfs : Except Text Int}
    {o : ProfileObservation} (h : observeProduction statx mountinfo fstatfs = .ok o) (hv : validateObservation o = .ok ()) :
    ∃ stat text row, statx = .ok stat ∧ mountinfo = .ok (utf8 text) ∧ Sole stat.mountId (lines text) row ∧
      row.deviceMajor = stat.deviceMajor ∧ row.deviceMinor = stat.deviceMinor ∧ row.filesystemType = "ext4".toList ∧
      Element "rw".toList row.mountOptions ∧ ¬Element "ro".toList row.mountOptions ∧
      ¬Element "ro".toList row.superOptions := by
  unfold observeProduction at h
  obtain ⟨stat, hstat, h⟩ := bind_eq_ok.mp h
  split at h
  · cases h
  · obtain ⟨mount, hmount, h⟩ := bind_eq_ok.mp h
    split at h
    · cases h
    · rename_i hdev
      obtain ⟨fType, -, h⟩ := bind_eq_ok.mp h
      obtain rfl := Except.ok.inj h
      obtain ⟨-, hty, hro, hsuper, -⟩ := validateObservation_ok.mp hv
      simp only at hty hro hsuper
      rw [not_or, not_not, not_not] at hdev
      unfold readExactMount at hmount
      cases hm : mountinfo with
      | error e => simp [hm] at hmount
      | ok bytes =>
        simp only [hm] at hmount
        split at hmount
        · cases hmount
        · cases ht : fromUtf8 bytes with
          | none => simp [ht] at hmount
          | some text =>
            simp only [ht] at hmount
            obtain ⟨-, -, -, row, hsole, hrec⟩ := (findExactMount_ok).mp hmount
            have hd := describes_iff.mpr hrec
            have hro' : ¬(Element "ro".toList row.mountOptions ∨ ¬Element "rw".toList row.mountOptions) := by
              rw [← hd.mountReadOnly, hro]
              simp
            rw [not_or, not_not] at hro'
            refine ⟨stat, text, row, mapError_eq_ok.mp hstat, ?_, hsole, ?_, ?_, ?_, hro'.2, hro'.1, ?_⟩
            · rw [fromUtf8_eq_some.mp ht]
            · rw [hdev.1, hd.deviceMajor]
            · rw [hdev.2, hd.deviceMinor]
            · rw [← hd.filesystemType, hty]
            · rw [← hd.superblockReadOnly, hsuper]
              simp

end Aizign
