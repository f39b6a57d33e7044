import Aizign.JsonMember
import Mathlib.Data.List.Perm.Basic
import Mathlib.Data.List.Nodup

/-!
# What a closed struct accepts

A struct that denies unknown members and has no defaults is read from an object
exactly when the decoded members are its fields, each once and in any order.
-/

namespace Aizign

theorem bind_eq_ok {ε α β : Type} {x : Except ε α} {f : α → Except ε β} {b : β} :
    (x >>= f) = .ok b ↔ ∃ a, x = .ok a ∧ f a = .ok b := by
  cases x <;> simp [bind, Except.bind]

theorem mapError_eq_ok {ε δ α : Type} {x : Except ε α} {f : ε → δ} {a : α} : x.mapError f = .ok a ↔ x = .ok a := by
  cases x <;> simp [Except.mapError]

theorem deMap_eq_ok {fs : List Field} {deny : Bool} {ns : List (Text × Cst)} {vs : List (Option Cst)} :
    deMap fs deny ns = .ok vs ↔ (deny = true → ∀ m ∈ ns, m.1 ∈ fieldNames fs) ∧
      (∀ f ∈ fs, (ns.filter fun m => m.1 = f.name).length ≤ 1) ∧
      (∀ f ∈ fs, f.default = false → (lookupMember ns f.name).isSome) ∧
      vs = fs.map fun f => lookupMember ns f.name := by
  have hu : ns.find? (fun m => m.1 ∉ fieldNames fs) = none ↔ ∀ m ∈ ns, m.1 ∈ fieldNames fs := by
    simp [List.find?_eq_none]
  have hd : fs.find? (fun f => 1 < (ns.filter fun m => m.1 = f.name).length) = none ↔
      ∀ f ∈ fs, (ns.filter fun m => m.1 = f.name).length ≤ 1 := by
    simp [List.find?_eq_none]
  have hm : fs.find? (fun f => !f.default && (lookupMember ns f.name).isNone) = none ↔
      ∀ f ∈ fs, f.default = false → (lookupMember ns f.name).isSome := by
    simp [List.find?_eq_none, Option.isSome_iff_ne_none]
  unfold deMap
  rw [← hd, ← hm]
  cases deny with
  | false =>
    simp only [Bool.false_eq_true, ite_false, false_implies, true_and]
    cases fs.find? (fun f => 1 < (ns.filter fun m => m.1 = f.name).length) with
    | some f => simp [throw, throwThe, MonadExceptOf.throw, bind, Except.bind]
    | none =>
      cases fs.find? (fun f => !f.default && (lookupMember ns f.name).isNone) with
      | some f => simp [throw, throwThe, MonadExceptOf.throw, bind, Except.bind]
      | none => simp [pure, Except.pure, eq_comm]
  | true =>
    simp only [ite_true, true_implies]
    rw [← hu]
    cases ns.find? (fun m => m.1 ∉ fieldNames fs) with
    | some m => simp [throw, throwThe, MonadExceptOf.throw, bind, Except.bind]
    | none =>
      cases fs.find? (fun f => 1 < (ns.filter fun m => m.1 = f.name).length) with
      | some f => simp [throw, throwThe, MonadExceptOf.throw, bind, Except.bind]
      | none =>
        cases fs.find? (fun f => !f.default && (lookupMember ns f.name).isNone) with
        | some f => simp [throw, throwThe, MonadExceptOf.throw, bind, Except.bind]
        | none => simp [pure, Except.pure, eq_comm]

theorem mem_of_lookupMember {ns : List (Text × Cst)} {n : Text} {c : Cst} (h : lookupMember ns n = some c) :
    (n, c) ∈ ns := by
  obtain ⟨m, hm, rfl⟩ := Option.map_eq_some_iff.mp h
  have hn : m.1 = n := by simpa using List.find?_some hm
  subst hn
  exact List.mem_of_find?_eq_some hm

theorem lookupMember_of_mem {ns : List (Text × Cst)} (hn : (ns.map Prod.fst).Nodup) {m : Text × Cst} (hm : m ∈ ns) :
    lookupMember ns m.1 = some m.2 := by
  induction ns with
  | nil => cases hm
  | cons x ns ih =>
    rw [List.map_cons, List.nodup_cons] at hn
    rcases List.mem_cons.mp hm with rfl | hm
    · simp [lookupMember]
    · have hx : x.1 ≠ m.1 := fun he => hn.1 (he ▸ List.mem_map.mpr ⟨m, hm, rfl⟩)
      have := ih hn.2 hm
      simpa [lookupMember, List.find?_cons, hx] using this

theorem count_name (ns : List (Text × Cst)) (n : Text) :
    (ns.map Prod.fst).count n = (ns.filter fun m => m.1 = n).length := by
  rw [List.count, List.countP_map, List.countP_eq_length_filter]
  congr 1
  exact List.filter_congr fun m _ => by simp [beq_eq_decide]

theorem length_filter_name {ns : List (Text × Cst)} (hn : (ns.map Prod.fst).Nodup) (n : Text) :
    (ns.filter fun m => m.1 = n).length ≤ 1 := by
  rw [← count_name]
  exact List.nodup_iff_count_le_one.mp hn n

/-- Members whose names are all fields, none of them twice, have no repeated name. -/
theorem nodup_of_filter_name {fs : List Field} {ns : List (Text × Cst)} (hk : ∀ m ∈ ns, m.1 ∈ fieldNames fs)
    (hd : ∀ f ∈ fs, (ns.filter fun m => m.1 = f.name).length ≤ 1) : (ns.map Prod.fst).Nodup := by
  rw [List.nodup_iff_count_le_one]
  intro n
  rw [count_name]
  by_cases hn : n ∈ fieldNames fs
  · obtain ⟨f, hf, rfl⟩ := List.mem_map.mp hn
    exact hd f hf
  · have : ns.filter (fun m => m.1 = n) = [] := by
      rw [List.filter_eq_nil_iff]
      intro m hm he
      exact hn (of_decide_eq_true he ▸ hk m hm)
    rw [this]
    exact Nat.zero_le _

theorem deMap_closed_iff {fs : List Field} {ns : List (Text × Cst)} {cs : List Cst} (hn : (fieldNames fs).Nodup)
    (hl : cs.length = fs.length) :
    deMap fs true ns = .ok (cs.map some) ↔ ns.Perm ((fieldNames fs).zip cs) := by
  have hfst : ((fieldNames fs).zip cs).map Prod.fst = fieldNames fs :=
    List.map_fst_zip (by simp [fieldNames, hl])
  have hsnd : ((fieldNames fs).zip cs).map Prod.snd = cs := List.map_snd_zip (by simp [fieldNames, hl])
  have hzn : (((fieldNames fs).zip cs).map Prod.fst).Nodup := by rw [hfst]; exact hn
  -- the fields of the struct are looked up in `zip` as they stand there
  have hz : fs.map (fun f => lookupMember ((fieldNames fs).zip cs) f.name) = cs.map some := by
    have : ((fieldNames fs).zip cs).map (fun m => lookupMember ((fieldNames fs).zip cs) m.1) =
        ((fieldNames fs).zip cs).map (fun m => some m.2) :=
      List.map_congr_left fun m hm => lookupMember_of_mem hzn hm
    calc fs.map (fun f => lookupMember ((fieldNames fs).zip cs) f.name)
        = (fieldNames fs).map (lookupMember ((fieldNames fs).zip cs)) := by simp [fieldNames]
      _ = (((fieldNames fs).zip cs).map Prod.fst).map (lookupMember ((fieldNames fs).zip cs)) := by rw [hfst]
      _ = ((fieldNames fs).zip cs).map (fun m => some m.2) := by rw [List.map_map]; exact this
      _ = (((fieldNames fs).zip cs).map Prod.snd).map some := by rw [List.map_map]; rfl
      _ = cs.map some := by rw [hsnd]
  rw [deMap_eq_ok]
  constructor
  · rintro ⟨hk, hd, -, hv⟩
    have hnn := nodup_of_filter_name (hk rfl) hd
    rw [List.perm_ext_iff_of_nodup hnn.of_map hzn.of_map]
    have hlook : ∀ f ∈ fs, lookupMember ns f.name = lookupMember ((fieldNames fs).zip cs) f.name := by
      rw [← hz] at hv
      intro f hf
      exact (List.map_inj_left.mp hv f hf).symm
    rintro ⟨n, c⟩
    constructor
    · intro hm
      obtain ⟨f, hf, hfn⟩ := List.mem_map.mp (hk rfl _ hm)
      simp only at hfn
      subst hfn
      exact mem_of_lookupMember ((hlook f hf).symm.trans (lookupMember_of_mem hnn hm))
    · intro hm
      obtain ⟨f, hf, hfn⟩ := List.mem_map.mp (List.of_mem_zip hm).1
      subst hfn
      exact mem_of_lookupMember ((hlook f hf).trans (lookupMember_of_mem hzn hm))
  · intro hp
    have hnn : (ns.map Prod.fst).Nodup := (hp.map Prod.fst).nodup_iff.mpr hzn
    have hlook : ∀ f ∈ fs, lookupMember ns f.name = lookupMember ((fieldNames fs).zip cs) f.name := by
      intro f hf
      have hmem : f.name ∈ ((fieldNames fs).zip cs).map Prod.fst := by
        rw [hfst]; exact List.mem_map.mpr ⟨f, hf, rfl⟩
      obtain ⟨m, hm, hmn⟩ := List.mem_map.mp hmem
      rw [← hmn, lookupMember_of_mem hzn hm, lookupMember_of_mem hnn (hp.mem_iff.mpr hm)]
    refine ⟨fun _ m hm => (List.of_mem_zip (hp.mem_iff.mp hm)).1, fun f _ => length_filter_name hnn f.name, ?_, ?_⟩
    · intro f hf _
      have hsome : lookupMember ns f.name ∈ cs.map some := by
        rw [← hz, hlook f hf]
        exact List.mem_map.mpr ⟨f, hf, rfl⟩
      obtain ⟨c, -, hc⟩ := List.mem_map.mp hsome
      rw [← hc]; rfl
    · rw [← hz]
      exact (List.map_congr_left hlook).symm

end Aizign
