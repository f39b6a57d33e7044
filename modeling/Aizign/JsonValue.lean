import Aizign.EnvelopeStages

/-!
# Values written through a map

`serde_json::to_value` turns a struct into a map, which is kept in the order of
its keys, and the envelope writes the map as it stands. What is written this way
passes every gate of the readers: its strings are well formed, its names
distinct, its numbers canonical and small.
-/

namespace Aizign

/-! ## Writers -/

/-- The order of strings, which is that of their characters. -/
def textLe : Text → Text → Bool
  | [], _ => true
  | _ :: _, [] => false
  | c :: s, d :: t => if c = d then textLe s t else decide (c.toNat < d.toNat)

def sortMembers (ms : List (Text × Cst)) : List (Text × Cst) := ms.mergeSort fun a b => textLe a.1 b.1

theorem sortMembers_perm (ms : List (Text × Cst)) : (sortMembers ms).Perm ms := List.mergeSort_perm ..

/-- A derived `Serialize`, through `serde_json::to_value`. -/
def jsonMap (fs : List Field) (vs : List (Option Cst)) : Cst := jsonObject (sortMembers (presentMembers fs vs))

def jsonItems (v : Cst) : List Cst → Items
  | [] => .last .nil v .nil
  | v' :: vs => .more .nil v .nil (jsonItems v' vs)

def jsonArray : List Cst → Cst
  | [] => .arr0 .nil
  | v :: vs => .arr (jsonItems v vs)

theorem toList_jsonItems (v : Cst) (vs : List Cst) : (jsonItems v vs).toList = v :: vs := by
  induction vs generalizing v with
  | nil => rfl
  | cons v' vs ih => rw [jsonItems, Items.toList, ih]

theorem elements_jsonArray (vs : List Cst) : (jsonArray vs).elements? = some vs := by
  cases vs with
  | nil => rfl
  | cons v vs => rw [jsonArray, Cst.elements?, toList_jsonItems]

/-! ## Reading them back -/

theorem lookupMember_perm {ns ms : List (Text × Cst)} (hn : (ms.map Prod.fst).Nodup) (h : ns.Perm ms) (n : Text) :
    lookupMember ns n = lookupMember ms n := by
  have hn' : (ns.map Prod.fst).Nodup := (h.map Prod.fst).nodup_iff.mpr hn
  cases hm : lookupMember ms n with
  | none =>
    rw [lookupMember_eq_none] at hm ⊢
    exact fun hmem => hm ((h.map Prod.fst).mem_iff.mp hmem)
  | some c => exact lookupMember_of_mem (m := (n, c)) hn' (h.mem_iff.mpr (mem_of_lookupMember hm))

theorem deMap_perm {fs : List Field} {deny : Bool} {ns ms : List (Text × Cst)} {vs : List (Option Cst)}
    (hn : (ms.map Prod.fst).Nodup) (h : ns.Perm ms) (hd : deMap fs deny ms = .ok vs) : deMap fs deny ns = .ok vs := by
  obtain ⟨hknown, honce, hreq, hvs⟩ := deMap_eq_ok.mp hd
  refine deMap_eq_ok.mpr ⟨fun hdeny m hm => hknown hdeny m (h.mem_iff.mp hm), fun f hf => ?_, fun f hf hdef => ?_, ?_⟩
  · rw [(h.filter _).length_eq]
    exact honce f hf
  · rw [lookupMember_perm hn h]
    exact hreq f hf hdef
  · simp only [lookupMember_perm hn h]
    exact hvs

theorem deStruct_jsonMap {fs : List Field} {vs : List (Option Cst)} (deny : Bool) (hn : (fieldNames fs).Nodup)
    (hl : vs.length = fs.length) (hr : ∀ p ∈ fs.zip vs, p.1.default = false → p.2.isSome) :
    deStruct fs deny (jsonMap fs vs) = .ok vs := by
  have h := deStruct_jsonStruct deny hn hl hr
  rw [jsonStruct, deStruct_jsonObject] at h
  rw [jsonMap, deStruct_jsonObject]
  exact deMap_perm (presentMembers_nodup hn) (sortMembers_perm _) h

theorem deVec_jsonArray {α : Type} {d : De α} {f : α → Cst} (h : ∀ a, d (f a) = .ok a) (as : List α) :
    deVec d (jsonArray (as.map f)) = .ok as := by
  rw [deVec, elements_jsonArray]
  simp only
  induction as with
  | nil => rfl
  | cons a as ih =>
    rw [List.map_cons, List.mapM_cons, h, ih]
    rfl

/-! ## The gates -/

structure Cst.Written (v : Cst) (depth : Nat) : Prop where
  clean : v.Clean
  fits : v.Fits
  nesting : v.nesting ≤ depth
  printable : Printable v.text

theorem Cst.Written.mono {v : Cst} {m n : Nat} (h : v.Written m) (hmn : m ≤ n) : v.Written n :=
  ⟨h.clean, h.fits, Nat.le_trans h.nesting hmn, h.printable⟩

theorem written_string (t : Text) : (jsonString t).Written 0 where
  clean := by
    refine clean_of_leaf (fun w h => by cases h; rfl) nofun (fun b he => ?_) nofun
    cases he
    rw [strValue_jsonBody]
    exact Option.some_ne_none t
  fits := fits_of_leaf fun n h => by cases h
  nesting := Nat.le_refl 0
  printable := strText_printable _

theorem written_null : Cst.null.Written 0 where
  clean := clean_of_leaf (fun w h => by cases h; rfl) (fun _ h => by cases h) (fun _ h => by cases h) (fun _ h => by cases h)
  fits := fits_of_leaf fun n h => by cases h
  nesting := Nat.le_refl 0
  printable := printable_of_all rfl

theorem written_bool (b : Bool) : (Cst.bool b).Written 0 where
  clean := clean_of_leaf (fun w h => by cases h; rfl) (fun _ h => by cases h) (fun _ h => by cases h) (fun _ h => by cases h)
  fits := fits_of_leaf fun n h => by cases h
  nesting := Nat.le_refl 0
  printable := by cases b <;> exact printable_of_all rfl

theorem canonicalInteger_decimal (n : Nat) : CanonicalInteger (decimal n) := by
  rw [← isCanonicalInteger_iff, isCanonicalInteger, dropMinus_decimal, all_isDigit_decimal]
  rcases Nat.eq_zero_or_pos n with rfl | hn
  · rfl
  · obtain ⟨c, r, hd, hc⟩ := decimal_head hn
    simp [hd, hc]

theorem written_nat (n : UInt32) : (jsonNat n.toNat).Written 0 where
  clean := by
    refine clean_of_leaf (fun w h => by cases h; rfl) nofun nofun fun k he => ?_
    cases he
    exact canonicalInteger_decimal n.toNat
  fits := by
    intro k hw
    cases hw
    have hle : n.toNat ≤ u32Max := by have := n.toNat_lt; rw [u32Max]; omega
    simp [parseU32, natToken_decimal, hle]
  nesting := Nat.le_refl 0
  printable := jsonNat_printable _

theorem written_array {depth : Nat} {vs : List Cst} (h : ∀ v ∈ vs, v.Written depth) : (jsonArray vs).Written (depth + 1) := by
  cases vs with
  | nil =>
    refine ⟨clean_of_leaf (fun w h => by cases h; rfl) nofun nofun nofun, fits_of_leaf (fun n h => by cases h), ?_, ?_⟩
    · exact Nat.succ_le_succ (Nat.zero_le depth)
    · exact printable_of_all rfl
  | cons v vs =>
    have htext : ∀ (vs : List Cst) (v : Cst), (∀ x ∈ v :: vs, x.Written depth) →
        (jsonItems v vs).nesting ≤ depth ∧ Printable (jsonItems v vs).text := by
      intro vs
      induction vs with
      | nil =>
        intro v h
        have hv := h v (List.mem_cons_self ..)
        refine ⟨hv.nesting, ?_⟩
        simp only [jsonItems, Items.text, Ws.nil, List.nil_append, printable_append, printable_cons]
        exact ⟨hv.printable, by decide, printable_nil⟩
      | cons v' vs ih =>
        intro v h
        have hv := h v (List.mem_cons_self ..)
        obtain ⟨hn, hp⟩ := ih v' fun x hx => h x (List.mem_cons_of_mem _ hx)
        refine ⟨Nat.max_le.mpr ⟨hv.nesting, hn⟩, ?_⟩
        simp only [jsonItems, Items.text, Ws.nil, List.nil_append, printable_append, printable_cons]
        exact ⟨hv.printable, by decide, hp⟩
    obtain ⟨hn, hp⟩ := htext vs v h
    refine ⟨clean_arr.mpr fun x hx => ?_, fits_arr.mpr fun x hx => ?_, Nat.succ_le_succ hn, ?_⟩
    · exact (h x (by rwa [toList_jsonItems] at hx)).clean
    · exact (h x (by rwa [toList_jsonItems] at hx)).fits
    · rw [jsonArray, Cst.text, printable_cons]
      exact ⟨by decide, hp⟩

theorem decodedNames_json (ms : List (Text × Cst)) :
    decodedNames (ms.map fun m => (jsonBody m.1, m.2)) = ms.map Prod.fst := by
  induction ms with
  | nil => rfl
  | cons m ms ih =>
    rw [List.map_cons, List.map_cons, decodedNames, List.filterMap_cons, strValue_jsonBody]
    exact congrArg (m.1 :: ·) ih

theorem nesting_jsonMembers {depth : Nat} (ms : List (Text × Cst)) :
    ∀ m : Text × Cst, (∀ x ∈ m :: ms, x.2.nesting ≤ depth) → (jsonMembers m ms).nesting ≤ depth := by
  induction ms with
  | nil => exact fun m h => h m (List.mem_cons_self ..)
  | cons m' ms ih =>
    intro m h
    exact Nat.max_le.mpr ⟨h m (List.mem_cons_self ..), ih m' fun x hx => h x (List.mem_cons_of_mem _ hx)⟩

theorem written_object {depth : Nat} {ms : List (Text × Cst)} (hn : (ms.map Prod.fst).Nodup)
    (h : ∀ m ∈ ms, m.2.Written depth) : (jsonObject ms).Written (depth + 1) := by
  cases ms with
  | nil =>
    refine ⟨clean_of_leaf (fun w h => by cases h; rfl) nofun nofun nofun, fits_of_leaf (fun n h => by cases h), ?_, ?_⟩
    · exact Nat.succ_le_succ (Nat.zero_le depth)
    · exact printable_of_all rfl
  | cons m ms =>
    have hmem : ∀ x ∈ (jsonMembers m ms).toList, ∃ y ∈ m :: ms, x = (jsonBody y.1, y.2) := by
      intro x hx
      rw [toList_jsonMembers] at hx
      obtain ⟨y, hy, rfl⟩ := List.mem_map.mp hx
      exact ⟨y, hy, rfl⟩
    refine ⟨clean_obj.mpr ⟨?_, fun x hx => ?_⟩, fits_obj.mpr fun x hx => ?_, ?_, ?_⟩
    · rw [toList_jsonMembers, decodedNames_json]
      exact hn
    · obtain ⟨y, hy, rfl⟩ := hmem x hx
      rw [strValue_jsonBody]
      exact ⟨Option.some_ne_none _, (h y hy).clean⟩
    · obtain ⟨y, hy, rfl⟩ := hmem x hx
      exact (h y hy).fits
    · exact Nat.succ_le_succ (nesting_jsonMembers ms m fun x hx => (h x hx).nesting)
    · rw [jsonObject, Cst.text, printable_cons]
      exact ⟨by decide, jsonMembers_printable fun x hx => (h x hx).printable⟩

theorem written_struct {depth : Nat} {fs : List Field} {vs : List (Option Cst)} (hn : (fieldNames fs).Nodup)
    (h : ∀ v, some v ∈ vs → v.Written depth) : (jsonStruct fs vs).Written (depth + 1) :=
  written_object (presentMembers_nodup hn) fun _ hm => h _ (snd_mem_of_presentMembers hm)

theorem written_map {depth : Nat} {fs : List Field} {vs : List (Option Cst)} (hn : (fieldNames fs).Nodup)
    (h : ∀ v, some v ∈ vs → v.Written depth) : (jsonMap fs vs).Written (depth + 1) := by
  refine written_object ?_ fun m hm => h _ (snd_mem_of_presentMembers ((sortMembers_perm _).mem_iff.mp hm))
  exact ((sortMembers_perm _).map Prod.fst).nodup_iff.mpr (presentMembers_nodup hn)

/-! ## Size -/

theorem length_jsonMap (fs : List Field) (vs : List (Option Cst)) :
    (jsonMap fs vs).text.length = (jsonStruct fs vs).text.length := by
  have hp := sortMembers_perm (presentMembers fs vs)
  have hlen : ∀ ms : List (Text × Cst), (jsonObject ms).text.length =
      if ms.length = 0 then 2 else 1 + (ms.map memberLength).sum := by
    intro ms
    cases ms with
    | nil => rfl
    | cons m ms =>
      rw [jsonObject, Cst.text, List.length_cons, length_jsonMembers, if_neg (by simp)]
      omega
  rw [jsonMap, jsonStruct, hlen, hlen, hp.length_eq, (hp.map memberLength).sum_nat]

theorem jsonMap_ascii {fs : List Field} {vs : List (Option Cst)} (hf : ∀ f ∈ fs, isAscii f.name = true)
    (hv : ∀ v, some v ∈ vs → isAscii v.text = true) : isAscii (jsonMap fs vs).text = true := by
  apply jsonObject_ascii
  intro x hx
  have hx' := (sortMembers_perm _).mem_iff.mp hx
  obtain ⟨f, hf', he⟩ := List.mem_map.mp (mem_presentMembers hx')
  exact ⟨he ▸ hf f hf', hv _ (snd_mem_of_presentMembers hx')⟩

end Aizign
