import Aizign.Envelope
import Aizign.JsonTokenRewrite
import Aizign.CommitLanguage
import Aizign.RecordSound

/-!
# The two passes over an envelope

A lexically clean frame is one object with distinct, well-formed names. The
structural and the typed pass see its members under the same names, with only
the value of `payload` changed, so both tell the same story about the envelope;
on the payload itself the typed pass can only meet the recursion limit.
-/

namespace Aizign

/-! ## Named members -/

def namedMembers (l : List (List StrChar × Cst)) : List (Text × Cst) :=
  l.filterMap fun m => (strValue m.1).map fun name => (name, m.2)

def Doc.named (d : Doc) : List (Text × Cst) := namedMembers d.members

theorem fst_namedMembers (l : List (List StrChar × Cst)) : (namedMembers l).map Prod.fst = decodedNames l := by
  rw [namedMembers, decodedNames, List.map_filterMap]
  congr 1
  funext m
  cases strValue m.1 <;> rfl

theorem memberNames_named {l : List (List StrChar × Cst)} (h : ∀ m ∈ l, strValue m.1 ≠ none) :
    memberNames l = .ok (namedMembers l) := by
  induction l with
  | nil => rfl
  | cons m l ih =>
    obtain ⟨name, hname⟩ := Option.ne_none_iff_exists'.mp (h m (List.mem_cons_self ..))
    have hl := ih fun x hx => h x (List.mem_cons_of_mem _ hx)
    exact memberNames_cons.mpr ⟨name, namedMembers l, hname, hl, by simp [namedMembers, hname]⟩

theorem lookupMember_cons (m : Text × Cst) (ns : List (Text × Cst)) (n : Text) :
    lookupMember (m :: ns) n = if m.1 = n then some m.2 else lookupMember ns n := by
  by_cases hm : m.1 = n <;> simp [lookupMember, hm]

theorem lookupMember_eq_none {ns : List (Text × Cst)} {n : Text} : lookupMember ns n = none ↔ n ∉ ns.map Prod.fst := by
  induction ns with
  | nil => simp [lookupMember]
  | cons m ns ih =>
    rw [lookupMember_cons, List.map_cons, List.mem_cons]
    by_cases hm : m.1 = n
    · simp [hm]
    · simp [hm, ih, Ne.symm hm]

/-- Among distinct names the last member is the only one. -/
theorem lastMember_named {l : List (List StrChar × Cst)} (h : (decodedNames l).Nodup) (n : Text) :
    lastMember l n = lookupMember (namedMembers l) n := by
  induction l with
  | nil => rfl
  | cons m l ih =>
    rw [lastMember_cons]
    cases hm : strValue m.1 with
    | none =>
      rw [show decodedNames (m :: l) = decodedNames l by simp [decodedNames, hm]] at h
      rw [ih h, show namedMembers (m :: l) = namedMembers l by simp [namedMembers, hm]]
      simp
    | some name =>
      rw [show decodedNames (m :: l) = name :: decodedNames l by simp [decodedNames, hm], List.nodup_cons] at h
      rw [ih h.2, show namedMembers (m :: l) = (name, m.2) :: namedMembers l by simp [namedMembers, hm], lookupMember_cons]
      by_cases hn : name = n
      · subst hn
        rw [← fst_namedMembers] at h
        rw [lookupMember_eq_none.mpr h.1]
        simp
      · simp [hn]

/-! ## A struct read from changed values -/

def reshape (f : Text → Cst → Cst) (ns : List (Text × Cst)) : List (Text × Cst) := ns.map fun m => (m.1, f m.1 m.2)

theorem lookupMember_reshape (f : Text → Cst → Cst) (ns : List (Text × Cst)) (n : Text) :
    lookupMember (reshape f ns) n = (lookupMember ns n).map (f n) := by
  induction ns with
  | nil => rfl
  | cons m ns ih =>
    rw [reshape, List.map_cons, lookupMember_cons, lookupMember_cons]
    by_cases hm : m.1 = n
    · simp [hm]
    · simp only [hm, ite_false]
      exact ih

/-- A struct looks only at the names before it decodes its fields. -/
theorem deMap_reshape (f : Text → Cst → Cst) (fs : List Field) (deny : Bool) (ns : List (Text × Cst)) :
    deMap fs deny (reshape f ns) =
      (deMap fs deny ns).map fun _ => fs.map fun x => (lookupMember ns x.name).map (f x.name) := by
  have hunknown : (reshape f ns).find? (fun m => m.1 ∉ fieldNames fs) =
      (ns.find? fun m => m.1 ∉ fieldNames fs).map fun m => (m.1, f m.1 m.2) := by
    rw [reshape, List.find?_map]
    rfl
  have htwice : ∀ n : Text, ((reshape f ns).filter fun m => m.1 = n).length = (ns.filter fun m => m.1 = n).length := by
    intro n
    rw [reshape, List.filter_map, List.length_map]
    rfl
  unfold deMap
  simp only [hunknown, htwice, lookupMember_reshape, Option.isNone_map]
  cases deny with
  | false =>
    cases fs.find? (fun x => 1 < (ns.filter fun m => m.1 = x.name).length) with
    | some x => rfl
    | none => cases fs.find? (fun x => !x.default && (lookupMember ns x.name).isNone) <;> rfl
  | true =>
    cases ns.find? (fun m => m.1 ∉ fieldNames fs) with
    | some m => rfl
    | none =>
      cases fs.find? (fun x => 1 < (ns.filter fun m => m.1 = x.name).length) with
      | some x => rfl
      | none => cases fs.find? (fun x => !x.default && (lookupMember ns x.name).isNone) <;> rfl

/-! ## The members of the two texts -/

def hollowValue (n : Text) (c : Cst) : Cst := if n = payloadKey then c.hollowed else c

def typedValue (n : Text) (c : Cst) : Cst := if n = payloadKey then c.typed true 1 else c

mutual

/-- Below the root, outside the payload, no number is replaced. -/
theorem Cst.typed_outside (v : Cst) {d : Nat} (hd : 1 ≤ d) : v.typed false d = v := by
  cases v with
  | num n => simp [Cst.typed, Num.typed]
  | arr es => rw [Cst.typed, es.typed_outside (by omega)]
  | obj ms => rw [Cst.typed, ms.typed_outside (by omega)]
  | _ => rfl

theorem Items.typed_outside (es : Items) {d : Nat} (hd : 2 ≤ d) : es.typed false d = es := by
  cases es with
  | last w₁ v w₂ => rw [Items.typed, v.typed_outside (by omega)]
  | more w₁ v w₂ rest => rw [Items.typed, v.typed_outside (by omega), rest.typed_outside hd]

theorem Members.typed_outside (ms : Members) {d : Nat} (hd : 2 ≤ d) : ms.typed false d = ms := by
  have hm : ∀ k : List StrChar, memberInPayload false d (strValue k) = false := by
    intro k
    have : (d == 1) = false := by simp; omega
    simp [memberInPayload, this]
  cases ms with
  | last w₁ k w₂ w₃ v w₄ => rw [Members.typed, hm, v.typed_outside (by omega)]
  | more w₁ k w₂ w₃ v w₄ rest => rw [Members.typed, hm, v.typed_outside (by omega), rest.typed_outside hd]

end

theorem Members.toList_hollowed (ms : Members) :
    ms.hollowed.toList = ms.toList.map fun m => (m.1, hollowMember m.1 m.2) := by
  cases ms with
  | last => rfl
  | more _ _ _ _ _ _ rest =>
    rw [Members.hollowed, Members.toList, rest.toList_hollowed]
    rfl

theorem Members.toList_typed (p : Bool) (d : Nat) (ms : Members) : (ms.typed p d).toList =
    ms.toList.map fun m => (m.1, m.2.typed (memberInPayload p d (strValue m.1)) d) := by
  cases ms with
  | last =>
    rw [Members.typed]
    rfl
  | more _ _ _ _ _ _ rest =>
    rw [Members.typed, Members.toList, rest.toList_typed]
    rfl

theorem namedMembers_map {f : Text → Cst → Cst} {g : List StrChar → Cst → Cst}
    (h : ∀ k c name, strValue k = some name → g k c = f name c) (l : List (List StrChar × Cst)) :
    namedMembers (l.map fun m => (m.1, g m.1 m.2)) = reshape f (namedMembers l) := by
  induction l with
  | nil => rfl
  | cons m l ih =>
    cases hm : strValue m.1 with
    | none => simpa [namedMembers, hm] using ih
    | some name =>
      rw [List.map_cons, show namedMembers (m :: l) = (name, m.2) :: namedMembers l by simp [namedMembers, hm], reshape,
        List.map_cons, ← h m.1 m.2 name hm, ← reshape, ← ih]
      simp [namedMembers, hm]

/-- A lexically clean frame whose value is an object. -/
structure Doc.CleanObject (d : Doc) : Prop where
  clean : d.value.Clean
  object : d.value.members?.isSome = true

section Clean

variable {d : Doc} (h : d.CleanObject)
include h

theorem Doc.CleanObject.members : d.value.members? = some d.members := by
  obtain ⟨ms, hms⟩ := Option.isSome_iff_exists.mp h.object
  rw [Doc.members, hms, Option.getD_some]

theorem Doc.CleanObject.member_clean : ∀ m ∈ d.members, strValue m.1 ≠ none ∧ m.2.Clean := by
  have hm := h.members
  obtain ⟨lead, v, trail⟩ := d
  cases v with
  | obj ms =>
    rw [Cst.members?, Option.some.injEq] at hm
    rw [← hm]
    exact (clean_obj.mp h.clean).2
  | obj0 w =>
    rw [Cst.members?, Option.some.injEq] at hm
    rw [← hm]
    exact fun m hm => absurd hm List.not_mem_nil
  | _ => cases hm

theorem Doc.CleanObject.nodup : (decodedNames d.members).Nodup := by
  have hm := h.members
  obtain ⟨lead, v, trail⟩ := d
  cases v with
  | obj ms =>
    rw [Cst.members?, Option.some.injEq] at hm
    rw [← hm]
    exact (clean_obj.mp h.clean).1
  | obj0 w =>
    rw [Cst.members?, Option.some.injEq] at hm
    rw [← hm]
    exact List.nodup_nil
  | _ => cases hm

theorem Doc.CleanObject.lookup (n : Text) : lastMember d.members n = lookupMember d.named n := lastMember_named h.nodup n

theorem Doc.CleanObject.lookup_clean {n : Text} {c : Cst} (hc : lookupMember d.named n = some c) : c.Clean := by
  obtain ⟨m, hm, hv⟩ := List.mem_filterMap.mp (mem_of_lookupMember hc)
  obtain ⟨name, -, he⟩ := Option.map_eq_some_iff.mp hv
  cases he
  exact (h.member_clean m hm).2

/-- The members after their values are changed, as a struct reads them. -/
theorem Doc.CleanObject.deStruct_map {f : Text → Cst → Cst} {g : List StrChar → Cst → Cst} {c : Cst}
    (hg : ∀ k c name, strValue k = some name → g k c = f name c)
    (hc : c.members? = some (d.members.map fun m => (m.1, g m.1 m.2))) (fs : List Field) (deny : Bool) :
    deStruct fs deny c = deMap fs deny (reshape f d.named) := by
  have hn : ∀ m ∈ d.members.map (fun m => (m.1, g m.1 m.2)), strValue m.1 ≠ none := by
    intro m hm
    obtain ⟨x, hx, rfl⟩ := List.mem_map.mp hm
    exact (h.member_clean x hx).1
  rw [deStruct, hc]
  change (memberNames _ >>= deMap fs deny) = _
  rw [memberNames_named hn, namedMembers_map hg]
  rfl

theorem Doc.CleanObject.deStruct_hollowed (fs : List Field) (deny : Bool) :
    deStruct fs deny d.hollowed.value = deMap fs deny (reshape hollowValue d.named) := by
  have hm := h.members
  apply h.deStruct_map (g := hollowMember)
  · intro k c name hk
    simp only [hollowMember, hollowValue, hk, Option.some.injEq]
  · obtain ⟨lead, v, trail⟩ := d
    cases v with
    | obj ms =>
      rw [Cst.members?, Option.some.injEq] at hm
      rw [← hm, Doc.hollowed]
      simp only [Cst.members?, ms.toList_hollowed]
    | obj0 w => rfl
    | _ => cases hm

theorem Doc.CleanObject.deStruct_typed (fs : List Field) (deny : Bool) :
    deStruct fs deny d.typed.value = deMap fs deny (reshape typedValue d.named) := by
  have hm := h.members
  apply h.deStruct_map (g := fun k c => c.typed (memberInPayload false 1 (strValue k)) 1)
  · intro k c name hk
    simp only [hk, memberInPayload, typedValue]
    by_cases hn : name = payloadKey
    · simp [hn]
    · have hb : (some name == some payloadKey) = false := beq_eq_false_iff_ne.mpr fun e => hn (Option.some.inj e)
      simp only [hb, hn, Bool.and_false, Bool.or_false, ite_false]
      exact c.typed_outside (Nat.le_refl 1)
  · obtain ⟨lead, v, trail⟩ := d
    cases v with
    | obj ms =>
      rw [Cst.members?, Option.some.injEq] at hm
      rw [← hm, Doc.typed]
      simp only [Cst.typed, Cst.members?, ms.toList_typed]
    | obj0 w => rfl
    | _ => cases hm

end Clean

/-! ## The typed payload -/

mutual

/-- How many containers stand in one another. -/
def Cst.nesting : Cst → Nat
  | .arr0 _ | .obj0 _ => 1
  | .arr es => es.nesting + 1
  | .obj ms => ms.nesting + 1
  | _ => 0

def Items.nesting : Items → Nat
  | .last _ v _ => v.nesting
  | .more _ v _ rest => max v.nesting rest.nesting

def Members.nesting : Members → Nat
  | .last _ _ _ _ v _ => v.nesting
  | .more _ _ _ _ v _ rest => max v.nesting rest.nesting

end

theorem tok_of_parseU32 {tok : Text} {k : Nat} (hc : CanonicalInteger tok) (h : parseU32 tok = some k) :
    tok = decimal k ∧ k ≤ u32Max := by
  simp only [parseU32, natToken] at h
  by_cases hall : (tok.all Char.isDigit && !tok.isEmpty) = true
  · simp only [hall, ite_true, Option.ite_none_right_eq_some, Option.some.injEq] at h
    obtain ⟨hle, rfl⟩ := h
    refine ⟨?_, hle⟩
    rcases hc with rfl | ⟨c, r, rfl | rfl, hd, h0, hr⟩
    · rfl
    · exact (decimal_digitsValue hd h0 r hr).2.symm
    · simp at hall
  · simp [hall] at h

theorem outOfRange_typed [SerdeJson] {n : Num} (hc : CanonicalInteger n.tok) :
    SerdeJson.outOfRange (n.typed true).tok = false := by
  rw [Num.typed]
  cases h : parseU32 n.tok with
  | none =>
    simp only [Option.isNone_none, and_self, ite_true]
    exact SerdeJson.outOfRange_decimal 0 (Nat.zero_le _)
  | some k =>
    simp only [Option.isNone_some, Bool.false_eq_true, and_false, ite_false]
    obtain ⟨htok, hle⟩ := tok_of_parseU32 hc h
    rw [htok]
    exact SerdeJson.outOfRange_decimal k (Nat.le_trans hle (by decide))

/-- A container is within the limit. -/
theorem deValue_container {depth n : Nat} {r : Except DeError Unit}
    (h : r = if depth - 1 ≤ n ∧ 0 < n then .error .recursionLimit else .ok ()) :
    (if depth ≤ 1 then .error .recursionLimit else r) =
      if depth ≤ n + 1 ∧ 0 < n + 1 then (.error .recursionLimit : Except DeError Unit) else .ok () := by
  by_cases hd : depth ≤ 1
  · rw [if_pos hd, if_pos (by omega)]
  · rw [if_neg hd, h]
    by_cases hn : depth ≤ n + 1
    · rw [if_pos (by omega), if_pos (by omega)]
    · rw [if_neg (by omega), if_neg (by omega)]

/-- Two values in a row: the deeper one decides. -/
theorem deValue_both {depth m n : Nat} {r s : Except DeError Unit}
    (hr : r = if depth ≤ m ∧ 0 < m then .error .recursionLimit else .ok ())
    (hs : s = if depth ≤ n ∧ 0 < n then .error .recursionLimit else .ok ()) :
    (do r; s) = if depth ≤ max m n ∧ 0 < max m n then .error .recursionLimit else .ok () := by
  subst hr hs
  by_cases hm : depth ≤ m ∧ 0 < m
  · rw [if_pos hm, if_pos (show depth ≤ max m n ∧ 0 < max m n by omega)]
    rfl
  · rw [if_neg hm]
    change (if depth ≤ n ∧ 0 < n then _ else _) = _
    by_cases hn : depth ≤ n ∧ 0 < n
    · rw [if_pos hn, if_pos (by omega)]
    · rw [if_neg hn, if_neg (by omega)]

mutual

/-- The recursion limit is all that a typed payload can run into. -/
theorem Cst.deValue_typed [SerdeJson] (v : Cst) (h : v.Clean) (depth d : Nat) : deValue depth (v.typed true d) =
    if depth ≤ v.nesting ∧ 0 < v.nesting then .error .recursionLimit else .ok () := by
  cases v with
  | null => simp [Cst.typed, deValue, Cst.nesting]
  | bool b => simp [Cst.typed, deValue, Cst.nesting]
  | num n =>
    have hn := outOfRange_typed (h.numbers n .self)
    simp [Cst.typed, deValue, Cst.nesting, hn]
  | str b =>
    obtain ⟨t, ht⟩ := Option.ne_none_iff_exists'.mp (h.strings b .self)
    simp [Cst.typed, deValue, Cst.nesting, ht]
  | arr0 w =>
    simp only [Cst.typed, deValue, Cst.nesting]
    exact deValue_container (n := 0) (by simp)
  | obj0 w =>
    simp only [Cst.typed, deValue, Cst.nesting]
    exact deValue_container (n := 0) (by simp)
  | arr es =>
    rw [Cst.typed, deValue, Cst.nesting]
    exact deValue_container (es.deValues_typed (clean_arr.mp h) _ _)
  | obj ms =>
    rw [Cst.typed, deValue, Cst.nesting]
    exact deValue_container (ms.deValueMembers_typed (clean_obj.mp h).2 _ _)

theorem Items.deValues_typed [SerdeJson] (es : Items) (h : ∀ v ∈ es.toList, v.Clean) (depth d : Nat) :
    deValues depth (es.typed true d) =
      if depth ≤ es.nesting ∧ 0 < es.nesting then .error .recursionLimit else .ok () := by
  cases es with
  | last w₁ v w₂ =>
    rw [Items.typed, deValues, Items.nesting]
    exact v.deValue_typed (h v (List.mem_cons_self ..)) depth d
  | more w₁ v w₂ rest =>
    rw [Items.typed, deValues, Items.nesting]
    exact deValue_both (v.deValue_typed (h v (List.mem_cons_self ..)) depth d)
      (rest.deValues_typed (fun x hx => h x (List.mem_cons_of_mem _ hx)) depth d)

theorem Members.deValueMembers_typed [SerdeJson] (ms : Members) (h : ∀ m ∈ ms.toList, strValue m.1 ≠ none ∧ m.2.Clean)
    (depth d : Nat) : deValueMembers depth (ms.typed true d) =
      if depth ≤ ms.nesting ∧ 0 < ms.nesting then .error .recursionLimit else .ok () := by
  have hp : ∀ name, memberInPayload true d name = true := fun _ => rfl
  cases ms with
  | last w₁ k w₂ w₃ v w₄ =>
    obtain ⟨hk, hv⟩ := h (k, v) (List.mem_cons_self ..)
    obtain ⟨name, hname⟩ := Option.ne_none_iff_exists'.mp hk
    rw [Members.typed, deValueMembers, Members.nesting, hname, hp]
    exact v.deValue_typed hv depth d
  | more w₁ k w₂ w₃ v w₄ rest =>
    obtain ⟨hk, hv⟩ := h (k, v) (List.mem_cons_self ..)
    obtain ⟨name, hname⟩ := Option.ne_none_iff_exists'.mp hk
    rw [Members.typed, deValueMembers, Members.nesting, hname, hp]
    exact deValue_both (v.deValue_typed hv depth d)
      (rest.deValueMembers_typed (fun x hx => h x (List.mem_cons_of_mem _ hx)) depth d)

end

theorem Cst.members?_typed (v : Cst) (p : Bool) (d : Nat) : (v.typed p d).members?.isSome = v.members?.isSome := by
  cases v with
  | num n => rfl
  | arr es => rfl
  | obj ms => simp [Cst.typed, Cst.members?]
  | _ => rfl

theorem Cst.members?_hollowed (v : Cst) : v.hollowed.members?.isSome = v.members?.isSome := by
  cases v <;> rfl

theorem Cst.nesting_pos {v : Cst} (h : v.members?.isSome = true) : 0 < v.nesting := by
  cases v with
  | obj0 w => simp [Cst.nesting]
  | obj ms => simp [Cst.nesting]
  | _ => cases h

theorem deJsonMap_typed [SerdeJson] {m : Cst} (hm : m.Clean) (ho : m.members?.isSome = true) (depth : Nat) :
    deJsonMap depth (m.typed true 1) = if depth ≤ m.nesting then .error .recursionLimit
      else .ok ⟨m.typed true 1, (m.members?_typed true 1).trans ho⟩ := by
  have ht : (m.typed true 1).members?.isSome = true := (m.members?_typed true 1).trans ho
  rw [deJsonMap, dif_pos ht, m.deValue_typed hm]
  by_cases hd : depth ≤ m.nesting
  · rw [if_pos hd, if_pos ⟨hd, Cst.nesting_pos ho⟩]
    rfl
  · rw [if_neg hd, if_neg fun h => hd h.1]
    rfl

/-! ## Requests -/

structure RequestMembers (ns : List (Text × Cst)) (p v r k m : Cst) : Prop where
  protocol : lookupMember ns protocolKey = some p
  version : lookupMember ns versionKey = some v
  requestId : lookupMember ns requestIdKey = some r
  kind : lookupMember ns kindKey = some k
  payload : lookupMember ns payloadKey = some m

def requestOf [SerdeJson] (p v r k m : Cst) : Except DeError RequestEnvelope := do
  return ⟨← deString p, ← deU32 v, ← deString r, ← deString k, ← deJsonMap envelopeDepth m⟩

theorem requestOf_eq_ok [SerdeJson] {p v r k m : Cst} {s : RequestEnvelope} : requestOf p v r k m = .ok s ↔
    deString p = .ok s.protocol ∧ deU32 v = .ok s.version ∧ deString r = .ok s.requestId ∧ deString k = .ok s.kind ∧
      deJsonMap envelopeDepth m = .ok s.payload := by
  simp only [requestOf, bind_eq_ok]
  constructor
  · rintro ⟨p', hp, v', hv, r', hr, k', hk, m', hm, h⟩
    cases h
    exact ⟨hp, hv, hr, hk, hm⟩
  · rintro ⟨hp, hv, hr, hk, hm⟩
    exact ⟨_, hp, _, hv, _, hr, _, hk, _, hm, rfl⟩

theorem requestMembers_of_deMap {ns : List (Text × Cst)} {vs : List (Option Cst)}
    (h : deMap requestFields true ns = .ok vs) : ∃ p v r k m, RequestMembers ns p v r k m := by
  obtain ⟨-, -, hreq, -⟩ := deMap_eq_ok.mp h
  have look : ∀ f ∈ requestFields, f.default = false → ∃ c, lookupMember ns f.name = some c :=
    fun f hf hd => Option.isSome_iff_exists.mp (hreq f hf hd)
  obtain ⟨p, hp⟩ := look ⟨protocolKey, false⟩ (by simp [requestFields]) rfl
  obtain ⟨v, hv⟩ := look ⟨versionKey, false⟩ (by simp [requestFields]) rfl
  obtain ⟨r, hr⟩ := look ⟨requestIdKey, false⟩ (by simp [requestFields]) rfl
  obtain ⟨k, hk⟩ := look ⟨kindKey, false⟩ (by simp [requestFields]) rfl
  obtain ⟨m, hm⟩ := look ⟨payloadKey, false⟩ (by simp [requestFields]) rfl
  exact ⟨p, v, r, k, m, hp, hv, hr, hk, hm⟩

/-- A pass whose members are those of the frame, with changed values. -/
theorem RequestEnvelope.de_reshape [SerdeJson] {f : Text → Cst → Cst} {ns : List (Text × Cst)} {c : Cst}
    (h : deStruct requestFields true c = deMap requestFields true (reshape f ns)) :
    (∀ e, deMap requestFields true ns = .error e → RequestEnvelope.de c = .error e) ∧
    ∀ vs p v r k m, deMap requestFields true ns = .ok vs → RequestMembers ns p v r k m →
      RequestEnvelope.de c = requestOf (f protocolKey p) (f versionKey v) (f requestIdKey r) (f kindKey k) (f payloadKey m) := by
  refine ⟨fun e he => ?_, fun vs p v r k m hvs hm => ?_⟩
  · rw [RequestEnvelope.de, h, deMap_reshape, he]
    rfl
  · rw [RequestEnvelope.de, h, deMap_reshape, hvs]
    simp only [requestFields, List.map_cons, List.map_nil, hm.protocol, hm.version, hm.requestId, hm.kind, hm.payload,
      Except.map, Option.map_some]
    rfl

theorem hollowValue_of_ne {n : Text} (h : n ≠ payloadKey) (c : Cst) : hollowValue n c = c := if_neg h

theorem typedValue_of_ne {n : Text} (h : n ≠ payloadKey) (c : Cst) : typedValue n c = c := if_neg h

/-- The two passes over one frame. -/
theorem Doc.CleanObject.request_passes [SerdeJson] {d : Doc} (h : d.CleanObject) :
    (∃ e, deMap requestFields true d.named = .error e ∧ RequestEnvelope.de d.hollowed.value = .error e) ∨
    ∃ vs p v r k m, deMap requestFields true d.named = .ok vs ∧ RequestMembers d.named p v r k m ∧
      RequestEnvelope.de d.hollowed.value = requestOf p v r k m.hollowed ∧
      RequestEnvelope.de d.typed.value = requestOf p v r k (m.typed true 1) := by
  have hh := RequestEnvelope.de_reshape (h.deStruct_hollowed requestFields true)
  have ht := RequestEnvelope.de_reshape (h.deStruct_typed requestFields true)
  cases hd : deMap requestFields true d.named with
  | error e => exact .inl ⟨e, rfl, hh.1 e hd⟩
  | ok vs =>
    obtain ⟨p, v, r, k, m, hm⟩ := requestMembers_of_deMap hd
    have hhollow := hh.2 vs p v r k m hd hm
    have htyped := ht.2 vs p v r k m hd hm
    rw [hollowValue_of_ne (by decide), hollowValue_of_ne (by decide), hollowValue_of_ne (by decide),
      hollowValue_of_ne (by decide), hollowValue, if_pos rfl] at hhollow
    rw [typedValue_of_ne (by decide), typedValue_of_ne (by decide), typedValue_of_ne (by decide),
      typedValue_of_ne (by decide), typedValue, if_pos rfl] at htyped
    exact .inr ⟨vs, p, v, r, k, m, rfl, hm, hhollow, htyped⟩

/-! ## The probe -/

theorem fromStr_doc (d : Doc) : fromStr d.text = .ok d.value := by
  rw [fromStr, parse_text]

theorem syntaxError_eq_none {text : Text} : (scanJsonTokens text).syntaxError = none ↔ ∃ d : Doc, d.text = text := by
  constructor
  · intro h
    cases hv : validateUnits (utf8Encoding.text text) with
    | error e =>
      rw [scanJsonTokens] at h
      simp only [hv] at h
      cases h
    | ok u => exact validateUnits_iff.mp hv
  · rintro ⟨d, rfl⟩
    rw [scanJsonTokens_doc]

theorem failure_eq_none (d : Doc) : (scanJsonTokens d.text).failure = none ↔ d.value.Clean := by
  rw [scanJsonTokens_doc, List.head?_eq_none_iff]
  exact d.value.found_clean

theorem topLevelObject_eq (d : Doc) : (scanJsonTokens d.text).topLevelObject = d.value.members?.isSome := by
  rw [scanJsonTokens_doc]
  exact topLevelObject_doc d

def Doc.probed (d : Doc) (name : Text) : Option ProbeValue := (lastMember d.members name).map Cst.probe

theorem topLevelValues_eq (d : Doc) : (scanJsonTokens d.text).topLevelValues = d.probed := by
  rw [scanJsonTokens_doc]
  rfl

theorem Doc.CleanObject.probed {d : Doc} (h : d.CleanObject) (name : Text) :
    d.probed name = (lookupMember d.named name).map Cst.probe := by
  rw [Doc.probed, h.lookup]

theorem Doc.CleanObject.safe {d : Doc} (h : d.CleanObject) : (scanJsonTokens d.text).correlationSafety = .safe := by
  rw [scanJsonTokens_doc]
  cases hs : d.members.foldl safetyStep .safe with
  | safe => rfl
  | suppressed =>
    obtain hc | ⟨m, hm, hn⟩ := (foldl_safetyStep d.members .safe).mp hs
    · cases hc
    · exact absurd hn (h.member_clean m hm).1

theorem scanFrame_eq_ok {text : Text} {scan : Scan} : scanFrame text = .ok scan ↔
    ∃ d : Doc, d.text = text ∧ d.value.members?.isSome = true ∧ scan = scanJsonTokens d.text := by
  rw [scanFrame]
  constructor
  · intro h
    cases hs : (scanJsonTokens text).syntaxError with
    | some message => simp [hs] at h
    | none =>
      obtain ⟨d, rfl⟩ := syntaxError_eq_none.mp hs
      simp only [hs, topLevelObject_eq] at h
      split at h
      · rename_i ho
        cases h
        exact ⟨d, rfl, ho, rfl⟩
      · cases h
  · rintro ⟨d, rfl, ho, rfl⟩
    simp only [syntaxError_eq_none.mpr ⟨d, rfl⟩, topLevelObject_eq, ho, ite_true]

theorem frameText_eq_ok {what : Text} {code : ShortErrorCode} {frame : Bytes} {text : Text} :
    frameText what code frame = .ok text ↔
      frame.length ≤ maxFrameBytes ∧ frame = utf8 text ∧ text.head? ≠ some byteOrderMark := by
  rw [frameText]
  by_cases hl : maxFrameBytes < frame.length
  · rw [if_pos hl]
    exact ⟨(fun h => by cases h), fun h => absurd h.1 (by omega)⟩
  · rw [if_neg hl]
    cases ht : fromUtf8 frame with
    | none =>
      refine ⟨(fun h => by cases h), fun h => ?_⟩
      rw [h.2.1, fromUtf8_utf8] at ht
      cases ht
    | some t =>
      have hframe := fromUtf8_eq_some.mp ht
      simp only
      by_cases hb : t.head? = some byteOrderMark
      · rw [if_pos hb]
        refine ⟨(fun h => by cases h), fun h => ?_⟩
        rw [utf8_inj (hframe.symm.trans h.2.1)] at hb
        exact absurd hb h.2.2
      · rw [if_neg hb]
        constructor
        · intro h
          cases h
          exact ⟨by omega, hframe, hb⟩
        · rintro ⟨-, h, -⟩
          rw [utf8_inj (hframe.symm.trans h)]

theorem Scan.version_eq_ok {scan : Scan} {v : UInt32} : scan.version = .ok v ↔ scan.failure = none ∧
    probeString (scan.topLevelValues protocolKey) = some protocolName ∧
    parseVersionToken (probeNumber (scan.topLevelValues versionKey)) = some v := by
  rw [Scan.version]
  cases scan.failure with
  | some f => simp
  | none =>
    by_cases hp : probeString (scan.topLevelValues protocolKey) = some protocolName
    · simp only [hp, ne_eq, not_true_eq_false, ite_false, true_and]
      cases parseVersionToken (probeNumber (scan.topLevelValues versionKey)) <;> simp
    · simp [hp]

/-- What both decoders know of a frame that their probe lets through. -/
structure Probed (frame : Bytes) (r : Recovered) (d : Doc) (version : UInt32) : Prop where
  frame : frame = utf8 d.text
  clean : d.CleanObject
  protocol : probeString (d.probed protocolKey) = some protocolName
  version : parseVersionToken (probeNumber (d.probed versionKey)) = some version
  kind : r.kind = probeString (d.probed kindKey)
  typedText : r.typedText = d.typed.text
  envelopeText : r.envelopeText = d.hollowed.text

theorem probed_of_scan {what : Text} {code : ShortErrorCode} {frame : Bytes} {text : Text} {scan : Scan}
    {version : UInt32} (ht : frameText what code frame = .ok text) (hs : scanFrame text = .ok scan)
    (hv : scan.version = .ok version) : ∃ d : Doc, ∀ axis, Probed frame (scan.recovered axis) d version := by
  obtain ⟨-, hframe, -⟩ := frameText_eq_ok.mp ht
  obtain ⟨d, rfl, ho, rfl⟩ := scanFrame_eq_ok.mp hs
  obtain ⟨hf, hp, hv⟩ := Scan.version_eq_ok.mp hv
  rw [topLevelValues_eq] at hp hv
  have hc : d.CleanObject := ⟨(failure_eq_none d).mp hf, ho⟩
  refine ⟨d, fun axis => ⟨hframe, hc, hp, hv, ?_, typedText_doc d hc.clean, envelopeText_doc d⟩⟩
  simp only [Scan.recovered, hc.safe, ite_true, topLevelValues_eq]

theorem Probed.at_axis {frame : Bytes} {r : Recovered} {d : Doc} {version : UInt32} (h : Probed frame r d version)
    (axis : ResponseVersion) : Probed frame { r with responseVersion := axis } d version :=
  ⟨h.frame, h.clean, h.protocol, h.version, h.kind, h.typedText, h.envelopeText⟩

theorem probed_of_probe {frame : Bytes} {r : Recovered} (h : probe frame = .ok r) :
    ∃ d version, Probed frame r d version ∧ ∀ kind, r.kind = some kind → version = acceptedVersion kind := by
  simp only [probe, bind_eq_ok, mapError_eq_ok] at h
  obtain ⟨text, ht, scan, hs, version, hv, h⟩ := h
  obtain ⟨d, hd⟩ := probed_of_scan ht hs hv
  have hd := hd .currentBootstrap
  generalize scan.recovered .currentBootstrap = recovered at h hd
  split at h
  · rename_i hk
    cases h
    refine ⟨d, version, hd, fun kind hkind => ?_⟩
    rw [hk] at hkind
    cases hkind
  · rename_i kind hk
    have hkind : version = acceptedVersion kind → ∀ k, recovered.kind = some k → version = acceptedVersion k := by
      intro hver k he
      rw [hk] at he
      rw [← Option.some.inj he]
      exact hver
    split at h
    · rename_i hver
      split at h
      · cases h
        exact ⟨d, version, hd, hkind hver⟩
      · cases h
        exact ⟨d, version, hd.at_axis _, hkind hver⟩
    · cases h

theorem probe_deString {c : Cst} {t : Text} (h : deString c = .ok t) : probeString (some c.probe) = some t := by
  obtain ⟨b, rfl, hb⟩ := body_of_deString h
  rw [Cst.probe, hb]
  rfl

theorem probe_deU32 {c : Cst} {v : UInt32} (h : deU32 c = .ok v) :
    parseVersionToken (probeNumber (some c.probe)) = some v := by
  rw [deU32] at h
  cases c with
  | num n =>
    rw [deUnsigned] at h
    cases hn : natToken n.tok with
    | none => simp [hn, Except.map] at h
    | some k =>
      simp only [hn] at h
      by_cases hk : k ≤ u32Max
      · rw [if_pos hk] at h
        cases h
        have hminus : n.tok.head? ≠ some '-' := by
          intro hm
          obtain ⟨r, hr⟩ := List.head?_eq_some_iff.mp hm
          simp [natToken, hr] at hn
        simp [Cst.probe, probeNumber, parseVersionToken, hminus, parseU32, hn, hk]
      · simp [hk, Except.map] at h
  | _ => cases h

/-- The typed pass after a structural pass that succeeded. -/
theorem typed_request [SerdeJson] {frame : Bytes} {r : Recovered} {s : RequestEnvelope} {d : Doc} {version : UInt32}
    (hd : Probed frame r d version) (hs : RequestEnvelope.fromStr r.envelopeText = .ok s) :
    ∃ p v i k m, RequestMembers d.named p v i k m ∧ deU32 v = .ok s.version ∧ deString k = .ok s.kind ∧
      m.members?.isSome = true ∧
      RequestEnvelope.fromStr r.typedText = (deJsonMap envelopeDepth (m.typed true 1)).map fun payload =>
        ⟨s.protocol, s.version, s.requestId, s.kind, payload⟩ := by
  rw [RequestEnvelope.fromStr, hd.envelopeText, fromStr_doc] at hs
  change RequestEnvelope.de d.hollowed.value = .ok s at hs
  rw [RequestEnvelope.fromStr, hd.typedText, fromStr_doc]
  obtain ⟨e, -, he⟩ | ⟨vs, p, v, i, k, m, -, hm, hh, ht⟩ := hd.clean.request_passes
  · rw [he] at hs
    cases hs
  · rw [hh] at hs
    obtain ⟨hp, hv, hi, hk, hmap⟩ := requestOf_eq_ok.mp hs
    refine ⟨p, v, i, k, m, hm, hv, hk, ?_, ?_⟩
    · rw [deJsonMap] at hmap
      split at hmap
      · rename_i ho
        rw [← m.members?_hollowed]
        exact ho
      · cases hmap
    · change RequestEnvelope.de d.typed.value = _
      rw [ht, requestOf, hp, hv, hi, hk]
      cases deJsonMap envelopeDepth (m.typed true 1) <;> rfl

/-- Whenever the structural pass succeeds, the version assertion holds. -/
theorem version_of_structural [SerdeJson] {frame : Bytes} {r : Recovered} {s : RequestEnvelope} (hr : probe frame = .ok r)
    (hs : RequestEnvelope.fromStr r.envelopeText = .ok s) : s.version = acceptedVersion s.kind := by
  obtain ⟨d, version, hd, hver⟩ := probed_of_probe hr
  obtain ⟨p, v, i, k, m, hm, hv, hk, -, -⟩ := typed_request hd hs
  have hkind : r.kind = some s.kind := by
    rw [hd.kind, hd.clean.probed, hm.kind]
    exact probe_deString hk
  have hversion := hd.version
  rw [hd.clean.probed, hm.version] at hversion
  have := (probe_deU32 hv).symm.trans hversion
  rw [Option.some.inj this]
  exact hver s.kind hkind

/-- The typed pass agrees with the structural one, and fails only on the depth of the payload. -/
theorem typed_agrees [SerdeJson] {frame : Bytes} {r : Recovered} {s : RequestEnvelope} (hr : probe frame = .ok r)
    (hs : RequestEnvelope.fromStr r.envelopeText = .ok s) :
    (∃ payload, RequestEnvelope.fromStr r.typedText = .ok ⟨s.protocol, s.version, s.requestId, s.kind, payload⟩) ∨
    (RequestEnvelope.fromStr r.typedText = .error .recursionLimit ∧ ∃ d : Doc, ∃ payload, frame = utf8 d.text ∧
      lookupMember d.named payloadKey = some payload ∧ envelopeDepth ≤ payload.nesting) := by
  obtain ⟨d, version, hd, hver⟩ := probed_of_probe hr
  obtain ⟨p, v, i, k, m, hm, -, -, ho, ht⟩ := typed_request hd hs
  rw [ht, deJsonMap_typed (hd.clean.lookup_clean hm.payload) ho]
  by_cases hn : envelopeDepth ≤ m.nesting
  · rw [if_pos hn]
    exact .inr ⟨rfl, d, m, hd.frame, hm.payload, hn⟩
  · rw [if_neg hn]
    exact .inl ⟨_, rfl⟩

theorem requestKind_ne_panic [SerdeJson] (r : Recovered) {e : RequestEnvelope} (h : registeredKind e.kind ≠ none) (message : Text) :
    requestKind r e ≠ .error (.panic message) := by
  have hmap : ∀ {α : Type} (x : Except ProtocolError α),
      x.mapError (fun e => Stop.failure (r.fail e)) ≠ .error (.panic message) := by
    intro α x
    cases x <;> simp [Except.mapError]
  rw [requestKind]
  cases hk : registeredKind e.kind with
  | none => exact absurd hk h
  | some k =>
    cases k with
    | hello =>
      simp only
      split <;> simp
    | workflowSignalSubmit => exact hmap _
    | workflowSignalReconcile => exact hmap _

/-- No frame makes the request decoder panic. -/
theorem decodeRequest_ne_panic [SerdeJson] (frame : Bytes) (message : Text) : decodeRequest frame ≠ .error (.panic message) := by
  rw [decodeRequest]
  cases hr : probe frame with
  | error f => simp [Except.mapError, bind, Except.bind]
  | ok r =>
    change (Except.mapError _ (RequestEnvelope.fromStr r.envelopeText) >>= _) ≠ _
    cases hs : RequestEnvelope.fromStr r.envelopeText with
    | error e => simp [Except.mapError, bind, Except.bind]
    | ok s =>
      simp only [Except.mapError, bind, Except.bind, version_of_structural hr hs, ne_eq, not_true_eq_false, ite_false]
      split
      · simp [throw, throwThe, MonadExceptOf.throw]
      simp only [pure, Except.pure]
      split
      · simp [throw, throwThe, MonadExceptOf.throw]
      rename_i hk
      split
      · simp [throw, throwThe, MonadExceptOf.throw]
      obtain ⟨payload, ht⟩ | ⟨ht, -⟩ := typed_agrees hr hs
      · simp only [ht]
        have hne := requestKind_ne_panic r (e := ⟨s.protocol, s.version, s.requestId, s.kind, payload⟩) hk message
        cases hreq : requestKind r ⟨s.protocol, s.version, s.requestId, s.kind, payload⟩ with
        | error e =>
          rw [hreq] at hne
          simpa using hne
        | ok k => simp
      · simp [ht]

/-! ## Responses -/

structure ResponseMembers (ns : List (Text × Cst)) (p v r k o : Cst) : Prop where
  protocol : lookupMember ns protocolKey = some p
  version : lookupMember ns versionKey = some v
  requestId : lookupMember ns requestIdKey = some r
  kind : lookupMember ns kindKey = some k
  ok : lookupMember ns okKey = some o

def responseOf [SerdeJson] (p v r k o : Cst) (m e : Option Cst) : Except DeError ResponseEnvelope := do
  return ⟨← deString p, ← deU32 v, ← deOption deString r, ← deOption deString k, ← deBool o,
    ← optional (deOption (deJsonValue envelopeDepth)) m, ← optional (deOption ErrorDto.de) e⟩

theorem responseOf_eq_ok [SerdeJson] {p v r k o : Cst} {m e : Option Cst} {s : ResponseEnvelope} :
    responseOf p v r k o m e = .ok s ↔ deString p = .ok s.protocol ∧ deU32 v = .ok s.version ∧
      deOption deString r = .ok s.requestId ∧ deOption deString k = .ok s.kind ∧ deBool o = .ok s.ok ∧
      optional (deOption (deJsonValue envelopeDepth)) m = .ok s.payload ∧
      optional (deOption ErrorDto.de) e = .ok s.error := by
  simp only [responseOf, bind_eq_ok]
  constructor
  · rintro ⟨p', hp, v', hv, r', hr, k', hk, o', ho, m', hm, e', he, h⟩
    cases h
    exact ⟨hp, hv, hr, hk, ho, hm, he⟩
  · rintro ⟨hp, hv, hr, hk, ho, hm, he⟩
    exact ⟨_, hp, _, hv, _, hr, _, hk, _, ho, _, hm, _, he, rfl⟩

theorem responseMembers_of_deMap {ns : List (Text × Cst)} {vs : List (Option Cst)}
    (h : deMap responseFields true ns = .ok vs) : ∃ p v r k o, ResponseMembers ns p v r k o := by
  obtain ⟨-, -, hreq, -⟩ := deMap_eq_ok.mp h
  have look : ∀ f ∈ responseFields, f.default = false → ∃ c, lookupMember ns f.name = some c :=
    fun f hf hd => Option.isSome_iff_exists.mp (hreq f hf hd)
  obtain ⟨p, hp⟩ := look ⟨protocolKey, false⟩ (by simp [responseFields]) rfl
  obtain ⟨v, hv⟩ := look ⟨versionKey, false⟩ (by simp [responseFields]) rfl
  obtain ⟨r, hr⟩ := look ⟨requestIdKey, false⟩ (by simp [responseFields]) rfl
  obtain ⟨k, hk⟩ := look ⟨kindKey, false⟩ (by simp [responseFields]) rfl
  obtain ⟨o, ho⟩ := look ⟨okKey, false⟩ (by simp [responseFields]) rfl
  exact ⟨p, v, r, k, o, hp, hv, hr, hk, ho⟩

theorem ResponseEnvelope.de_reshape [SerdeJson] {f : Text → Cst → Cst} {ns : List (Text × Cst)} {c : Cst}
    (h : deStruct responseFields true c = deMap responseFields true (reshape f ns)) :
    (∀ e, deMap responseFields true ns = .error e → ResponseEnvelope.de c = .error e) ∧
    ∀ vs p v r k o, deMap responseFields true ns = .ok vs → ResponseMembers ns p v r k o →
      ResponseEnvelope.de c = responseOf (f protocolKey p) (f versionKey v) (f requestIdKey r) (f kindKey k) (f okKey o)
        ((lookupMember ns payloadKey).map (f payloadKey)) ((lookupMember ns errorKey).map (f errorKey)) := by
  refine ⟨fun e he => ?_, fun vs p v r k o hvs hm => ?_⟩
  · rw [ResponseEnvelope.de, h, deMap_reshape, he]
    rfl
  · rw [ResponseEnvelope.de, h, deMap_reshape, hvs]
    simp only [responseFields, List.map_cons, List.map_nil, hm.protocol, hm.version, hm.requestId, hm.kind, hm.ok,
      Except.map, Option.map_some]
    rfl

theorem Doc.CleanObject.response_passes [SerdeJson] {d : Doc} (h : d.CleanObject) :
    (∃ e, ResponseEnvelope.de d.hollowed.value = .error e) ∨
    ∃ p v r k o e, ResponseEnvelope.de d.hollowed.value =
        responseOf p v r k o ((lookupMember d.named payloadKey).map Cst.hollowed) e ∧
      ResponseEnvelope.de d.typed.value =
        responseOf p v r k o ((lookupMember d.named payloadKey).map fun m => m.typed true 1) e := by
  have hh := ResponseEnvelope.de_reshape (h.deStruct_hollowed responseFields true)
  have ht := ResponseEnvelope.de_reshape (h.deStruct_typed responseFields true)
  cases hd : deMap responseFields true d.named with
  | error e => exact .inl ⟨e, hh.1 e hd⟩
  | ok vs =>
    obtain ⟨p, v, r, k, o, hm⟩ := responseMembers_of_deMap hd
    have hhollow := hh.2 vs p v r k o hd hm
    have htyped := ht.2 vs p v r k o hd hm
    have hherror : (lookupMember d.named errorKey).map (hollowValue errorKey) = lookupMember d.named errorKey := by
      rw [show hollowValue errorKey = id from funext fun c => hollowValue_of_ne (by decide) c, Option.map_id]
      rfl
    have hterror : (lookupMember d.named errorKey).map (typedValue errorKey) = lookupMember d.named errorKey := by
      rw [show typedValue errorKey = id from funext fun c => typedValue_of_ne (by decide) c, Option.map_id]
      rfl
    have hhpayload : hollowValue payloadKey = Cst.hollowed := funext fun c => if_pos rfl
    have htpayload : typedValue payloadKey = fun m => m.typed true 1 := funext fun c => if_pos rfl
    rw [hollowValue_of_ne (by decide), hollowValue_of_ne (by decide), hollowValue_of_ne (by decide),
      hollowValue_of_ne (by decide), hollowValue_of_ne (by decide), hherror, hhpayload] at hhollow
    rw [typedValue_of_ne (by decide), typedValue_of_ne (by decide), typedValue_of_ne (by decide),
      typedValue_of_ne (by decide), typedValue_of_ne (by decide), hterror, htpayload] at htyped
    exact .inr ⟨p, v, r, k, o, _, hhollow, htyped⟩

theorem deOption_of_ne {α : Type} {d : De α} {c : Cst} (h : c ≠ .null) : deOption d c = (d c).map some := by
  cases c with
  | null => exact absurd rfl h
  | _ => rfl

/-- Both passes find a payload, or neither does: only `null` and an absent member are none. -/
theorem payload_isSome [SerdeJson] {m : Option Cst} {f : Cst → Cst} (hf : ∀ c, f c = .null ↔ c = .null) {depth : Nat}
    {x : Option Cst} (h : optional (deOption (deJsonValue depth)) (m.map f) = .ok x) :
    x.isSome = m.any fun c => decide (c.probe ≠ .null) := by
  cases m with
  | none => cases h; rfl
  | some c =>
    rw [Option.map_some, optional] at h
    by_cases hc : c = .null
    · rw [(hf c).mpr hc] at h
      cases h
      rw [hc]
      rfl
    · rw [deOption_of_ne fun e => hc ((hf c).mp e)] at h
      cases hv : deJsonValue depth (f c) with
      | error e => simp [hv, Except.map] at h
      | ok y =>
        simp only [hv, Except.map, Except.ok.injEq] at h
        subst h
        cases c with
        | null => exact absurd rfl hc
        | str b => cases hb : strValue b <;> simp [Cst.probe, hb]
        | _ => rfl

theorem hollowed_eq_null (c : Cst) : c.hollowed = .null ↔ c = .null := by
  cases c <;> simp [Cst.hollowed]

theorem typed_eq_null (p : Bool) (d : Nat) (c : Cst) : c.typed p d = .null ↔ c = .null := by
  cases c <;> simp [Cst.typed]

/-- The typed pass over a response agrees with the structural one. -/
structure ResponseAgrees (s e : ResponseEnvelope) : Prop where
  protocol : e.protocol = s.protocol
  version : e.version = s.version
  requestId : e.requestId = s.requestId
  kind : e.kind = s.kind
  ok : e.ok = s.ok
  payload : e.payload.isSome = s.payload.isSome
  error : e.error = s.error

theorem response_agrees [SerdeJson] {frame : Bytes} {r : Recovered} {d : Doc} {version : UInt32} {s e : ResponseEnvelope}
    (hd : Probed frame r d version) (hs : ResponseEnvelope.fromStr r.envelopeText = .ok s)
    (he : ResponseEnvelope.fromStr r.typedText = .ok e) : ResponseAgrees s e := by
  rw [ResponseEnvelope.fromStr, hd.envelopeText, fromStr_doc] at hs
  change ResponseEnvelope.de d.hollowed.value = .ok s at hs
  rw [ResponseEnvelope.fromStr, hd.typedText, fromStr_doc] at he
  change ResponseEnvelope.de d.typed.value = .ok e at he
  obtain ⟨err, h⟩ | ⟨p, v, i, k, o, x, hh, ht⟩ := hd.clean.response_passes
  · rw [h] at hs
    cases hs
  · rw [hh] at hs
    rw [ht] at he
    obtain ⟨hp, hv, hi, hk, ho, hm, hx⟩ := responseOf_eq_ok.mp hs
    obtain ⟨hp', hv', hi', hk', ho', hm', hx'⟩ := responseOf_eq_ok.mp he
    have same : ∀ {α : Type} {y : Except DeError α} {a b : α}, y = .ok a → y = .ok b → b = a := by
      intro α y a b ha hb
      rw [ha] at hb
      cases hb
      rfl
    refine ⟨same hp hp', same hv hv', same hi hi', same hk hk', same ho ho', ?_, same hx hx'⟩
    rw [payload_isSome (typed_eq_null true 1) hm', payload_isSome hollowed_eq_null hm]

/-- The arms that end a response before its body is decoded. -/
def ResponseShape.Fallback : ResponseShape → Prop
  | .success .. | .failure _ => False
  | .unregistered _ | .unnamed | .mismatch => True

theorem ResponseShape.check_eq_ok {x : ResponseShape} : x.check = .ok () ↔ ¬x.Fallback := by
  cases x <;> simp [ResponseShape.check, ResponseShape.Fallback]

theorem ResponseAgrees.shape {s e : ResponseEnvelope} (h : ResponseAgrees s e) : e.shape.Fallback ↔ s.shape.Fallback := by
  obtain ⟨sp, sv, si, sk, so, sm, sx⟩ := s
  obtain ⟨ep, ev, ei, ek, eo, em, ex⟩ := e
  obtain ⟨-, -, -, hk, ho, hm, hx⟩ := h
  simp only at hk ho hm hx
  subst hk ho hx
  cases em with
  | none =>
    cases sm with
    | none => rfl
    | some y => cases hm
  | some x =>
    cases sm with
    | none => cases hm
    | some y =>
      cases eo with
      | false => cases ex <;> rfl
      | true =>
        cases ex with
        | some z => rfl
        | none =>
          cases ek with
          | none => rfl
          | some kind =>
            simp only [ResponseEnvelope.shape]
            cases registeredKind kind <;> rfl

theorem probed_of_responseProbe {frame : Bytes} {stage : Option ResponseVersion} {r : Recovered}
    (h : responseProbe frame stage = .ok r) : ∃ d version, Probed frame r d version := by
  simp only [responseProbe, bind_eq_ok, mapError_eq_ok] at h
  obtain ⟨text, ht, scan, hs, version, hv, h⟩ := h
  obtain ⟨d, hd⟩ := probed_of_scan ht hs hv
  refine ⟨d, version, ?_⟩
  split at h
  · cases h
  · cases h
    exact hd _

/-! ## Both decoders -/

theorem rewritten_texts_faithful [SerdeJson] :
    (∀ text, (scanJsonTokens text).syntaxError = none → (scanJsonTokens text).failure = none → ∃ d : Doc,
      parse text = some d ∧ parse (scanJsonTokens text).typedText = some d.typed ∧
      parse (scanJsonTokens text).envelopeText = some d.hollowed) ∧
    (∀ frame r s, probe frame = .ok r → RequestEnvelope.fromStr r.envelopeText = .ok s →
      s.version = acceptedVersion s.kind ∧
      ((∃ payload, RequestEnvelope.fromStr r.typedText = .ok ⟨s.protocol, s.version, s.requestId, s.kind, payload⟩) ∨
        (RequestEnvelope.fromStr r.typedText = .error .recursionLimit ∧ ∃ d : Doc, ∃ payload, frame = utf8 d.text ∧
          lookupMember d.named payloadKey = some payload ∧ envelopeDepth ≤ payload.nesting))) ∧
    (∀ frame message, decodeRequest frame ≠ .error (.panic message)) ∧
    ∀ frame stage r s e, responseProbe frame stage = .ok r → ResponseEnvelope.fromStr r.envelopeText = .ok s →
      s.shape.check = .ok () → ResponseEnvelope.fromStr r.typedText = .ok e → ¬e.shape.Fallback := by
  refine ⟨fun text hs hf => ?_, fun frame r s hr hs => ?_, decodeRequest_ne_panic, fun frame stage r s e hr hs hc he => ?_⟩
  · obtain ⟨d, rfl⟩ := syntaxError_eq_none.mp hs
    rw [typedText_doc d ((failure_eq_none d).mp hf), envelopeText_doc]
    exact ⟨d, parse_text d, parse_text _, parse_text _⟩
  · exact ⟨version_of_structural hr hs, typed_agrees hr hs⟩
  · obtain ⟨d, version, hd⟩ := probed_of_responseProbe hr
    rw [(response_agrees hd hs he).shape]
    exact ResponseShape.check_eq_ok.mp hc

end Aizign
