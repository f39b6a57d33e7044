import Aizign.JsonTokenExact

/-!
# The rewritten texts

The scan records byte ranges while it runs and splices them afterwards. The
result is the text of a tree: the one that was scanned, with the payload
integers that do not fit replaced (`Doc.typed`), or with the payload container
emptied (`Doc.hollowed`).
-/

namespace Aizign

/-! ## Splicing -/

/-- Replacements applied to the units from offset `i` on. -/
def spliceFrom (i : Nat) (us : Units) : List (Nat × Nat × Text) → Units
  | [] => us
  | (start, last, t) :: rs => us.take (start - i) ++ codes t ++ spliceFrom last (us.drop (last - i)) rs

def Spaced (i : Nat) : List (Nat × Nat × Text) → Prop
  | [] => True
  | (start, last, _) :: rs => i ≤ start ∧ start ≤ last ∧ Spaced last rs

theorem applyReplacements_eq {rs : List (Nat × Nat × Text)} (h : Spaced 0 rs) (text : Units) :
    applyReplacements text rs = spliceFrom 0 text rs := by
  have key : ∀ (rs : List (Nat × Nat × Text)) (out : Units) (c : Nat), Spaced c rs →
      (rs.foldl (spliceStep text) (out, c)).1 ++ text.drop (rs.foldl (spliceStep text) (out, c)).2 =
        out ++ spliceFrom c (text.drop c) rs := by
    intro rs
    induction rs with
    | nil => intro out c _; rfl
    | cons r rs ih =>
      obtain ⟨start, last, t⟩ := r
      rintro out c ⟨h₁, h₂, h₃⟩
      rw [List.foldl_cons, spliceStep, ih _ _ h₃, spliceFrom, List.drop_drop, Nat.add_sub_cancel' (Nat.le_trans h₁ h₂)]
      simp only [List.append_assoc]
  exact key rs [] 0 h

/-- Splicing `rs` into the units `us` at offset `i` gives `out`, whatever comes after. -/
structure Splices (i : Nat) (us : Units) (rs : List (Nat × Nat × Text)) (out : Units) : Prop where
  splice : ∀ rest rs', Spaced (i + us.length) rs' →
    spliceFrom i (us ++ rest) (rs ++ rs') = out ++ spliceFrom (i + us.length) rest rs'
  spaced : ∀ rs', Spaced (i + us.length) rs' → Spaced i (rs ++ rs')

theorem Spaced.mono {i j : Nat} {rs : List (Nat × Nat × Text)} (h : Spaced j rs) (hij : i ≤ j) : Spaced i rs := by
  cases rs with
  | nil => trivial
  | cons r rs => exact ⟨Nat.le_trans hij h.1, h.2⟩

theorem splices_same (i : Nat) (us : Units) : Splices i us [] us := by
  refine ⟨fun rest rs' h => ?_, fun rs' h => h.mono (Nat.le_add_right i us.length)⟩
  cases rs' with
  | nil => rfl
  | cons r rs =>
    obtain ⟨start, last, t⟩ := r
    obtain ⟨h₁, h₂, -⟩ := h
    have hs : us.length ≤ start - i := by omega
    have hl : us.length ≤ last - i := by omega
    rw [List.nil_append, spliceFrom, spliceFrom, List.take_append, List.drop_append, List.take_of_length_le hs,
      List.drop_of_length_le hl, List.nil_append, Nat.sub_sub, Nat.sub_sub]
    simp only [List.append_assoc]

theorem splices_whole (i : Nat) (us : Units) (t : Text) : Splices i us [(i, i + us.length, t)] (codes t) := by
  refine ⟨fun rest rs' h => ?_, fun rs' h => ⟨Nat.le_refl i, Nat.le_add_right i us.length, h⟩⟩
  rw [List.cons_append, List.nil_append, spliceFrom, Nat.sub_self, List.take_zero, Nat.add_sub_cancel_left,
    List.drop_left, List.nil_append]

theorem Splices.append {i : Nat} {us us' : Units} {rs rs' : List (Nat × Nat × Text)} {out out' : Units}
    (h : Splices i us rs out) (h' : Splices (i + us.length) us' rs' out') :
    Splices i (us ++ us') (rs ++ rs') (out ++ out') := by
  have hlen : i + (us ++ us').length = i + us.length + us'.length := by rw [List.length_append, Nat.add_assoc]
  refine ⟨fun rest rs'' hd => ?_, fun rs'' hd => ?_⟩
  · rw [hlen] at hd ⊢
    rw [List.append_assoc, List.append_assoc, h.splice _ _ (h'.spaced _ hd), h'.splice _ _ hd, List.append_assoc]
  · rw [hlen] at hd
    rw [List.append_assoc]
    exact h.spaced _ (h'.spaced _ hd)

theorem Splices.result {us : Units} {rs : List (Nat × Nat × Text)} {out : Units} (h : Splices 0 us rs out) :
    applyReplacements us rs = out := by
  have hd := h.spaced [] trivial
  have hs := h.splice [] [] trivial
  rw [List.append_nil] at hd
  rw [List.append_nil, List.append_nil] at hs
  rw [applyReplacements_eq hd, hs]
  exact List.append_nil out

/-! ## The typed tree -/

def Num.zero : Num := ⟨['0'], rfl⟩

/-- A payload integer that does not fit an unsigned 32-bit value becomes zero. -/
def Num.typed (inPayload : Bool) (n : Num) : Num := if inPayload ∧ (parseU32 n.tok).isNone then .zero else n

mutual

def Cst.typed (inPayload : Bool) (depth : Nat) : Cst → Cst
  | .num n => .num (n.typed inPayload)
  | .arr es => .arr (es.typed inPayload (depth + 1))
  | .obj ms => .obj (ms.typed inPayload (depth + 1))
  | v => v

def Items.typed (inPayload : Bool) (depth : Nat) : Items → Items
  | .last w₁ v w₂ => .last w₁ (v.typed inPayload depth) w₂
  | .more w₁ v w₂ rest => .more w₁ (v.typed inPayload depth) w₂ (rest.typed inPayload depth)

def Members.typed (inPayload : Bool) (depth : Nat) : Members → Members
  | .last w₁ k w₂ w₃ v w₄ => .last w₁ k w₂ w₃ (v.typed (memberInPayload inPayload depth (strValue k)) depth) w₄
  | .more w₁ k w₂ w₃ v w₄ rest =>
    .more w₁ k w₂ w₃ (v.typed (memberInPayload inPayload depth (strValue k)) depth) w₄ (rest.typed inPayload depth)

end

def Doc.typed (d : Doc) : Doc := ⟨d.lead, d.value.typed false 0, d.trail⟩

/-- Units before the replacements stay. -/
theorem Splices.behind {i : Nat} {us : Units} {rs : List (Nat × Nat × Text)} {out : Units} (pre : Units)
    (h : Splices (i + pre.length) us rs out) : Splices i (pre ++ us) rs (pre ++ out) := (splices_same i pre).append h

theorem Splices.cons {i : Nat} {us : Units} {rs : List (Nat × Nat × Text)} {out : Units} (u : Nat)
    (h : Splices (i + 1) us rs out) : Splices i (u :: us) rs (u :: out) := h.behind [u]

/-- A member up to its value. -/
theorem splices_member {i : Nat} (w₁ : Ws) (k : List StrChar) (w₂ w₃ : Ws) {us : Units} {rs : List (Nat × Nat × Text)}
    {out : Units} (h : Splices (valueOffset i w₁ k w₂ w₃) us rs out) :
    Splices i (utf8Encoding.text w₁.chars ++ (utf8Encoding.text (strText k) ++ (utf8Encoding.text w₂.chars ++
        ':'.toNat :: (utf8Encoding.text w₃.chars ++ us)))) rs
      (utf8Encoding.text w₁.chars ++ (utf8Encoding.text (strText k) ++ (utf8Encoding.text w₂.chars ++
        ':'.toNat :: (utf8Encoding.text w₃.chars ++ out)))) := by
  apply Splices.behind
  apply Splices.behind
  apply Splices.behind
  apply Splices.cons
  exact h.behind _

mutual

theorem Cst.splices_typed (v : Cst) {p : Bool} {d i : Nat} (h : (v.found p d i).failures = []) :
    Splices i (utf8Encoding.text v.text) (v.found p d i).typed (utf8Encoding.text (v.typed p d).text) := by
  cases v with
  | null => exact splices_same ..
  | bool b => exact splices_same ..
  | str b =>
    simp only [Cst.found, strFound]
    split <;> exact splices_same ..
  | arr0 w => exact splices_same ..
  | obj0 w => exact splices_same ..
  | num n =>
    simp only [Cst.found, numFound, Cst.typed, Num.typed] at h ⊢
    by_cases hc : isCanonicalInteger n.tok = true
    · simp only [hc, Bool.not_true, Bool.false_eq_true, ite_false]
      by_cases hp : p = true ∧ (parseU32 n.tok).isNone = true
      · simp only [hp, and_self, ite_true]
        exact splices_whole ..
      · simp only [hp, ite_false]
        exact splices_same ..
    · simp only [hc, Bool.not_false, ite_true] at h
      cases h
  | arr es =>
    simp only [Cst.found, Found.append_failures, openFound_failures, List.nil_append] at h
    simp only [Cst.found, Found.append_typed, openFound_typed, List.nil_append, Cst.typed, Cst.text]
    rw [Encoding.text_cons_ascii _ (by decide), Encoding.text_cons_ascii _ (by decide)]
    exact (es.splices_typed h).cons _
  | obj ms =>
    simp only [Cst.found, Found.append_failures, openFound_failures, List.nil_append] at h
    simp only [Cst.found, Found.append_typed, openFound_typed, List.nil_append, Cst.typed, Cst.text]
    rw [Encoding.text_cons_ascii _ (by decide), Encoding.text_cons_ascii _ (by decide)]
    exact (ms.splices_typed h).cons _

theorem Items.splices_typed (es : Items) {p : Bool} {d i : Nat} (h : (es.found p d i).failures = []) :
    Splices i (utf8Encoding.text es.text) (es.found p d i).typed (utf8Encoding.text (es.typed p d).text) := by
  cases es with
  | last w₁ v w₂ =>
    simp only [Items.found, Items.typed, Items.text, Encoding.text_append] at h ⊢
    have hv := (v.splices_typed h).append (splices_same _ (utf8Encoding.text w₂.chars ++ utf8Encoding.text [']']))
    rw [List.append_nil] at hv
    exact hv.behind _
  | more w₁ v w₂ rest =>
    simp only [Items.found, Found.append_failures, List.append_eq_nil_iff] at h
    simp only [Items.found, Found.append_typed, Items.typed, Items.text, Encoding.text_append,
      Encoding.text_cons_ascii utf8Encoding (c := ',') (by decide)]
    have hr := ((rest.splices_typed h.2).cons ','.toNat).behind (utf8Encoding.text w₂.chars)
    exact ((v.splices_typed h.1).append hr).behind _

theorem Members.splices_typed (ms : Members) {p : Bool} {d i : Nat} {seen : List Text}
    (h : (ms.found p d seen i).failures = []) :
    Splices i (utf8Encoding.text ms.text) (ms.found p d seen i).typed (utf8Encoding.text (ms.typed p d).text) := by
  have hname : ∀ k j, (nameFound p d seen j k).typed = [] := by
    intro k j
    rw [nameFound]
    split
    · rfl
    · split <;> rfl
  cases ms with
  | last w₁ k w₂ w₃ v w₄ =>
    simp only [Members.found, Found.append_failures, List.append_eq_nil_iff] at h
    simp only [Members.found, Found.append_typed, hname, List.nil_append, Members.typed, Members.text, Encoding.text_append,
      Encoding.text_cons_ascii utf8Encoding (c := ':') (by decide)]
    have hv := (v.splices_typed h.2).append (splices_same _ (utf8Encoding.text w₄.chars ++ utf8Encoding.text ['}']))
    rw [List.append_nil] at hv
    exact splices_member w₁ k w₂ w₃ hv
  | more w₁ k w₂ w₃ v w₄ rest =>
    simp only [Members.found, Found.append_failures, List.append_eq_nil_iff] at h
    simp only [Members.found, Found.append_typed, hname, List.nil_append, Members.typed, Members.text, Encoding.text_append,
      Encoding.text_cons_ascii utf8Encoding (c := ':') (by decide), Encoding.text_cons_ascii utf8Encoding (c := ',') (by decide)]
    have hr := ((rest.splices_typed h.2).cons ','.toNat).behind (utf8Encoding.text w₄.chars)
    exact splices_member w₁ k w₂ w₃ ((v.splices_typed h.1.2).append hr)

end

/-! ## The envelope tree -/

/-- A container emptied, anything else as it is. -/
def Cst.hollowed : Cst → Cst
  | .arr0 _ | .arr _ => .arr0 .nil
  | .obj0 _ | .obj _ => .obj0 .nil
  | v => v

def hollowMember (k : List StrChar) (v : Cst) : Cst := if strValue k = some payloadKey then v.hollowed else v

def Members.hollowed : Members → Members
  | .last w₁ k w₂ w₃ v w₄ => .last w₁ k w₂ w₃ (hollowMember k v) w₄
  | .more w₁ k w₂ w₃ v w₄ rest => .more w₁ k w₂ w₃ (hollowMember k v) w₄ rest.hollowed

def Doc.hollowed (d : Doc) : Doc :=
  match d.value with
  | .obj ms => ⟨d.lead, .obj ms.hollowed, d.trail⟩
  | _ => d

theorem splices_hollowMember (k : List StrChar) (v : Cst) (i : Nat) : Splices i (utf8Encoding.text v.text)
    (v.envelope (strValue k == some payloadKey) i) (utf8Encoding.text (hollowMember k v).text) := by
  rw [Cst.envelope, hollowMember]
  by_cases hk : strValue k = some payloadKey
  · simp only [hk, beq_self_eq_true, ite_true]
    cases v with
    | arr0 w => exact splices_whole i (utf8Encoding.text (Cst.arr0 w).text) ['[', ']']
    | arr es => exact splices_whole i (utf8Encoding.text (Cst.arr es).text) ['[', ']']
    | obj0 w => exact splices_whole i (utf8Encoding.text (Cst.obj0 w).text) ['{', '}']
    | obj ms => exact splices_whole i (utf8Encoding.text (Cst.obj ms).text) ['{', '}']
    | _ => exact splices_same ..
  · simp only [hk, beq_eq_false_iff_ne.mpr hk, Bool.false_eq_true, ite_false]
    exact splices_same ..

theorem Members.splices_hollowed (ms : Members) (i : Nat) :
    Splices i (utf8Encoding.text ms.text) (ms.envelopes i) (utf8Encoding.text ms.hollowed.text) := by
  cases ms with
  | last w₁ k w₂ w₃ v w₄ =>
    simp only [Members.envelopes, Members.hollowed, Members.text, Encoding.text_append,
      Encoding.text_cons_ascii utf8Encoding (c := ':') (by decide)]
    have hv := (splices_hollowMember k v (valueOffset i w₁ k w₂ w₃)).append
      (splices_same _ (utf8Encoding.text w₄.chars ++ utf8Encoding.text ['}']))
    rw [List.append_nil] at hv
    exact splices_member w₁ k w₂ w₃ hv
  | more w₁ k w₂ w₃ v w₄ rest =>
    simp only [Members.envelopes, Members.hollowed, Members.text, Encoding.text_append,
      Encoding.text_cons_ascii utf8Encoding (c := ':') (by decide), Encoding.text_cons_ascii utf8Encoding (c := ',') (by decide)]
    have hr := ((rest.splices_hollowed (valueOffset i w₁ k w₂ w₃ + utf8Encoding.size v.text + utf8Encoding.size w₄.chars +
      1)).cons ','.toNat).behind (utf8Encoding.text w₄.chars)
    exact splices_member w₁ k w₂ w₃ ((splices_hollowMember k v (valueOffset i w₁ k w₂ w₃)).append hr)

/-! ## The two texts -/

/-- A value spliced between its white space. -/
theorem splices_doc (d : Doc) {rs : List (Nat × Nat × Text)} {v : Cst}
    (h : Splices (utf8Encoding.size d.lead.chars) (utf8Encoding.text d.value.text) rs (utf8Encoding.text v.text)) :
    unitsText (applyReplacements (utf8Encoding.text d.text) rs) = (Doc.mk d.lead v d.trail).text := by
  have hrest := h.append (splices_same _ (utf8Encoding.text d.trail.chars))
  rw [List.append_nil, ← Nat.zero_add (utf8Encoding.size d.lead.chars)] at hrest
  have hall := hrest.behind (utf8Encoding.text d.lead.chars)
  rw [← Encoding.text_append, ← Encoding.text_append, ← Encoding.text_append, ← Encoding.text_append] at hall
  rw [Doc.text, hall.result, unitsText_text]
  rfl

theorem typedText_doc (d : Doc) (h : d.value.Clean) : (scanJsonTokens d.text).typedText = d.typed.text := by
  rw [scanJsonTokens_doc]
  exact splices_doc d (d.value.splices_typed (d.value.found_clean.mpr h))

theorem envelopeText_doc (d : Doc) : (scanJsonTokens d.text).envelopeText = d.hollowed.text := by
  rw [scanJsonTokens_doc]
  obtain ⟨lead, v, trail⟩ := d
  cases v with
  | obj ms =>
    refine splices_doc ⟨lead, .obj ms, trail⟩ (v := .obj ms.hollowed) ?_
    simp only [Cst.text]
    rw [Encoding.text_cons_ascii _ (by decide), Encoding.text_cons_ascii _ (by decide)]
    exact (ms.splices_hollowed _).cons _
  | _ => exact splices_doc _ (splices_same ..)

end Aizign
