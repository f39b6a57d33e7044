import Aizign.JsonWrite

/-!
# The duplicate-member prepass

`has_duplicate_members` reads the line with its own visitor and stops at the
first error, so it finds a repeated name also in a text that is malformed
further on. `Cst.dup` is the same walk over a value that has been read;
`hasDuplicateMembers_doc` joins the two.
-/

namespace Aizign

variable [SerdeJson]

inductive DupStop
  | duplicate
  | other
  deriving DecidableEq

mutual

/-- Visits one value; `depth` is what is left of the recursion limit. -/
def dupValue : Nat → Nat → Text → Except DupStop Text
  | 0, _, _ => .error .other
  | _ + 1, _, [] => .error .other
  | n + 1, depth, c :: r =>
    if c = '{' then
      if depth ≤ 1 then .error .other
      else match dropWs r with
        | '}' :: r' => .ok r'
        | _ => dupMembers n (depth - 1) [] r
    else if c = '[' then
      if depth ≤ 1 then .error .other
      else match dropWs r with
        | ']' :: r' => .ok r'
        | _ => dupItems n (depth - 1) r
    else if c = '"' then
      match parseBody r with
      | some (b, r') => if (strValue b).isSome then .ok r' else .error .other
      | none => .error .other
    else if c = 't' then (expect ['r', 'u', 'e'] r).elim (.error .other) .ok
    else if c = 'f' then (expect ['a', 'l', 's', 'e'] r).elim (.error .other) .ok
    else if c = 'n' then (expect ['u', 'l', 'l'] r).elim (.error .other) .ok
    else match parseNum (c :: r) with
      | some (k, r') => if SerdeJson.outOfRange k.tok then .error .other else .ok r'
      | none => .error .other

def dupItems : Nat → Nat → Text → Except DupStop Text
  | 0, _, _ => .error .other
  | n + 1, depth, t => do
    let r ← dupValue n depth (dropWs t)
    match dropWs r with
    | ']' :: r' => .ok r'
    | ',' :: r' => dupItems n depth r'
    | _ => .error .other

def dupMembers : Nat → Nat → List Text → Text → Except DupStop Text
  | 0, _, _, _ => .error .other
  | n + 1, depth, seen, t =>
    match dropWs t with
    | '"' :: r₁ =>
      match parseBody r₁ with
      | none => .error .other
      | some (k, r₂) =>
        match strValue k with
        | none => .error .other
        | some name =>
          if name ∈ seen then .error .duplicate
          else match dropWs r₂ with
            | ':' :: r₃ => do
              let r₄ ← dupValue n depth (dropWs r₃)
              match dropWs r₄ with
              | '}' :: r₅ => .ok r₅
              | ',' :: r₅ => dupMembers n depth (name :: seen) r₅
              | _ => .error .other
            | _ => .error .other
    | _ => .error .other

end

def hasDuplicateMembers (line : Text) : Bool :=
  match dupValue (line.length + 1) recursionLimit (dropWs line) with
  | .error .duplicate => true
  | _ => false

/-! ## The walk over a read value -/

mutual

def Cst.dup : Nat → Cst → Except DupStop Unit
  | depth, .arr es => if depth ≤ 1 then .error .other else es.dup (depth - 1)
  | depth, .obj ms => if depth ≤ 1 then .error .other else ms.dup (depth - 1) []
  | depth, .arr0 _ => if depth ≤ 1 then .error .other else .ok ()
  | depth, .obj0 _ => if depth ≤ 1 then .error .other else .ok ()
  | _, .str b => if (strValue b).isSome then .ok () else .error .other
  | _, .num n => if SerdeJson.outOfRange n.tok then .error .other else .ok ()
  | _, .null => .ok ()
  | _, .bool _ => .ok ()

def Items.dup : Nat → Items → Except DupStop Unit
  | depth, .last _ v _ => v.dup depth
  | depth, .more _ v _ rest => do v.dup depth; rest.dup depth

def Members.dup : Nat → List Text → Members → Except DupStop Unit
  | depth, seen, .last _ k _ _ v _ =>
    match strValue k with
    | none => .error .other
    | some name => if name ∈ seen then .error .duplicate else v.dup depth
  | depth, seen, .more _ k _ _ v _ rest =>
    match strValue k with
    | none => .error .other
    | some name =>
      if name ∈ seen then .error .duplicate
      else do v.dup depth; rest.dup depth (name :: seen)

end

omit [SerdeJson] in
theorem Except.map_unit_bind {ε α β : Type} (x : Except ε Unit) (r : α) (f : α → Except ε β) :
    ((x.map fun _ => r) >>= f) = x >>= fun _ => f r := by
  cases x <;> rfl

theorem dupValue_num {m depth : Nat} (n : Num) {r : Text} (hr : Stops isNumChar r) :
    dupValue (m + 1) depth (n.tok ++ r) = ((Cst.num n).dup depth).map fun _ => r := by
  obtain ⟨c, t, h, hc⟩ := head_of_isNumber n.ok
  have hne : ∀ d : Char, d.isDigit = false → d ≠ '-' → c ≠ d := by
    intro d hd hm he
    subst he
    rcases hc with hc | hc
    · exact hm hc
    · rw [hd] at hc; cases hc
  have hp := parseNum_tok n hr
  rw [h] at hp ⊢
  rw [List.cons_append] at hp ⊢
  rw [dupValue]
  simp only [hne '{' (by decide) (by decide), hne '[' (by decide) (by decide), hne '"' (by decide) (by decide),
    hne 't' (by decide) (by decide), hne 'f' (by decide) (by decide), hne 'n' (by decide) (by decide), ite_false, hp,
    Cst.dup, h]
  split <;> rfl

mutual

theorem dupValue_text (v : Cst) : ∀ {n depth : Nat} {r : Text}, v.text.length ≤ n →
    (∀ k, v = .num k → Stops isNumChar r) → dupValue n depth (v.text ++ r) = (v.dup depth).map fun _ => r := by
  intro n depth r hn hr
  have hpos := v.length_pos
  obtain ⟨m, rfl⟩ : ∃ m, n = m + 1 := ⟨n - 1, by omega⟩
  cases v with
  | null => simp [Cst.text, dupValue, expect, Cst.dup, Except.map]
  | bool b => cases b <;> simp [Cst.text, dupValue, expect, Cst.dup, Except.map]
  | num k => exact dupValue_num k (hr k rfl)
  | str b =>
    simp only [Cst.text, strText, List.cons_append, List.append_assoc, List.nil_append, dupValue, parseBody_text, Cst.dup]
    simp only [show ('"' : Char) ≠ '{' by decide, show ('"' : Char) ≠ '[' by decide, ite_true, ite_false]
    split <;> rfl
  | arr0 w =>
    simp only [Cst.text, List.cons_append, List.append_assoc, dupValue, Cst.dup]
    simp only [dropWs_append w (stops_cons (c := ']') _ (by decide)), List.nil_append,
      show ('[' : Char) ≠ '{' by decide, ite_true, ite_false]
    split <;> rfl
  | obj0 w =>
    simp only [Cst.text, List.cons_append, List.append_assoc, dupValue, Cst.dup]
    simp only [dropWs_append w (stops_cons (c := '}') _ (by decide)), List.nil_append, ite_true]
    split <;> rfl
  | arr es =>
    simp only [Cst.text, List.length_cons] at hn
    rw [Cst.text, List.cons_append, dupValue, Cst.dup]
    simp only [show ('[' : Char) ≠ '{' by decide, ite_true, ite_false, dupItems_text es (show es.text.length ≤ m by omega)]
    split
    · rfl
    · split
      · rename_i h
        exact absurd h (dropWs_items_ne es r _)
      · rfl
  | obj ms =>
    simp only [Cst.text, List.length_cons] at hn
    rw [Cst.text, List.cons_append, dupValue, Cst.dup]
    simp only [ite_true, dupMembers_text ms (show ms.text.length ≤ m by omega)]
    split
    · rfl
    · split
      · rename_i h
        exact absurd h (dropWs_members_ne ms r _)
      · rfl

theorem dupItems_text (es : Items) : ∀ {n depth : Nat} {r : Text}, es.text.length ≤ n →
    dupItems n depth (es.text ++ r) = (es.dup depth).map fun _ => r := by
  intro n depth r hn
  cases es with
  | last w₁ v w₂ =>
    simp only [Items.text, List.length_append, List.length_cons, List.length_nil] at hn
    obtain ⟨m, rfl⟩ : ∃ m, n = m + 1 := ⟨n - 1, by omega⟩
    simp only [Items.text, List.append_assoc, List.cons_append, List.nil_append, dupItems, Items.dup]
    rw [dropWs_append w₁ (v.stops_text _),
      dupValue_text v (by omega) (fun _ _ => stops_of_ws_cons w₂ r (by decide)), Except.map_unit_bind]
    simp only [dropWs_append w₂ (stops_cons (c := ']') r (by decide))]
    cases v.dup depth <;> rfl
  | more w₁ v w₂ rest =>
    simp only [Items.text, List.length_append, List.length_cons] at hn
    obtain ⟨m, rfl⟩ : ∃ m, n = m + 1 := ⟨n - 1, by omega⟩
    simp only [Items.text, List.append_assoc, List.cons_append, dupItems, Items.dup]
    rw [dropWs_append w₁ (v.stops_text _),
      dupValue_text v (by omega) (fun _ _ => stops_of_ws_cons w₂ _ (by decide)), Except.map_unit_bind]
    simp only [dropWs_append w₂ (stops_cons (c := ',') _ (by decide)),
      dupItems_text rest (show rest.text.length ≤ m by omega)]
    cases v.dup depth <;> rfl

theorem dupMembers_text (ms : Members) : ∀ {n depth : Nat} {seen : List Text} {r : Text}, ms.text.length ≤ n →
    dupMembers n depth seen (ms.text ++ r) = (ms.dup depth seen).map fun _ => r := by
  intro n depth seen r hn
  cases ms with
  | last w₁ k w₂ w₃ v w₄ =>
    simp only [Members.text, List.length_append, List.length_cons, List.length_nil] at hn
    obtain ⟨m, rfl⟩ : ∃ m, n = m + 1 := ⟨n - 1, by omega⟩
    simp only [Members.text, strText, List.append_assoc, List.cons_append, List.nil_append, dupMembers, Members.dup]
    simp only [dropWs_append w₁ (stops_cons (c := '"') _ (by decide)), parseBody_text,
      dropWs_append w₂ (stops_cons (c := ':') _ (by decide))]
    rw [dropWs_append w₃ (v.stops_text _), dupValue_text v (by omega) (fun _ _ => stops_of_ws_cons w₄ _ (by decide))]
    simp only [Except.map_unit_bind, dropWs_append w₄ (stops_cons (c := '}') _ (by decide))]
    split
    · rfl
    · split
      · rfl
      · cases v.dup depth <;> rfl
  | more w₁ k w₂ w₃ v w₄ rest =>
    simp only [Members.text, List.length_append, List.length_cons] at hn
    obtain ⟨m, rfl⟩ : ∃ m, n = m + 1 := ⟨n - 1, by omega⟩
    simp only [Members.text, strText, List.append_assoc, List.cons_append, List.nil_append, dupMembers, Members.dup]
    simp only [dropWs_append w₁ (stops_cons (c := '"') _ (by decide)), parseBody_text,
      dropWs_append w₂ (stops_cons (c := ':') _ (by decide))]
    rw [dropWs_append w₃ (v.stops_text _), dupValue_text v (by omega) (fun _ _ => stops_of_ws_cons w₄ _ (by decide))]
    simp only [Except.map_unit_bind, dropWs_append w₄ (stops_cons (c := ',') _ (by decide))]
    split
    · rfl
    · split
      · rfl
      · rw [dupMembers_text rest (show rest.text.length ≤ m by omega)]
        cases v.dup depth <;> rfl

end

/-- On a text that reads as a JSON value the prepass is the walk over that value. -/
theorem hasDuplicateMembers_doc (d : Doc) :
    hasDuplicateMembers d.text = decide (d.value.dup recursionLimit = .error .duplicate) := by
  obtain ⟨w₁, v, w₂⟩ := d
  have hs : Stops isNumChar w₂.chars := by simpa using stops_ws_append w₂ (stops_nil _)
  simp only [hasDuplicateMembers, Doc.text]
  rw [dropWs_append w₁ (v.stops_text _), dupValue_text v (by simp; omega) (fun _ _ => hs)]
  cases h : v.dup recursionLimit with
  | ok u => simp [Except.map]
  | error e => cases e <;> simp [Except.map]

/-! ## Written values repeat no member -/

def Cst.NoDup (v : Cst) : Prop := ∀ depth, v.dup depth ≠ .error .duplicate

theorem noDup_jsonNat (n : Nat) : (jsonNat n).NoDup := by
  intro depth h
  rw [jsonNat, Cst.dup] at h
  split at h <;> cases h

theorem noDup_str (b : List StrChar) : (Cst.str b).NoDup := by
  intro depth h
  rw [Cst.dup] at h
  split at h <;> cases h

theorem noDup_jsonMembers {m : Text × Cst} {ms : List (Text × Cst)} {seen : List Text} (depth : Nat)
    (hn : ((m :: ms).map Prod.fst).Nodup) (hs : ∀ x ∈ m :: ms, x.1 ∉ seen) (hv : ∀ x ∈ m :: ms, x.2.NoDup) :
    (jsonMembers m ms).dup depth seen ≠ .error .duplicate := by
  induction ms generalizing m seen with
  | nil =>
    simp only [jsonMembers, Members.dup, strValue_jsonBody, hs m (by simp), ite_false]
    exact hv m (by simp) depth
  | cons m' ms ih =>
    simp only [jsonMembers, Members.dup, strValue_jsonBody, hs m (by simp), ite_false]
    intro h
    cases hm : m.2.dup depth with
    | error e =>
      rw [hm] at h
      exact hv m (by simp) depth (hm.trans (by simpa [bind, Except.bind] using h))
    | ok u =>
      rw [hm] at h
      rw [List.map_cons, List.nodup_cons] at hn
      refine ih hn.2 ?_ (fun x hx => hv x (by simp [hx])) h
      intro x hx hmem
      rcases List.mem_cons.mp hmem with he | hmem
      · exact hn.1 (he ▸ List.mem_map.mpr ⟨x, hx, rfl⟩)
      · exact hs x (List.mem_cons_of_mem _ hx) hmem

theorem noDup_jsonObject {ms : List (Text × Cst)} (hn : (ms.map Prod.fst).Nodup) (hv : ∀ x ∈ ms, x.2.NoDup) :
    (jsonObject ms).NoDup := by
  intro depth h
  rcases ms with _ | ⟨m, ms⟩
  · rw [jsonObject, Cst.dup] at h
    split at h <;> cases h
  · rw [jsonObject, Cst.dup] at h
    split at h
    · cases h
    · exact noDup_jsonMembers _ hn (by simp) hv h

omit [SerdeJson] in
theorem presentMembers_nodup {fs : List Field} {vs : List (Option Cst)} (hn : (fieldNames fs).Nodup) :
    ((presentMembers fs vs).map Prod.fst).Nodup := by
  induction fs generalizing vs with
  | nil => simp [presentMembers]
  | cons f fs ih =>
    have hn' := List.nodup_cons.mp hn
    rcases vs with _ | ⟨_ | v, vs⟩
    · simp [presentMembers]
    · exact ih hn'.2
    · rw [presentMembers, List.map_cons, List.nodup_cons]
      refine ⟨?_, ih hn'.2⟩
      intro h
      obtain ⟨m, hm, he⟩ := List.mem_map.mp h
      exact hn'.1 ((show m.1 = f.name from he) ▸ mem_presentMembers hm)

theorem noDup_jsonStruct {fs : List Field} {vs : List (Option Cst)} (hn : (fieldNames fs).Nodup)
    (hv : ∀ v, some v ∈ vs → v.NoDup) : (jsonStruct fs vs).NoDup :=
  noDup_jsonObject (presentMembers_nodup hn) fun _ hx => hv _ (snd_mem_of_presentMembers hx)

theorem hasDuplicateMembers_of_noDup {v : Cst} (h : v.NoDup) : hasDuplicateMembers v.text = false := by
  rw [← v.doc_text, hasDuplicateMembers_doc]
  exact decide_eq_false (h _)

end Aizign
