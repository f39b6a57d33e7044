import Aizign.CommitLanguage
import Aizign.RecordStream
import Aizign.SignalTs

/-!
# Journal records: the accepted lines

The language of the record schema, as a relation between the spelling of a line
and the record it holds. `decode_line` reads every line of it, and the lines in
which a nested place is written in the other form that a derived `Deserialize`
takes: an array of fields for the signal or the digest, an object with the one
member `null` for a variant.
-/

namespace Aizign

/-! ## Two forms of a place -/

inductive Form
  | schema
  | derived
  deriving DecidableEq

/-- An object with exactly its present members; otherwise the array of its fields, up to the last present one. -/
def Form.Struct (fs : List Field) (vs : List (Option Cst)) (c : Cst) : Form → Prop
  | .schema => c.HasMembers (presentMembers fs vs)
  | .derived => ∃ cs k, c.elements? = some cs ∧ vs = cs.map some ++ List.replicate k none

def Cst.IsString (c : Cst) (t : Text) : Prop := ∃ b, c = .str b ∧ strValue b = some t

/-- The string of its name; otherwise an object whose one member has that name and is `null`. -/
def Form.Variant (name : Text) (c : Cst) : Form → Prop
  | .schema => c.IsString name
  | .derived => c.HasMembers [(name, .null)]

/-! ## Structs -/

section
variable {fs : List Field} {vs : List (Option Cst)} {c : Cst} (hn : (fieldNames fs).Nodup)
  (hl : vs.length = fs.length) (hr : ∀ p ∈ fs.zip vs, p.1.default = false → p.2.isSome)

theorem mem_presentMembers_map {f : Field} {g : Field → Option Cst} (hf : f ∈ fs) {v : Cst} (hv : g f = some v) :
    (f.name, v) ∈ presentMembers fs (fs.map g) := by
  induction fs with
  | nil => cases hf
  | cons f' fs ih =>
    rw [List.map_cons]
    rcases List.mem_cons.mp hf with rfl | hf
    · rw [hv]
      exact List.mem_cons_self ..
    · cases g f' with
      | none => exact ih hf
      | some w => exact List.mem_cons_of_mem _ (ih hf)

include hn in
/-- What a closed struct reads from an object are the members of the object. -/
theorem perm_of_deMap {ns : List (Text × Cst)} (h : deMap fs true ns = .ok vs) : ns.Perm (presentMembers fs vs) := by
  obtain ⟨hk, hd, -, rfl⟩ := deMap_eq_ok.mp h
  have hnn := nodup_of_filter_name (hk rfl) hd
  have hpn : ((presentMembers fs (fs.map fun f => lookupMember ns f.name)).map Prod.fst).Nodup := presentMembers_nodup hn
  rw [List.perm_ext_iff_of_nodup hnn.of_map hpn.of_map]
  rintro ⟨n, c⟩
  constructor
  · intro hm
    obtain ⟨f, hf, hfn⟩ := List.mem_map.mp (hk rfl _ hm)
    simp only at hfn
    subst hfn
    exact mem_presentMembers_map (g := fun f => lookupMember ns f.name) hf (lookupMember_of_mem hnn hm)
  · intro hm
    obtain ⟨f, hf, hfn⟩ := List.mem_map.mp (mem_presentMembers hm)
    simp only at hfn
    subst hfn
    have hlook := lookupMember_of_mem hpn hm
    have hall : (fs.map fun f => lookupMember (presentMembers fs (fs.map fun f => lookupMember ns f.name)) f.name) =
        fs.map fun f => lookupMember ns f.name := lookup_presentMembers hn (by simp)
    exact mem_of_lookupMember ((List.map_inj_left.mp hall f hf).symm.trans hlook)

include hn hl hr

theorem deMap_of_perm {ns : List (Text × Cst)} (h : ns.Perm (presentMembers fs vs)) : deMap fs true ns = .ok vs := by
  have hd := deStruct_jsonStruct true hn hl hr
  rw [jsonStruct, deStruct_jsonObject] at hd
  exact deMap_perm (presentMembers_nodup hn) h hd

/-- A closed struct is read from its two forms. -/
theorem deStruct_iff : deStruct fs true c = .ok vs ↔ ∃ form : Form, form.Struct fs vs c := by
  constructor
  · intro h
    unfold deStruct at h
    cases hm : c.members? with
    | some ms =>
      rw [hm] at h
      obtain ⟨ns, hns, hd⟩ := bind_eq_ok.mp h
      exact ⟨.schema, ms, ns, hm, hns, perm_of_deMap hn hd⟩
    | none =>
      simp only [hm] at h
      cases he : c.elements? with
      | none => simp [he] at h
      | some cs =>
        simp only [he, deSeq] at h
        split at h
        · cases h
        · split at h
          · cases h
          · refine ⟨.derived, cs, fs.length - cs.length, he, ?_⟩
            rw [← Except.ok.inj h, List.map_const', List.length_drop]
  · rintro ⟨form | form, h⟩
    · obtain ⟨ms, ns, hm, hns, hp⟩ := h
      simp only [deStruct, hm]
      exact bind_eq_ok.mpr ⟨ns, hns, deMap_of_perm hn hl hr hp⟩
    · obtain ⟨cs, k, he, rfl⟩ := h
      have hm := Cst.members_of_elements he
      have hlen : cs.length + k = fs.length := by simpa using hl
      have hdef : ∀ f ∈ fs.drop cs.length, f.default = true := by
        intro f hf
        obtain ⟨i, hi, rfl⟩ := List.getElem_of_mem hf
        rw [List.getElem_drop]
        by_contra hne
        rw [List.length_drop] at hi
        have hz : (fs[cs.length + i], (none : Option Cst)) ∈ fs.zip (cs.map some ++ List.replicate k none) := by
          rw [List.mem_iff_getElem]
          refine ⟨cs.length + i, by simp; omega, ?_⟩
          simp [List.getElem_append_right]
        simpa using hr _ hz (by simpa using hne)
      have hany : ((fs.drop cs.length).any fun f => !f.default) = false := by
        rw [List.any_eq_false]
        intro f hf
        simp [hdef f hf]
      simp only [deStruct, hm, he, deSeq, if_neg (show ¬fs.length < cs.length by omega), hany]
      rw [List.map_const', List.length_drop, show fs.length - cs.length = k by omega]
      rfl

theorem Form.Struct.unique {form form' : Form} {vs' : List (Option Cst)} (h : form.Struct fs vs c)
    (hl' : vs'.length = fs.length) (hr' : ∀ p ∈ fs.zip vs', p.1.default = false → p.2.isSome)
    (h' : form'.Struct fs vs' c) : form = form' ∧ vs = vs' := by
  have hd := (deStruct_iff hn hl hr).mpr ⟨form, h⟩
  have hd' := (deStruct_iff hn hl' hr').mpr ⟨form', h'⟩
  refine ⟨?_, Except.ok.inj (hd.symm.trans hd')⟩
  have hexcl : ∀ {vs vs' : List (Option Cst)}, Form.Struct fs vs c .schema → Form.Struct fs vs' c .derived → False := by
    rintro vs vs' ⟨ms, ns, hm, -⟩ ⟨cs, k, he, -⟩
    rw [Cst.members_of_elements he] at hm
    cases hm
  cases form <;> cases form'
  · rfl
  · exact (hexcl h h').elim
  · exact (hexcl h' h).elim
  · rfl

end

/-! ## Leaves -/

theorem deString_iff {c : Cst} {t : Text} : deString c = .ok t ↔ c.IsString t := by
  refine ⟨body_of_deString, ?_⟩
  rintro ⟨b, rfl, hb⟩
  rw [deString, hb]; rfl

/-- A JSON number written with digits only has no leading zeros. -/
theorem canonical_of_isNumber {tok : Text} (h : isNumber tok = true) (hd : tok.all Char.isDigit = true) :
    noncanonicalToken tok = false := by
  cases tok with
  | nil => cases h
  | cons c r =>
    rw [List.all_cons, Bool.and_eq_true] at hd
    by_cases hc : c = '0'
    · subst hc
      cases r with
      | nil => rfl
      | cons d r =>
        -- a digit after the zero belongs to neither a fraction nor an exponent
        have hdig : d.isDigit = true := (Bool.and_eq_true .. ▸ List.all_cons .. ▸ hd.2 : _ ∧ _).1
        have hdot : d ≠ '.' := by rintro rfl; cases hdig
        have he : ¬(d = 'e' ∨ d = 'E') := by rintro (rfl | rfl) <;> cases hdig
        have hf : fracPart (d :: r) = some (d :: r) := by
          unfold fracPart
          split
          · rename_i heq
            exact absurd (List.cons.inj heq).1 hdot
          · rfl
        simp [isNumber, dropMinus, intPart, hf, expPart, he] at h
    · have hany : (c :: r).any (fun x => !x.isDigit) = false := by
        rw [List.any_eq_false]
        intro x hx
        rcases List.mem_cons.mp hx with rfl | hx
        · simp [hd.1]
        · simp [List.all_eq_true.mp hd.2 x hx]
      unfold noncanonicalToken
      rw [hany]
      simp [isNonzeroDigit, hd.1, hc]

theorem deUnsigned_iff {max k : Nat} {c : Cst} : deUnsigned max c = .ok k ↔ c = jsonNat k ∧ k ≤ max := by
  constructor
  · intro h
    refine jsonNat_of_deUnsigned ?_ h
    cases c with
    | num n =>
      cases hk : natToken n.tok with
      | none => simp [deUnsigned, hk] at h
      | some j =>
        unfold natToken at hk
        split at hk
        · rename_i hall
          rw [Bool.and_eq_true] at hall
          simp [Cst.canonical, canonical_of_isNumber n.ok hall.1]
        · cases hk
    | _ => simp [deUnsigned] at h
  · rintro ⟨rfl, hk⟩
    exact deUnsigned_jsonNat hk

theorem deU32_iff {c : Cst} {n : UInt32} : deU32 c = .ok n ↔ c = jsonNat n.toNat := by
  constructor
  · intro h
    cases hk : deUnsigned u32Max c with
    | error e => rw [deU32, hk] at h; cases h
    | ok k =>
      obtain ⟨rfl, hle⟩ := deUnsigned_iff.mp hk
      rw [deU32, hk] at h
      cases h
      rw [UInt32.toNat_ofNat', Nat.mod_eq_of_lt (by simp only [u32Max] at hle; omega)]
  · rintro rfl
    exact deU32_jsonNat n

section
variable [SerdeJson] {depth : Nat}

theorem rejectNull_eq_ok {α : Type} {d : De α} {c : Cst} {o : Option α} : rejectNull depth d c = .ok o ↔
    deValue depth c = .ok () ∧ c ≠ .null ∧ ∃ a, d c = .ok a ∧ o = some a := by
  unfold rejectNull
  rw [bind_eq_ok]
  constructor
  · rintro ⟨⟨⟩, hv, h⟩
    refine ⟨hv, ?_⟩
    split at h
    · cases h
    · rename_i hne
      refine ⟨hne, ?_⟩
      cases hd : d c with
      | error e => rw [hd] at h; cases h
      | ok a => rw [hd] at h; cases h; exact ⟨a, rfl, rfl⟩
  · rintro ⟨hv, hne, a, ha, rfl⟩
    refine ⟨(), hv, ?_⟩
    split
    · exact absurd rfl hne
    · rw [ha]; rfl

theorem optional_u32_iff {x : Option Cst} {o : Option UInt32} : optional (rejectNull depth deU32) x = .ok o ↔
    x = o.map fun n => jsonNat n.toNat := by
  constructor
  · intro h
    cases x with
    | none => cases h; rfl
    | some c =>
      obtain ⟨-, -, n, hn, rfl⟩ := rejectNull_eq_ok.mp h
      rw [deU32_iff.mp hn]; rfl
  · rintro rfl
    exact optional_map (rejectNull_u32 depth) o

theorem optional_string_iff {x : Option Cst} {o : Option Text} : optional (rejectNull depth deString) x = .ok o ↔
    Option.Rel Cst.IsString x o := by
  constructor
  · intro h
    cases x with
    | none => cases h; exact .none
    | some c =>
      obtain ⟨-, -, t, ht, rfl⟩ := rejectNull_eq_ok.mp h
      exact .some (deString_iff.mp ht)
  · rintro (⟨b, rfl, hb⟩ | _)
    · refine rejectNull_eq_ok.mpr ⟨?_, nofun, _, deString_iff.mpr ⟨b, rfl, hb⟩, rfl⟩
      rw [deValue, hb]; rfl
    · rfl

end

/-! ## Variants -/

theorem hasMembers_singleton {c v : Cst} {n : Text} : c.HasMembers [(n, v)] ↔
    ∃ w₁ k w₂ w₃ w₄, c = .obj (.last w₁ k w₂ w₃ v w₄) ∧ strValue k = some n := by
  constructor
  · rintro ⟨ms, ns, hm, hns, hp⟩
    obtain rfl := List.perm_singleton.mp hp
    cases c with
    | obj0 w => cases hm; cases hns
    | obj ms' =>
      cases hm
      cases ms' with
      | last w₁ k w₂ w₃ v' w₄ =>
        obtain ⟨n', rest, hk, hrest, he⟩ := memberNames_cons.mp hns
        cases he
        exact ⟨w₁, k, w₂, w₃, w₄, rfl, hk⟩
      | more w₁ k w₂ w₃ v' w₄ more =>
        obtain ⟨n', rest, hk, hrest, he⟩ := memberNames_cons.mp hns
        cases he
        cases more <;> obtain ⟨_, _, _, _, hnil⟩ := memberNames_cons.mp hrest <;> cases hnil
    | _ => cases hm
  · rintro ⟨w₁, k, w₂, w₃, w₄, rfl, hk⟩
    exact ⟨[(k, v)], [(n, v)], rfl, memberNames_cons.mpr ⟨n, [], hk, rfl, rfl⟩, .refl _⟩

theorem deVariant_iff {names : List Text} {c : Cst} {i : Nat} : deVariant names c = .ok i ↔
    ∃ (form : Form) (name : Text), form.Variant name c ∧ name ∈ names ∧ i = names.idxOf name := by
  constructor
  · intro h
    unfold deVariant at h
    split at h
    · rename_i b
      cases hb : strValue b with
      | none => simp [hb] at h
      | some name =>
        simp only [hb] at h
        split at h
        · rename_i hmem
          exact ⟨.schema, name, ⟨b, rfl, hb⟩, hmem, (Except.ok.inj h).symm⟩
        · cases h
    · rename_i w₁ k w₂ w₃ v w₄
      cases hk : strValue k with
      | none => simp [hk] at h
      | some name =>
        simp only [hk] at h
        by_cases hmem : name ∈ names
        · rw [if_pos hmem] at h
          cases v with
          | null => exact ⟨.derived, name, hasMembers_singleton.mpr ⟨w₁, k, w₂, w₃, w₄, rfl, hk⟩, hmem, (Except.ok.inj h).symm⟩
          | _ => cases h
        · rw [if_neg hmem] at h
          cases h
    · cases h
    · cases h
  · rintro ⟨form | form, name, h, hmem, rfl⟩
    · obtain ⟨b, rfl, hb⟩ := h
      simp only [deVariant, hb, if_pos hmem]
    · obtain ⟨w₁, k, w₂, w₃, w₄, rfl, hk⟩ := hasMembers_singleton.mp h
      simp only [deVariant, hk, if_pos hmem]

theorem deEnum_iff {α : Type} {all : List α} {wire : α → Text} (ha : ∀ a, a ∈ all) (hw : Function.Injective wire) {c : Cst}
    {a : α} : deEnum all wire c = .ok a ↔ ∃ form : Form, form.Variant (wire a) c := by
  -- the variant at the index of a name has that name
  have hidx : ∀ name ∈ all.map wire, (all[(all.map wire).idxOf name]?).map wire = some name := by
    intro name hname
    rw [← List.getElem?_map, List.getElem?_eq_getElem (List.idxOf_lt_length_iff.mpr hname), List.getElem_idxOf]
  unfold deEnum
  rw [bind_eq_ok]
  constructor
  · rintro ⟨i, hi, h⟩
    obtain ⟨form, name, hv, hname, rfl⟩ := deVariant_iff.mp hi
    have hn := hidx name hname
    split at h
    · rename_i b hb
      cases h
      rw [hb] at hn
      exact ⟨form, (Option.some.inj hn) ▸ hv⟩
    · cases h
  · rintro ⟨form, hv⟩
    have hmem : wire a ∈ all.map wire := List.mem_map.mpr ⟨a, ha a, rfl⟩
    refine ⟨_, deVariant_iff.mpr ⟨form, wire a, hv, hmem, rfl⟩, ?_⟩
    obtain ⟨b, hb, hba⟩ := Option.map_eq_some_iff.mp (hidx (wire a) hmem)
    rw [hb, hw hba]

theorem deRole_iff {c : Cst} {r : Role} : deRole c = .ok r ↔ ∃ form : Form, form.Variant r.wire c :=
  deEnum_iff (by intro r; cases r <;> decide) (by intro r r'; cases r <;> cases r' <;> decide)

theorem deKind_iff {c : Cst} {k : SignalKind} : deKind c = .ok k ↔ ∃ form : Form, form.Variant k.wire c :=
  deEnum_iff (by intro k; cases k <;> decide) (by intro k k'; cases k <;> cases k' <;> decide)

theorem deAlgorithm_iff {c : Cst} {a : DigestAlgorithm} : deAlgorithm c = .ok a ↔ ∃ form : Form, form.Variant a.wire c :=
  deEnum_iff (by intro a; cases a; decide) (by intro a a'; cases a; cases a'; decide)

theorem Form.Variant.unique {form form' : Form} {name name' : Text} {c : Cst} (h : form.Variant name c)
    (h' : form'.Variant name' c) : form = form' := by
  have hexcl : ∀ {name name' : Text}, Form.Variant name c .schema → Form.Variant name' c .derived → False := by
    rintro name name' ⟨b, rfl, -⟩ ⟨ms, ns, hm, -⟩
    cases hm
  cases form <;> cases form'
  · rfl
  · exact (hexcl h h').elim
  · exact (hexcl h' h).elim
  · rfl

/-! ## The record -/

/-- The form of each place inside a record that has two. -/
structure Forms where
  signal : Form
  role : Form
  candidateDigest : Form
  algorithm : Form
  kind : Form
  deriving DecidableEq

def Forms.schema : Forms := ⟨.schema, .schema, .schema, .schema, .schema⟩

def DigestDto.Spelled (f : Forms) (d : DigestDto) (c : Cst) : Prop :=
  ∃ a h, f.candidateDigest.Struct digestFields [some a, some h] c ∧ f.algorithm.Variant d.algorithm.wire a ∧ h.IsString d.hex

def SignalDto.Spelled (f : Forms) (s : SignalDto) (c : Cst) : Prop :=
  ∃ e w a t r v d k x y, f.signal.Struct signalFields [some e, some w, some a, some t, some r, some v, some d, some k,
      s.findingCount.map fun n => jsonNat n.toNat, x, y] c ∧
    e.IsString s.eventId ∧ w.IsString s.workflowId ∧ a.IsString s.assignmentId ∧ t.IsString s.attemptId ∧
    f.role.Variant s.role.wire r ∧ v.IsString s.artifactRevision ∧ s.candidateDigest.Spelled f d ∧
    f.kind.Variant s.kind.wire k ∧ Option.Rel Cst.IsString x s.artifactRef ∧ Option.Rel Cst.IsString y s.shortErrorCode

def RecordDto.Spelled (f : Forms) (r : RecordDto) (c : Cst) : Prop :=
  ∃ k g, Form.schema.Struct recordFields [some (jsonNat r.schemaVersion), some (jsonNat r.seq), some (jsonNat r.at), some k,
      some g] c ∧ k.IsString r.kind ∧ r.signal.Spelled f g

/-- The conditional rules of the schema on a signal. -/
def SignalDto.Conditions (s : SignalDto) : Prop :=
  match s.kind with
  | .implementationReady =>
    s.role = .implementation ∧ s.findingCount = none ∧ s.artifactRef = none ∧ s.shortErrorCode = none
  | .reviewFindings => s.role = .review ∧ (∃ n, s.findingCount = some n ∧ 1 ≤ n.toNat) ∧ s.shortErrorCode = none
  | .reviewPassed => s.role = .review ∧ s.findingCount = some 0 ∧ s.artifactRef = none ∧ s.shortErrorCode = none
  | .repairSubmitted =>
    s.role = .implementation ∧ (∃ n, s.findingCount = some n ∧ 1 ≤ n.toNat) ∧ s.artifactRef.isSome ∧ s.shortErrorCode = none
  | .blocked => s.shortErrorCode.isSome ∧ s.findingCount = none ∧ s.artifactRef = none

structure SignalDto.Schema (s : SignalDto) : Prop where
  eventId : identifierPattern (codes s.eventId) = true
  workflowId : identifierPattern (codes s.workflowId) = true
  assignmentId : identifierPattern (codes s.assignmentId) = true
  attemptId : identifierPattern (codes s.attemptId) = true
  artifactRevision : identifierPattern (codes s.artifactRevision) = true
  hex : sha256HexPattern (codes s.candidateDigest.hex) = true
  artifactRef : ∀ t ∈ s.artifactRef, artifactRefPattern (codes t) = true
  shortErrorCode : ∀ t ∈ s.shortErrorCode, shortErrorCodePattern (codes t) = true
  conditions : s.Conditions

structure RecordDto.Schema (r : RecordDto) : Prop where
  schemaVersion : r.schemaVersion = 1
  seq : 1 ≤ r.seq ∧ r.seq ≤ 10000
  «at» : 1577836800 ≤ r.at ∧ r.at ≤ 4102444800
  kind : r.kind = "workflow.signal.accepted".toList
  signal : r.signal.Schema

/-- The lines that hold a record of the schema, in the given forms; `Forms.schema` is the published language. -/
def IsRecord (f : Forms) (line : Text) : Prop :=
  ∃ (d : Doc) (r : RecordDto), d.text = line ∧ r.Spelled f d.value ∧ r.Schema

/-! ## What the decoders read -/

theorem DigestDto.de_iff {d : DigestDto} {c : Cst} : DigestDto.de c = .ok d ↔ ∃ f : Forms, d.Spelled f c := by
  have hs : ∀ {a h : Cst}, deStruct digestFields true c = .ok [some a, some h] ↔
      ∃ form : Form, form.Struct digestFields [some a, some h] c :=
    deStruct_iff digestFields_nodup rfl (by simp [digestFields])
  constructor
  · intro h
    obtain ⟨vs, hvs, h⟩ := bind_eq_ok.mp h
    split at h
    · rename_i a x
      simp only [bind_eq_ok] at h
      obtain ⟨algorithm, ha, hex, hx, h⟩ := h
      cases h
      obtain ⟨fa, ha⟩ := deAlgorithm_iff.mp ha
      obtain ⟨fd, hd⟩ := hs.mp hvs
      exact ⟨⟨.schema, .schema, fd, fa, .schema⟩, a, x, hd, ha, deString_iff.mp hx⟩
    · cases h
  · rintro ⟨f, a, x, hd, ha, hx⟩
    refine bind_eq_ok.mpr ⟨_, hs.mpr ⟨_, hd⟩, ?_⟩
    simp only [bind_eq_ok]
    exact ⟨_, deAlgorithm_iff.mpr ⟨_, ha⟩, _, deString_iff.mpr hx, rfl⟩

theorem SignalDto.de_iff [SerdeJson] {s : SignalDto} {c : Cst} : SignalDto.de c = .ok s ↔ ∃ f : Forms, s.Spelled f c := by
  have hs : ∀ {e w a t r v d k : Cst} {z x y : Option Cst},
      deStruct signalFields true c = .ok [some e, some w, some a, some t, some r, some v, some d, some k, z, x, y] ↔
        ∃ form : Form, form.Struct signalFields [some e, some w, some a, some t, some r, some v, some d, some k, z, x, y] c :=
    deStruct_iff signalFields_nodup rfl (by simp [signalFields])
  constructor
  · intro h
    obtain ⟨vs, hvs, h⟩ := bind_eq_ok.mp h
    split at h
    · rename_i e w a t r v d k z x y
      simp only [bind_eq_ok] at h
      obtain ⟨_, he, _, hw, _, ha, _, ht, _, hr, _, hv, _, hd, _, hk, _, hz, _, hx, _, hy, h⟩ := h
      cases h
      obtain rfl := optional_u32_iff.mp hz
      obtain ⟨fs, hs⟩ := hs.mp hvs
      obtain ⟨fr, hr⟩ := deRole_iff.mp hr
      obtain ⟨fk, hk⟩ := deKind_iff.mp hk
      obtain ⟨fd, hd⟩ := DigestDto.de_iff.mp hd
      exact ⟨⟨fs, fr, fd.candidateDigest, fd.algorithm, fk⟩, e, w, a, t, r, v, d, k, x, y, hs, deString_iff.mp he,
        deString_iff.mp hw, deString_iff.mp ha, deString_iff.mp ht, hr, deString_iff.mp hv, hd, hk,
        optional_string_iff.mp hx, optional_string_iff.mp hy⟩
    · cases h
  · rintro ⟨f, e, w, a, t, r, v, d, k, x, y, hf, he, hw, ha, ht, hr, hv, hd, hk, hx, hy⟩
    refine bind_eq_ok.mpr ⟨_, hs.mpr ⟨_, hf⟩, ?_⟩
    simp only [bind_eq_ok]
    exact ⟨_, deString_iff.mpr he, _, deString_iff.mpr hw, _, deString_iff.mpr ha, _, deString_iff.mpr ht,
      _, deRole_iff.mpr ⟨_, hr⟩, _, deString_iff.mpr hv, _, DigestDto.de_iff.mpr ⟨f, hd⟩, _, deKind_iff.mpr ⟨_, hk⟩,
      _, optional_u32_iff.mpr rfl, _, optional_string_iff.mpr hx, _, optional_string_iff.mpr hy, rfl⟩

/-! ## What the values satisfy -/

theorem one_le_toNat {n : UInt32} : 1 ≤ n.toNat ↔ ¬n = 0 := by
  rw [← UInt32.toNat_inj, UInt32.toNat_zero]
  omega

theorem signalRules_dto (p : SignalParts) : signalRules p = .ok () ↔ p.dto.Conditions := by
  rw [signalRules_eq_ok]
  obtain ⟨_, _, _, _, r, _, _, k, z, x, y⟩ := p
  cases k <;> cases z <;> cases x <;> cases y <;>
    simp [SignalDto.Conditions, SignalParts.dto, checkRole, SignalKind.requiredRole, checkFindingCount, checkArtifactRef,
      checkShortErrorCode, one_le_toNat, eq_comm]

theorem exists_map_iff {α β : Type} {f : α → β} {P : β → Prop} (h : ∀ b, P b ↔ ∃ a, f a = b) (o : Option β) :
    (∃ x : Option α, x.map f = o) ↔ ∀ b ∈ o, P b := by
  cases o with
  | none => simp
  | some b =>
    constructor
    · rintro ⟨x, hx⟩ b' hb'
      cases hb'
      obtain ⟨a, -, ha⟩ := Option.map_eq_some_iff.mp hx
      exact (h b).mpr ⟨a, ha⟩
    · intro hb
      obtain ⟨a, ha⟩ := (h b).mp (hb b rfl)
      exact ⟨some a, congrArg some ha⟩

theorem identifierPattern_codes {t : Text} : identifierPattern (codes t) = true ↔ ∃ x : Identifier identifierMaxLen, x.value = t := by
  rw [identifierPattern_iff]
  exact exists_congr fun x => codes_inj.trans eq_comm

theorem artifactRefPattern_codes {t : Text} : artifactRefPattern (codes t) = true ↔ ∃ x : ArtifactRef, x.value = t := by
  rw [artifactRefPattern_iff]
  exact exists_congr fun x => codes_inj.trans eq_comm

theorem shortErrorCodePattern_codes {t : Text} : shortErrorCodePattern (codes t) = true ↔ ∃ x : ShortErrorCode, x.value = t := by
  rw [shortErrorCodePattern_iff]
  exact exists_congr fun x => codes_inj.trans eq_comm

theorem sha256HexPattern_codes {t : Text} : sha256HexPattern (codes t) = true ↔ ∃ x : Digest, x.hex = t := by
  rw [sha256HexPattern_iff]
  exact exists_congr fun x => codes_inj.trans eq_comm

/-- The values the schema lets a signal have are those of the core's validated parts. -/
theorem SignalDto.schema_iff {s : SignalDto} : s.Schema ↔ ∃ p : SignalParts, p.dto = s ∧ signalRules p = .ok () := by
  constructor
  · intro h
    obtain ⟨eventId, he⟩ := identifierPattern_codes.mp h.eventId
    obtain ⟨workflowId, hw⟩ := identifierPattern_codes.mp h.workflowId
    obtain ⟨assignmentId, ha⟩ := identifierPattern_codes.mp h.assignmentId
    obtain ⟨attemptId, ht⟩ := identifierPattern_codes.mp h.attemptId
    obtain ⟨revision, hv⟩ := identifierPattern_codes.mp h.artifactRevision
    obtain ⟨digest, hd⟩ := sha256HexPattern_codes.mp h.hex
    obtain ⟨ref, hx⟩ := (exists_map_iff (fun _ => artifactRefPattern_codes) _).mpr h.artifactRef
    obtain ⟨code, hy⟩ := (exists_map_iff (fun _ => shortErrorCodePattern_codes) _).mpr h.shortErrorCode
    have halg : ∀ a b : DigestAlgorithm, a = b := by intro a b; cases a; cases b; rfl
    let p : SignalParts := ⟨eventId, workflowId, assignmentId, attemptId, s.role, revision, digest, s.kind, s.findingCount, ref, code⟩
    have hp : p.dto = s := by
      simp only [SignalParts.dto, p, he, hw, ha, ht, hv, hd, hx, hy, halg digest.algorithm s.candidateDigest.algorithm]
    exact ⟨p, hp, (signalRules_dto p).mpr (hp ▸ h.conditions)⟩
  · rintro ⟨p, rfl, hp⟩
    exact {
      eventId := identifierPattern_codes.mpr ⟨_, rfl⟩
      workflowId := identifierPattern_codes.mpr ⟨_, rfl⟩
      assignmentId := identifierPattern_codes.mpr ⟨_, rfl⟩
      attemptId := identifierPattern_codes.mpr ⟨_, rfl⟩
      artifactRevision := identifierPattern_codes.mpr ⟨_, rfl⟩
      hex := sha256HexPattern_codes.mpr ⟨_, rfl⟩
      artifactRef := (exists_map_iff (fun _ => artifactRefPattern_codes) _).mp ⟨_, rfl⟩
      shortErrorCode := (exists_map_iff (fun _ => shortErrorCodePattern_codes) _).mp ⟨_, rfl⟩
      conditions := (signalRules_dto p).mp hp }

theorem lineField_eq_ok {α : Type} {n : Nat} {name : Text} {r : Except IdentityError α} {a : α} :
    lineField n name r = .ok a ↔ r = .ok a := by
  cases r <;> simp [lineField]

theorem lineOption_eq_ok {α : Type} {n : Nat} {name : Text} {new : Text → Except IdentityError α} {f : α → Text}
    (h : ∀ {t a}, new t = .ok a ↔ f a = t) {o : Option Text} {x : Option α} :
    lineOption n name new o = .ok x ↔ x.map f = o := by
  constructor
  · intro hx
    cases o with
    | none => cases hx; rfl
    | some t =>
      rw [lineOption] at hx
      cases ha : lineField n name (new t) with
      | error e => rw [ha] at hx; cases hx
      | ok a =>
        rw [ha] at hx
        cases hx
        exact congrArg some (h.mp (lineField_eq_ok.mp ha))
  · rintro rfl
    exact lineOption_map (fun _ => h.mpr rfl) x

theorem SignalDto.parts_eq_ok {n : Nat} {s : SignalDto} {p : SignalParts} : s.parts n = .ok p ↔ p.dto = s := by
  constructor
  · intro h
    have href : ∀ {o : Option Text} {x : Option ArtifactRef},
        lineOption n "artifactRef".toList ArtifactRef.new o = .ok x ↔ x.map Identifier.value = o :=
      lineOption_eq_ok Identifier.new_eq_ok
    simp only [SignalDto.parts, bind_eq_ok, lineField_eq_ok, href, lineOption_eq_ok ShortErrorCode.new_eq_ok] at h
    obtain ⟨_, he, _, hw, _, ha, _, ht, _, hv, _, hd, _, hx, _, hy, h⟩ := h
    cases h
    obtain ⟨hda, hdh⟩ := Digest.new_eq_ok.mp hd
    simp only [SignalParts.dto, Identifier.new_eq_ok.mp he, Identifier.new_eq_ok.mp hw, Identifier.new_eq_ok.mp ha,
      Identifier.new_eq_ok.mp ht, Identifier.new_eq_ok.mp hv, hda, hdh, hx, hy]
  · rintro rfl
    exact SignalParts.parts_dto n p

theorem RecordDto.schema_iff {n : Nat} {r : RecordDto} (hv : r.schemaVersion = journalSchemaVersion) :
    r.Schema ↔ ∃ e, r.entry n = .ok e := by
  constructor
  · intro h
    obtain ⟨p, hp, hr⟩ := SignalDto.schema_iff.mp h.signal
    obtain ⟨signal, rfl⟩ : ∃ signal : WorkflowSignal, signal.parts = p := ⟨⟨p, hr⟩, rfl⟩
    have he : (⟨r.seq, ⟨r.at, h.at.1, h.at.2⟩, .signalAccepted signal⟩ : JournalEntry).dto = r := by
      obtain ⟨v, q, t, k, g⟩ := r
      simp only [JournalEntry.dto, WorkflowEvent.signal, hp, show k = kindSignalAccepted from h.kind]
      rw [← show v = journalSchemaVersion from hv]
    have hseq := h.seq
    refine ⟨_, he ▸ JournalEntry.entry_dto n ?_ ?_⟩
    · show r.seq ≠ 0
      omega
    · exact hseq.2
  · rintro ⟨e, h⟩
    unfold RecordDto.entry at h
    split at h
    · cases h
    rename_i hk
    split at h
    · cases h
    rename_i time ht
    split at h
    · cases h
    rename_i hs
    obtain ⟨p, hp, h⟩ := bind_eq_ok.mp h
    have ht := BoundedTimestamp.fromUnixSeconds_eq_ok.mp ht
    split at h
    · cases h
    rename_i signal hval
    have hsig := WorkflowSignal.validate_eq_ok.mp hval
    have hmax : maxJournalEntries = 10000 := rfl
    exact {
      schemaVersion := hv
      seq := by omega
      «at» := ⟨ht ▸ time.min, ht ▸ time.max⟩
      kind := not_not.mp hk
      signal := SignalDto.schema_iff.mpr ⟨p, SignalDto.parts_eq_ok.mp hp, hsig ▸ signal.ok⟩ }

/-! ## No member is repeated -/

section
variable [SerdeJson]

theorem noDup_null : Cst.null.NoDup := by
  intro depth h
  cases h

theorem noDup_items : ∀ (es : Items) (depth : Nat), (∀ x ∈ es.toList, x.NoDup) → es.dup depth ≠ .error .duplicate
  | .last _ v _, depth, h => h v (by simp [Items.toList]) depth
  | .more _ v _ rest, depth, h => by
    intro hd
    rw [Items.dup] at hd
    cases hv : v.dup depth with
    | error e =>
      rw [hv] at hd
      exact h v (by simp [Items.toList]) depth (hv.trans (by simpa [bind, Except.bind] using hd))
    | ok u =>
      rw [hv] at hd
      exact noDup_items rest depth (fun x hx => h x (by simp [Items.toList, hx])) hd

theorem noDup_elements {c : Cst} {cs : List Cst} (hc : c.elements? = some cs) (h : ∀ x ∈ cs, x.NoDup) : c.NoDup := by
  intro depth hd
  cases c with
  | arr0 w =>
    rw [Cst.dup] at hd
    split at hd <;> cases hd
  | arr es =>
    cases hc
    rw [Cst.dup] at hd
    split at hd
    · cases hd
    · exact noDup_items es _ h hd
  | _ => cases hc

theorem Cst.IsString.noDup {c : Cst} {t : Text} (h : c.IsString t) : c.NoDup := by
  obtain ⟨b, rfl, -⟩ := h
  exact noDup_str b

theorem Form.Variant.noDup {form : Form} {name : Text} {c : Cst} (h : form.Variant name c) : c.NoDup := by
  cases form with
  | schema => exact Cst.IsString.noDup h
  | derived => exact Cst.HasMembers.noDup h (by simp) (by simp [noDup_null])

theorem Form.Struct.noDup {form : Form} {fs : List Field} {vs : List (Option Cst)} {c : Cst} (hn : (fieldNames fs).Nodup)
    (h : form.Struct fs vs c) (hv : ∀ v, some v ∈ vs → v.NoDup) : c.NoDup := by
  cases form with
  | schema => exact Cst.HasMembers.noDup h (presentMembers_nodup hn) fun m hm => hv _ (snd_mem_of_presentMembers hm)
  | derived =>
    obtain ⟨cs, k, he, rfl⟩ := h
    exact noDup_elements he fun x hx => hv x (List.mem_append_left _ (List.mem_map.mpr ⟨x, hx, rfl⟩))

theorem DigestDto.Spelled.noDup {f : Forms} {d : DigestDto} {c : Cst} (h : d.Spelled f c) : c.NoDup := by
  obtain ⟨a, x, hs, ha, hx⟩ := h
  refine hs.noDup digestFields_nodup fun v hv => ?_
  simp only [List.mem_cons, Option.some.injEq, List.not_mem_nil, or_false] at hv
  rcases hv with rfl | rfl
  · exact ha.noDup
  · exact hx.noDup

theorem SignalDto.Spelled.noDup {f : Forms} {s : SignalDto} {c : Cst} (h : s.Spelled f c) : c.NoDup := by
  obtain ⟨e, w, a, t, r, v, d, k, x, y, hs, he, hw, ha, ht, hr, hv, hd, hk, hx, hy⟩ := h
  have hopt : ∀ {o : Option Cst} {t : Option Text}, Option.Rel Cst.IsString o t → ∀ c, some c = o → c.NoDup := by
    rintro o t (h | _) c hc
    · cases hc
      exact h.noDup
    · cases hc
  refine hs.noDup signalFields_nodup fun u hu => ?_
  simp only [List.mem_cons, Option.some.injEq, List.not_mem_nil, or_false] at hu
  rcases hu with rfl | rfl | rfl | rfl | rfl | rfl | rfl | rfl | hu | hu | hu
  · exact he.noDup
  · exact hw.noDup
  · exact ha.noDup
  · exact ht.noDup
  · exact hr.noDup
  · exact hv.noDup
  · exact hd.noDup
  · exact hk.noDup
  · obtain ⟨n, -, rfl⟩ := Option.map_eq_some_iff.mp hu.symm
    exact noDup_jsonNat _
  · exact hopt hx u hu
  · exact hopt hy u hu

theorem RecordDto.Spelled.noDup {f : Forms} {r : RecordDto} {c : Cst} (h : r.Spelled f c) : c.NoDup := by
  obtain ⟨k, g, hs, hk, hg⟩ := h
  refine hs.noDup recordFields_nodup fun v hv => ?_
  simp only [List.mem_cons, Option.some.injEq, List.not_mem_nil, or_false] at hv
  rcases hv with rfl | rfl | rfl | rfl | rfl
  · exact noDup_jsonNat _
  · exact noDup_jsonNat _
  · exact noDup_jsonNat _
  · exact hk.noDup
  · exact hg.noDup

/-! ## The accepted lines -/

theorem decodeLine_eq_ok {n : Nat} {line : Text} {e : JournalEntry} : decodeLine n line = .ok e ↔
    hasDuplicateMembers line = false ∧ ∃ d : Doc, d.text = line ∧
      versionProbe schemaVersionField d.value = .ok (some journalSchemaVersion) ∧
      ∃ r, RecordDto.de d.value = .ok r ∧ r.entry n = .ok e := by
  unfold decodeLine
  constructor
  · intro h
    split at h
    · cases h
    rename_i hdup
    refine ⟨by simpa using hdup, ?_⟩
    cases hp : parse line with
    | none => simp [fromStr, hp, bind, Except.bind] at h
    | some d =>
      refine ⟨d, text_of_parse hp, ?_⟩
      simp only [fromStr, hp, bind, Except.bind] at h
      cases hv : versionProbe schemaVersionField d.value with
      | error x => simp [hv] at h
      | ok v =>
        simp only [hv] at h
        cases v with
        | none => cases h
        | some v =>
          simp only at h
          split at h
          · cases h
          rename_i h1
          cases hr : RecordDto.de d.value with
          | error x => simp [hr] at h
          | ok r =>
            simp only [hr] at h
            exact ⟨by rw [not_not.mp h1], r, rfl, h⟩
  · rintro ⟨hdup, d, rfl, hv, r, hr, he⟩
    simp [hdup, fromStr, parse_text, bind, Except.bind, hv, hr, he]

omit [SerdeJson] in
theorem recordFields_some {v q t k g : Cst} : ∀ p ∈ recordFields.zip [some v, some q, some t, some k, some g],
    p.1.default = false → p.2.isSome := by
  simp [recordFields]

omit [SerdeJson] in
theorem versionProbe_record {v q t k g c : Cst}
    (h : Form.schema.Struct recordFields [some v, some q, some t, some k, some g] c) :
    versionProbe schemaVersionField c = deOption deU64 v :=
  versionProbe_hasMembers h (presentMembers_nodup recordFields_nodup) rfl (List.mem_cons_self ..)

theorem RecordDto.Spelled.de {f : Forms} {r : RecordDto} {c : Cst} (h : r.Spelled f c) (hs : r.Schema) :
    versionProbe schemaVersionField c = .ok (some journalSchemaVersion) ∧ RecordDto.de c = .ok r := by
  obtain ⟨k, g, hc, hk, hg⟩ := h
  have hu : 4102444800 ≤ u64Max := by decide
  have hv : deU64 (jsonNat r.schemaVersion) = .ok r.schemaVersion :=
    deUnsigned_jsonNat (by have := hs.schemaVersion; omega)
  have hq : deU64 (jsonNat r.seq) = .ok r.seq := deUnsigned_jsonNat (by have := hs.seq; omega)
  have ht : deU64 (jsonNat r.at) = .ok r.at := deUnsigned_jsonNat (by have := hs.at; omega)
  constructor
  · rw [versionProbe_record hc]
    show (deU64 (jsonNat r.schemaVersion)).map some = _
    rw [hv, hs.schemaVersion]
    rfl
  · refine bind_eq_ok.mpr ⟨_, (deStruct_iff recordFields_nodup rfl recordFields_some).mpr ⟨_, hc⟩, ?_⟩
    simp only [bind_eq_ok]
    exact ⟨_, hv, _, hq, _, ht, _, deString_iff.mpr hk, _, SignalDto.de_iff.mpr ⟨f, hg⟩, rfl⟩

/-- The version probe has one field: a record that passes it is not read from an array. -/
theorem RecordDto.spelled_of_de {r : RecordDto} {c : Cst} {v : Nat} (hp : versionProbe schemaVersionField c = .ok (some v))
    (h : RecordDto.de c = .ok r) : r.schemaVersion = v ∧ ∃ f : Forms, r.Spelled f c := by
  obtain ⟨vs, hvs, h⟩ := bind_eq_ok.mp h
  split at h
  · rename_i v' q t k g
    simp only [bind_eq_ok] at h
    obtain ⟨v'', hv, _, hq, _, ht, _, hk, _, hg, h⟩ := h
    cases h
    obtain ⟨rfl, -⟩ := deUnsigned_iff.mp hv
    obtain ⟨rfl, -⟩ := deUnsigned_iff.mp hq
    obtain ⟨rfl, -⟩ := deUnsigned_iff.mp ht
    obtain ⟨form | form, hs⟩ := (deStruct_iff recordFields_nodup rfl recordFields_some).mp hvs
    · have hpv : (deU64 (jsonNat v'')).map some = .ok (some v) := (versionProbe_record hs).symm.trans hp
      rw [hv] at hpv
      obtain ⟨f, hg⟩ := SignalDto.de_iff.mp hg
      exact ⟨Option.some.inj (Except.ok.inj hpv), f, k, g, hs, deString_iff.mp hk, hg⟩
    · obtain ⟨cs, j, he, hcs⟩ := hs
      have hlen := versionProbe_elements he hp
      rcases cs with _ | ⟨x, _ | ⟨y, cs⟩⟩
      · cases j <;> cases hcs
      · cases j <;> cases hcs
      · simp at hlen
  · cases h

theorem decodeLine_ok_iff {n : Nat} {line : Text} : (∃ e, decodeLine n line = .ok e) ↔ ∃ f : Forms, IsRecord f line := by
  constructor
  · rintro ⟨e, h⟩
    obtain ⟨-, d, rfl, hp, r, hr, he⟩ := decodeLine_eq_ok.mp h
    obtain ⟨hv, f, hf⟩ := RecordDto.spelled_of_de hp hr
    exact ⟨f, d, r, rfl, hf, (RecordDto.schema_iff hv).mpr ⟨e, he⟩⟩
  · rintro ⟨f, d, r, rfl, hf, hs⟩
    obtain ⟨hp, hr⟩ := hf.de hs
    obtain ⟨e, he⟩ := (RecordDto.schema_iff hs.schemaVersion).mp hs
    refine ⟨e, decodeLine_eq_ok.mpr ⟨?_, d, rfl, hp, r, hr, he⟩⟩
    rw [hasDuplicateMembers_doc]
    exact decide_eq_false (hf.noDup _)

end

/-! ## One way to read a line -/

theorem DigestDto.Spelled.unique {f f' : Forms} {d d' : DigestDto} {c : Cst} (h : d.Spelled f c) (h' : d'.Spelled f' c) :
    f.candidateDigest = f'.candidateDigest ∧ f.algorithm = f'.algorithm := by
  obtain ⟨a, x, hs, ha, -⟩ := h
  obtain ⟨a', x', hs', ha', -⟩ := h'
  have hr : ∀ {a x : Cst}, ∀ p ∈ digestFields.zip [some a, some x], p.1.default = false → p.2.isSome := by
    simp [digestFields]
  obtain ⟨hf, hvs⟩ := hs.unique digestFields_nodup rfl hr rfl hr hs'
  simp only [List.cons.injEq, Option.some.injEq] at hvs
  obtain ⟨rfl, -⟩ := hvs
  exact ⟨hf, ha.unique ha'⟩

theorem SignalDto.Spelled.unique {f f' : Forms} {s s' : SignalDto} {c : Cst} (h : s.Spelled f c) (h' : s'.Spelled f' c) :
    f = f' := by
  obtain ⟨_, _, _, _, r, _, d, k, _, _, hs, -, -, -, -, hr, -, hd, hk, -⟩ := h
  obtain ⟨_, _, _, _, r', _, d', k', _, _, hs', -, -, -, -, hr', -, hd', hk', -⟩ := h'
  obtain ⟨hf, hvs⟩ := hs.unique signalFields_nodup rfl (by simp [signalFields]) rfl (by simp [signalFields]) hs'
  simp only [List.cons.injEq, Option.some.injEq] at hvs
  obtain ⟨-, -, -, -, rfl, -, rfl, rfl, -⟩ := hvs
  obtain ⟨hfd, hfa⟩ := hd.unique hd'
  obtain ⟨fs, fr, fd, fa, fk⟩ := f
  obtain ⟨fs', fr', fd', fa', fk'⟩ := f'
  simp only at hf hfd hfa
  have hfr : fr = fr' := hr.unique hr'
  have hfk : fk = fk' := hk.unique hk'
  rw [hf, hfr, hfd, hfa, hfk]

theorem IsRecord.unique {f f' : Forms} {line : Text} (h : IsRecord f line) (h' : IsRecord f' line) : f = f' := by
  obtain ⟨d, r, rfl, ⟨k, g, hs, -, hg⟩, -⟩ := h
  obtain ⟨d', r', hd, ⟨k', g', hs', -, hg'⟩, -⟩ := h'
  obtain rfl := Doc.text_inj hd
  obtain ⟨-, hvs⟩ := hs.unique recordFields_nodup rfl recordFields_some rfl recordFields_some hs'
  simp only [List.cons.injEq, Option.some.injEq] at hvs
  obtain ⟨-, -, -, -, rfl, -⟩ := hvs
  exact hg.unique hg'

/-! ## The main result -/

/-- The decoder accepts a line exactly when the schema does, but for the records with a place in the other form. -/
theorem record_language [SerdeJson] (n : Nat) (line : Text) :
    ((∃ e, decodeLine n line = .ok e) ↔ IsRecord .schema line) ↔ ∀ f : Forms, IsRecord f line → f = .schema := by
  rw [decodeLine_ok_iff]
  constructor
  · intro h f hf
    exact hf.unique (h.mp ⟨f, hf⟩)
  · intro h
    refine ⟨?_, fun hs => ⟨_, hs⟩⟩
    rintro ⟨f, hf⟩
    exact h f hf ▸ hf

theorem struct_jsonStruct (fs : List Field) (vs : List (Option Cst)) : Form.schema.Struct fs vs (jsonStruct fs vs) :=
  ⟨_, _, members_jsonObject _, memberNames_json _, .refl _⟩

theorem isString_jsonString (t : Text) : (jsonString t).IsString t := ⟨_, rfl, strValue_jsonBody t⟩

/-- A signal whose digest stands as `["sha256","00…00"]`. -/
def arrayDigestSignal : Cst :=
  let p := sampleSubmission.parts
  jsonStruct signalFields [some (jsonString p.eventId.value), some (jsonString p.workflowId.value),
    some (jsonString p.assignmentId.value), some (jsonString p.attemptId.value), some (jsonString p.role.wire),
    some (jsonString p.artifactRevision.value),
    some (jsonArray [jsonString p.candidateDigest.algorithm.wire, jsonString p.candidateDigest.hex]),
    some (jsonString p.kind.wire), none, none, none]

def arrayDigestLine : Text := (jsonStruct recordFields [some (jsonNat 1), some (jsonNat 1), some (jsonNat 1577836800),
  some (jsonString kindSignalAccepted), some arrayDigestSignal]).text

theorem isRecord_arrayDigestLine : IsRecord ⟨.schema, .schema, .derived, .schema, .schema⟩ arrayDigestLine := by
  have hdigest : sampleEntry.dto.signal.candidateDigest.Spelled ⟨.schema, .schema, .derived, .schema, .schema⟩
      (jsonArray [jsonString DigestAlgorithm.sha256.wire, jsonString sampleDigest.hex]) :=
    ⟨_, _, ⟨_, 0, elements_jsonArray _, rfl⟩, isString_jsonString _, isString_jsonString _⟩
  have hsignal : sampleEntry.dto.signal.Spelled ⟨.schema, .schema, .derived, .schema, .schema⟩ arrayDigestSignal :=
    ⟨_, _, _, _, _, _, _, _, none, none, struct_jsonStruct _ _, isString_jsonString _, isString_jsonString _,
      isString_jsonString _, isString_jsonString _, isString_jsonString _, isString_jsonString _, hdigest,
      isString_jsonString _, .none, .none⟩
  refine ⟨Cst.doc _, sampleEntry.dto, Cst.doc_text _, ⟨_, _, struct_jsonStruct _ _, isString_jsonString _, hsignal⟩, ?_⟩
  exact (RecordDto.schema_iff (n := 1) rfl).mpr ⟨sampleEntry, JournalEntry.entry_dto 1 (by decide) (by decide)⟩

open Sample in
/-- A record whose digest is written as an array is read, though the schema asks for an object. -/
theorem array_digest_accepted :
    ¬((∃ e, decodeLine 1 arrayDigestLine = .ok e) ↔ IsRecord .schema arrayDigestLine) := by
  intro h
  have hs := h.mp (decodeLine_ok_iff.mpr ⟨_, isRecord_arrayDigestLine⟩)
  cases hs.unique isRecord_arrayDigestLine

end Aizign
