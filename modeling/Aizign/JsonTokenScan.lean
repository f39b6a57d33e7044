import Aizign.JsonTokenWalk

/-!
# What the raw-token scan finds

`scan_json_tokens` as a walk over the tree of an accepted text, and the walk in
closed form: `Cst.found` lists, by recursion on the tree, what a value leaves
behind in the state.
-/

namespace Aizign

theorem unitsText_text (t : Text) : unitsText (utf8Encoding.text t) = t := by
  have hid : ((utf8 t).map UInt8.toNat).map Nat.toUInt8 = utf8 t := by
    rw [List.map_map]
    refine (List.map_congr_left fun b _ => ?_).trans (List.map_id _)
    simp [Nat.toUInt8]
  rw [unitsText, utf8Encoding_text, hid, fromUtf8_utf8, Option.getD_some]

theorem decodeStringToken_body (b : List StrChar) (post : Units) :
    decodeStringToken ('"'.toNat :: (utf8Encoding.text (bodyText b) ++ '"'.toNat :: post).take
      ((utf8Encoding.text (bodyText b)).length + 1)) = strValue b := by
  have htok : '"'.toNat :: (utf8Encoding.text (bodyText b) ++ '"'.toNat :: post).take
      ((utf8Encoding.text (bodyText b)).length + 1) = utf8Encoding.text (strText b) := by
    rw [strText, Encoding.text_cons_ascii _ (by decide), Encoding.text_append, Encoding.text_cons_ascii _ (by decide),
      List.take_length_add_append]
    rfl
  have hparse : parse (strText b) = some ⟨.nil, .str b, .nil⟩ := by
    have := parse_text ⟨.nil, .str b, .nil⟩
    simpa [Doc.text, Cst.text, Ws.nil] using this
  rw [htok, decodeStringToken, unitsText_text, fromStr, hparse]
  simp only [deString]
  cases strValue b <;> rfl

def scanHandler : Handler ScanState where
  string s i b isName := s.onString i ⟨true, (strValue b).isSome, 0⟩ (strValue b) isName
  opened s i isObject := s.onOpen i isObject
  closed s i := s.onClose i
  number s i n := s.onNumber i (utf8Encoding.text n.tok)
  word s _ w := recordValue s (w.elim .null .boolean)

theorem scanReader_reads : scanReader.Reads utf8Encoding scanHandler where
  string s i b post isName := by
    simp only [scanReader, scanHandler]
    rw [(stringToken_body utf8Encoding b post).2, decodeStringToken_body]
  opened _ _ _ := rfl
  closed _ _ := rfl
  number _ _ _ := rfl
  literal s i w post := by
    have key : ∀ t : Text, isAscii t = true → utf8Encoding.text t ++ post = codes t ++ post := by
      intro t ht
      rw [Encoding.text_ascii _ ht]; rfl
    cases w with
    | none => rw [key _ (by decide)]; rfl
    | some b =>
      cases b with
      | true => rw [key _ (by decide)]; rfl
      | false => rw [key _ (by decide)]; rfl

theorem scanLoop_doc (d : Doc) (s : ScanState) : scanLoop 0 0 s (utf8Encoding.text d.text) =
    d.value.walk utf8Encoding scanHandler (utf8Encoding.size d.lead.chars) s :=
  tokenLoop_doc utf8Encoding scanReader_reads d s

/-! ## What a value leaves behind -/

structure Found where
  failures : List Failure
  typed : List (Nat × Nat × Text)
  tooDeep : Bool

instance : Append Found where
  append f g := ⟨f.failures ++ g.failures, f.typed ++ g.typed, f.tooDeep || g.tooDeep⟩

def Found.none : Found := ⟨[], [], false⟩

def Found.fail (f : Failure) : Found := ⟨[f], [], false⟩

/-- Whether the value of a member is at or below the payload, in an object that is at `depth` levels. -/
def memberInPayload (inPayload : Bool) (depth : Nat) (name : Option Text) : Bool :=
  inPayload || (depth == 1 && name == some payloadKey)

/-- The names of an object after one more member name; an ill-formed name is not kept. -/
def seeName (seen : List Text) (k : List StrChar) : List Text := (strValue k).elim seen (· :: seen)

def nameFound (inPayload : Bool) (depth : Nat) (seen : List Text) (i : Nat) (k : List StrChar) : Found :=
  match strValue k with
  | .none => .fail ⟨.invalidUnicode, i, inPayload, unicodeMessage⟩
  | some name =>
    if name ∈ seen then .fail ⟨.duplicateMember, i, memberInPayload inPayload depth (some name), duplicateMessage⟩
    else .none

def numFound (inPayload : Bool) (i : Nat) (n : Num) : Found :=
  if !isCanonicalInteger n.tok then .fail ⟨.noncanonicalNumber, i, inPayload, numberMessage⟩
  else if inPayload ∧ (parseU32 n.tok).isNone then ⟨[], [(i, i + utf8Encoding.size n.tok, ['0'])], false⟩
  else .none

def strFound (inPayload : Bool) (i : Nat) (b : List StrChar) : Found :=
  if (strValue b).isSome then .none else .fail ⟨.invalidUnicode, i, inPayload, unicodeMessage⟩

def openFound (inPayload : Bool) (depth : Nat) : Found := ⟨[], [], inPayload && decide (typedJsonDepthLimit ≤ depth)⟩

def valueOffset (i : Nat) (w₁ : Ws) (k : List StrChar) (w₂ w₃ : Ws) : Nat :=
  i + utf8Encoding.size w₁.chars + utf8Encoding.size (strText k) + utf8Encoding.size w₂.chars + 1 +
    utf8Encoding.size w₃.chars

mutual

def Cst.found (inPayload : Bool) (depth i : Nat) : Cst → Found
  | .null => .none
  | .bool _ => .none
  | .num n => numFound inPayload i n
  | .str b => strFound inPayload i b
  | .arr0 _ => openFound inPayload depth
  | .arr es => openFound inPayload depth ++ es.found inPayload (depth + 1) (i + 1)
  | .obj0 _ => openFound inPayload depth
  | .obj ms => openFound inPayload depth ++ ms.found inPayload (depth + 1) [] (i + 1)

def Items.found (inPayload : Bool) (depth i : Nat) : Items → Found
  | .last w₁ v _ => v.found inPayload depth (i + utf8Encoding.size w₁.chars)
  | .more w₁ v w₂ rest =>
    v.found inPayload depth (i + utf8Encoding.size w₁.chars) ++
      rest.found inPayload depth
        (i + utf8Encoding.size w₁.chars + utf8Encoding.size v.text + utf8Encoding.size w₂.chars + 1)

def Members.found (inPayload : Bool) (depth : Nat) (seen : List Text) (i : Nat) : Members → Found
  | .last w₁ k w₂ w₃ v _ =>
    nameFound inPayload depth seen (i + utf8Encoding.size w₁.chars) k ++
      v.found (memberInPayload inPayload depth (strValue k)) depth (valueOffset i w₁ k w₂ w₃)
  | .more w₁ k w₂ w₃ v w₄ rest =>
    nameFound inPayload depth seen (i + utf8Encoding.size w₁.chars) k ++
      v.found (memberInPayload inPayload depth (strValue k)) depth (valueOffset i w₁ k w₂ w₃) ++
      rest.found inPayload depth (seeName seen k)
        (valueOffset i w₁ k w₂ w₃ + utf8Encoding.size v.text + utf8Encoding.size w₄.chars + 1)

end

@[simp] theorem Found.append_failures (f g : Found) : (f ++ g).failures = f.failures ++ g.failures := rfl

@[simp] theorem Found.append_typed (f g : Found) : (f ++ g).typed = f.typed ++ g.typed := rfl

@[simp] theorem Found.append_tooDeep (f g : Found) : (f ++ g).tooDeep = (f.tooDeep || g.tooDeep) := rfl

@[simp] theorem openFound_failures (inPayload : Bool) (depth : Nat) : (openFound inPayload depth).failures = [] := rfl

@[simp] theorem openFound_typed (inPayload : Bool) (depth : Nat) : (openFound inPayload depth).typed = [] := rfl

/-! ## Findings in source order -/

def InOrder (lo hi : Nat) (l : List Failure) : Prop :=
  l.Pairwise (fun f g => f.index < g.index) ∧ ∀ f ∈ l, lo ≤ f.index ∧ f.index < hi

theorem inOrder_nil (lo hi : Nat) : InOrder lo hi [] := ⟨.nil, fun _ h => by cases h⟩

theorem inOrder_single {lo hi : Nat} {f : Failure} (h₁ : lo ≤ f.index) (h₂ : f.index < hi) : InOrder lo hi [f] :=
  ⟨List.pairwise_singleton .., fun g hg => by rw [List.mem_singleton] at hg; subst hg; exact ⟨h₁, h₂⟩⟩

theorem InOrder.append {lo mid hi : Nat} {l l' : List Failure} (h : InOrder lo mid l) (h' : InOrder mid hi l')
    (h₁ : lo ≤ mid) (h₂ : mid ≤ hi) : InOrder lo hi (l ++ l') := by
  refine ⟨List.pairwise_append.mpr ⟨h.1, h'.1, fun f hf g hg => ?_⟩, fun f hf => ?_⟩
  · exact Nat.lt_of_lt_of_le (h.2 f hf).2 (h'.2 g hg).1
  · rcases List.mem_append.mp hf with hf | hf
    · exact ⟨(h.2 f hf).1, Nat.lt_of_lt_of_le (h.2 f hf).2 h₂⟩
    · exact ⟨Nat.le_trans h₁ (h'.2 f hf).1, (h'.2 f hf).2⟩

theorem InOrder.mono {lo hi lo' hi' : Nat} {l : List Failure} (h : InOrder lo hi l) (h₁ : lo' ≤ lo) (h₂ : hi ≤ hi') :
    InOrder lo' hi' l :=
  ⟨h.1, fun f hf => ⟨Nat.le_trans h₁ (h.2 f hf).1, Nat.lt_of_lt_of_le (h.2 f hf).2 h₂⟩⟩

theorem size_pos {t : Text} (h : t ≠ []) : 0 < utf8Encoding.size t :=
  List.length_pos_iff.mpr fun e => h ((Encoding.text_eq_nil _).mp e)

theorem inOrder_nameFound (inPayload : Bool) (depth : Nat) (seen : List Text) (i : Nat) (k : List StrChar) :
    InOrder i (i + utf8Encoding.size (strText k)) (nameFound inPayload depth seen i k).failures := by
  have hpos : 0 < utf8Encoding.size (strText k) := size_pos (List.cons_ne_nil _ _)
  unfold nameFound
  split
  · exact inOrder_single (Nat.le_refl i) (Nat.lt_add_of_pos_right hpos)
  · split
    · exact inOrder_single (Nat.le_refl i) (Nat.lt_add_of_pos_right hpos)
    · exact inOrder_nil ..

theorem size_items_last (w₁ : Ws) (v : Cst) (w₂ : Ws) : utf8Encoding.size (Items.last w₁ v w₂).text =
    utf8Encoding.size w₁.chars + utf8Encoding.size v.text + utf8Encoding.size w₂.chars + 1 := by
  simp only [Items.text, Encoding.size_append, Encoding.size_cons utf8Encoding (c := ']') (by decide), Encoding.size_nil]
  omega

theorem size_items_more (w₁ : Ws) (v : Cst) (w₂ : Ws) (rest : Items) : utf8Encoding.size (Items.more w₁ v w₂ rest).text =
    utf8Encoding.size w₁.chars + utf8Encoding.size v.text + utf8Encoding.size w₂.chars + 1 + utf8Encoding.size rest.text := by
  simp only [Items.text, Encoding.size_append, Encoding.size_cons utf8Encoding (c := ',') (by decide)]
  omega

theorem size_members_last (i : Nat) (w₁ : Ws) (k : List StrChar) (w₂ w₃ : Ws) (v : Cst) (w₄ : Ws) :
    i + utf8Encoding.size (Members.last w₁ k w₂ w₃ v w₄).text =
      valueOffset i w₁ k w₂ w₃ + utf8Encoding.size v.text + utf8Encoding.size w₄.chars + 1 := by
  simp only [Members.text, valueOffset, Encoding.size_append, Encoding.size_cons utf8Encoding (c := ':') (by decide),
    Encoding.size_cons utf8Encoding (c := '}') (by decide), Encoding.size_nil]
  omega

theorem size_members_more (i : Nat) (w₁ : Ws) (k : List StrChar) (w₂ w₃ : Ws) (v : Cst) (w₄ : Ws) (rest : Members) :
    i + utf8Encoding.size (Members.more w₁ k w₂ w₃ v w₄ rest).text =
      valueOffset i w₁ k w₂ w₃ + utf8Encoding.size v.text + utf8Encoding.size w₄.chars + 1 +
        utf8Encoding.size rest.text := by
  simp only [Members.text, valueOffset, Encoding.size_append, Encoding.size_cons utf8Encoding (c := ':') (by decide),
    Encoding.size_cons utf8Encoding (c := ',') (by decide)]
  omega

/-- A name and its value, in order. -/
theorem inOrder_member (inPayload : Bool) (depth : Nat) (seen : List Text) (i : Nat) (w₁ : Ws) (k : List StrChar)
    (w₂ w₃ : Ws) (v : Cst) {inPayload' : Bool} {depth' : Nat}
    (hv : InOrder (valueOffset i w₁ k w₂ w₃) (valueOffset i w₁ k w₂ w₃ + utf8Encoding.size v.text)
      (v.found inPayload' depth' (valueOffset i w₁ k w₂ w₃)).failures) :
    InOrder i (valueOffset i w₁ k w₂ w₃ + utf8Encoding.size v.text)
      ((nameFound inPayload depth seen (i + utf8Encoding.size w₁.chars) k).failures ++
        (v.found inPayload' depth' (valueOffset i w₁ k w₂ w₃)).failures) := by
  have hn := inOrder_nameFound inPayload depth seen (i + utf8Encoding.size w₁.chars) k
  have hle : i + utf8Encoding.size w₁.chars + utf8Encoding.size (strText k) ≤ valueOffset i w₁ k w₂ w₃ := by
    rw [valueOffset]; omega
  exact (hn.mono (by omega) hle).append hv (by omega) (by omega)

mutual

theorem Cst.inOrder_found (inPayload : Bool) (depth i : Nat) (v : Cst) :
    InOrder i (i + utf8Encoding.size v.text) (v.found inPayload depth i).failures := by
  have hpos : 0 < utf8Encoding.size v.text := size_pos (List.ne_nil_of_length_pos v.length_pos)
  cases v with
  | null => exact inOrder_nil ..
  | bool b => exact inOrder_nil ..
  | num n =>
    simp only [Cst.found, numFound]
    split
    · exact inOrder_single (Nat.le_refl i) (Nat.lt_add_of_pos_right hpos)
    · split <;> exact inOrder_nil ..
  | str b =>
    simp only [Cst.found, strFound]
    split
    · exact inOrder_nil ..
    · exact inOrder_single (Nat.le_refl i) (Nat.lt_add_of_pos_right hpos)
  | arr0 w => exact inOrder_nil ..
  | arr es =>
    have h := es.inOrder_found inPayload (depth + 1) (i + 1)
    simp only [Cst.found, Found.append_failures, openFound_failures, List.nil_append, Cst.text]
    rw [Encoding.size_cons _ (by decide)]
    exact h.mono (by omega) (by omega)
  | obj0 w => exact inOrder_nil ..
  | obj ms =>
    have h := ms.inOrder_found inPayload (depth + 1) [] (i + 1)
    simp only [Cst.found, Found.append_failures, openFound_failures, List.nil_append, Cst.text]
    rw [Encoding.size_cons _ (by decide)]
    exact h.mono (by omega) (by omega)

theorem Items.inOrder_found (inPayload : Bool) (depth i : Nat) (es : Items) :
    InOrder i (i + utf8Encoding.size es.text) (es.found inPayload depth i).failures := by
  cases es with
  | last w₁ v w₂ =>
    have h := v.inOrder_found inPayload depth (i + utf8Encoding.size w₁.chars)
    rw [size_items_last]
    exact h.mono (by omega) (by omega)
  | more w₁ v w₂ rest =>
    have h := v.inOrder_found inPayload depth (i + utf8Encoding.size w₁.chars)
    have hr := rest.inOrder_found inPayload depth
      (i + utf8Encoding.size w₁.chars + utf8Encoding.size v.text + utf8Encoding.size w₂.chars + 1)
    rw [size_items_more]
    exact (h.mono (by omega) (by omega)).append (hr.mono (Nat.le_refl _) (by omega)) (by omega) (by omega)

theorem Members.inOrder_found (inPayload : Bool) (depth : Nat) (seen : List Text) (i : Nat) (ms : Members) :
    InOrder i (i + utf8Encoding.size ms.text) (ms.found inPayload depth seen i).failures := by
  cases ms with
  | last w₁ k w₂ w₃ v w₄ =>
    have h := inOrder_member inPayload depth seen i w₁ k w₂ w₃ v
      (v.inOrder_found (memberInPayload inPayload depth (strValue k)) depth _)
    rw [size_members_last]
    exact h.mono (Nat.le_refl _) (by omega)
  | more w₁ k w₂ w₃ v w₄ rest =>
    have h := inOrder_member inPayload depth seen i w₁ k w₂ w₃ v
      (v.inOrder_found (memberInPayload inPayload depth (strValue k)) depth _)
    have hr := rest.inOrder_found inPayload depth (seeName seen k)
      (valueOffset i w₁ k w₂ w₃ + utf8Encoding.size v.text + utf8Encoding.size w₄.chars + 1)
    have hle : i ≤ valueOffset i w₁ k w₂ w₃ := by rw [valueOffset]; omega
    rw [size_members_more]
    exact (h.mono (Nat.le_refl _) (by omega)).append hr (by omega) (by omega)

end

/-! ## The walk in closed form -/

def probeValues (levels : List Level) (value : ProbeValue) (map : Text → Option ProbeValue) : Text → Option ProbeValue :=
  match levels with
  | [.object o] => o.pendingKey.elim map fun key => insertValue map key value
  | _ => map

def probeCode (levels : List Level) (value : ProbeValue) (code : Option Text) : Option Text :=
  match levels with
  | .object o :: below =>
    match o.pendingKey with
    | none => code
    | some key =>
      if o.directError ∧ key = codeKey then value.string?
      else if below.isEmpty ∧ key = errorKey then none else code
  | _ => code

theorem recordProbeValue_eq (s : ScanState) (value : ProbeValue) : recordProbeValue s value =
    { s with
      topLevelValues := probeValues s.levels value s.topLevelValues
      errorCode := probeCode s.levels value s.errorCode } := by
  obtain ⟨levels⟩ := s
  rcases levels with _ | ⟨⟨o⟩ | ⟨a⟩, below⟩
  · rfl
  · obtain ⟨keys, inPayload, directError, start, top, pendingKey⟩ := o
    cases pendingKey with
    | none => cases below <;> rfl
    | some key =>
      have hkeys : errorKey ≠ codeKey := by decide
      by_cases hd : directError = true ∧ key = codeKey
      · cases below <;> simp [recordProbeValue, probeValues, probeCode, hd]
      · cases below <;> by_cases he : key = errorKey <;> simp [recordProbeValue, probeValues, probeCode, hd, he, hkeys]
  · cases below <;> rfl

def ScanState.absorb (s : ScanState) (f : Found) : ScanState :=
  { s with
    failure := s.failure.or f.failures.head?
    typedReplacements := s.typedReplacements ++ f.typed
    payloadIntegerOutOfRange := s.payloadIntegerOutOfRange || !f.typed.isEmpty
    payloadExceedsTypedDepth := s.payloadExceedsTypedDepth || f.tooDeep }

theorem ScanState.absorb_none (s : ScanState) : s.absorb .none = s := by
  simp [ScanState.absorb, Found.none]

theorem ScanState.absorb_append (s : ScanState) (f g : Found) : s.absorb (f ++ g) = (s.absorb f).absorb g := by
  have ht : (!(f.typed ++ g.typed).isEmpty) = (!f.typed.isEmpty || !g.typed.isEmpty) := by cases f.typed <;> simp
  simp [ScanState.absorb, List.head?_append, Option.or_assoc, Bool.or_assoc, ht]

/-- Everything failed so far lies before offset `i`. -/
def ScanState.Early (s : ScanState) (i : Nat) : Prop := ∀ f ∈ s.failure, f.index < i

theorem ScanState.Early.fail {s : ScanState} {f : Failure} (h : s.Early f.index) : s.fail f = s.absorb (.fail f) := by
  have hr : recordFailure s.failure f = s.failure.or (some f) := by
    unfold recordFailure
    cases hs : s.failure with
    | none => rfl
    | some e =>
      have := h e hs
      simp only [Option.some_or]
      rw [if_neg (by omega)]
  simp [ScanState.fail, ScanState.absorb, Found.fail, hr]

theorem ScanState.Early.mono {s : ScanState} {i j : Nat} (h : s.Early i) (hij : i ≤ j) : s.Early j :=
  fun f hf => Nat.lt_of_lt_of_le (h f hf) hij

theorem ScanState.Early.absorb {s : ScanState} {i lo hi : Nat} {f : Found} (h : s.Early i) (hi' : i ≤ hi)
    (hf : InOrder lo hi f.failures) : (s.absorb f).Early hi := by
  intro g hg
  simp only [ScanState.absorb, Option.mem_def, Option.or_eq_some_iff] at hg
  rcases hg with hg | ⟨-, hg⟩
  · exact h.mono hi' g hg
  · exact (hf.2 g (List.mem_of_mem_head? hg)).2

def Cst.probe : Cst → ProbeValue
  | .null => .null
  | .bool b => .boolean b
  | .num n => .number n.tok
  | .str b => (strValue b).elim .invalid .string
  | .arr0 _ | .arr _ => .array
  | .obj0 _ | .obj _ => .object

/-- The empty container that stands for a value in the envelope text. -/
def Cst.hollow : Cst → Option Text
  | .arr0 _ | .arr _ => some ['[', ']']
  | .obj0 _ | .obj _ => some ['{', '}']
  | _ => none

def Cst.envelope (topLevelPayload : Bool) (i : Nat) (v : Cst) : List (Nat × Nat × Text) :=
  if topLevelPayload then v.hollow.elim [] fun t => [(i, i + utf8Encoding.size v.text, t)] else []

def ScanState.after (s : ScanState) (i : Nat) (v : Cst) : ScanState :=
  { recordProbeValue (s.absorb (v.found (valueIsPayload s.levels) s.levels.length i)) v.probe with
    levels := consumePendingKey s.levels
    envelopeReplacements := s.envelopeReplacements ++ v.envelope (rootMember s.levels payloadKey) i }

def ObjectLevel.named (o : ObjectLevel) (k : List StrChar) : ObjectLevel :=
  { o with keys := seeName o.keys k, pendingKey := strValue k }

theorem valueIsPayload_object (o : ObjectLevel) (below : List Level) :
    valueIsPayload (.object o :: below) = memberInPayload o.inPayload (below.length + 1) o.pendingKey := by
  cases below with
  | nil => rfl
  | cons l below => simp [valueIsPayload, rootMember, memberInPayload, Level.inPayload]

theorem after_scalar {s : ScanState} {i : Nat} {v : Cst} (hv : v.hollow = none) :
    s.after i v = recordValue (s.absorb (v.found (valueIsPayload s.levels) s.levels.length i)) v.probe := by
  simp only [ScanState.after, recordValue, recordProbeValue_eq, ScanState.absorb, Cst.envelope, hv, Option.elim_none, ite_self,
    List.append_nil]

theorem onString_value {s : ScanState} {i : Nat} (he : s.Early i) (b : List StrChar) :
    scanHandler.string s i b false = s.after i (.str b) := by
  rw [after_scalar rfl, Cst.found, strFound, Cst.probe]
  simp only [scanHandler, ScanState.onString]
  cases hb : strValue b with
  | none =>
    have hfail := ScanState.Early.fail (f := ⟨.invalidUnicode, i, valueIsPayload s.levels, unicodeMessage⟩) he
    simp only [Option.isSome_none, Bool.false_eq_true, ite_false, Option.elim_none]
    rw [← hfail]
    rfl
  | some t =>
    simp only [Option.isSome_some, ite_true, Option.elim_some]
    rw [ScanState.absorb_none]
    rfl

theorem onNumber_eq {s : ScanState} {i : Nat} (he : s.Early i) (n : Num) : scanHandler.number s i n = s.after i (.num n) := by
  have hnum : isJsonNumber (utf8Encoding.text n.tok) = true := by rw [isJsonNumber_text]; exact n.ok
  have hlev : ∀ p, (recordProbeValue s p).levels = s.levels := fun p => by rw [recordProbeValue_eq]
  have hearly : ∀ p, (recordProbeValue s p).Early i := fun p => by rw [recordProbeValue_eq]; exact he
  rw [after_scalar rfl, Cst.found, numFound, Cst.probe]
  simp only [scanHandler, ScanState.onNumber, hnum, unitsText_text, hlev, Bool.not_true, Bool.false_eq_true, ite_false]
  by_cases hc : isCanonicalInteger n.tok = true
  · simp only [hc, Bool.not_true, Bool.false_eq_true, ite_false]
    by_cases hp : valueIsPayload s.levels = true ∧ (parseU32 n.tok).isNone = true
    · simp only [hp, and_self, ite_true]
      simp [recordValue, recordProbeValue_eq, ScanState.absorb, Encoding.size]
    · simp only [hp, ite_false]
      rw [ScanState.absorb_none]
      rfl
  · have hfail := ScanState.Early.fail (f := ⟨.noncanonicalNumber, i, valueIsPayload s.levels, numberMessage⟩)
      (hearly (.number n.tok))
    simp only [hc, Bool.not_false, ite_true]
    rw [hfail]
    simp only [recordValue, recordProbeValue_eq, ScanState.absorb]

theorem onWord_eq (s : ScanState) (i : Nat) (w : Option Bool) :
    scanHandler.word s i w = s.after i (w.elim .null .bool) := by
  cases w with
  | none => rw [Option.elim_none, after_scalar rfl, Cst.found, ScanState.absorb_none]; rfl
  | some b => rw [Option.elim_some, after_scalar rfl, Cst.found, ScanState.absorb_none]; rfl

/-- The state at a member's value, its name just read. -/
def ScanState.named (s : ScanState) (i : Nat) (o : ObjectLevel) (below : List Level) (k : List StrChar) : ScanState :=
  { s.absorb (nameFound o.inPayload (below.length + 1) o.keys i k) with
    levels := .object (o.named k) :: below
    correlationSafety := if below = [] ∧ strValue k = none then .suppressed else s.correlationSafety }

theorem onString_name {s : ScanState} {o : ObjectLevel} {below : List Level} {i : Nat} (hl : s.levels = .object o :: below)
    (hp : o.pendingKey = none) (he : s.Early i) (k : List StrChar) :
    scanHandler.string s i k true = s.named i o below k := by
  have hpay : valueIsPayload s.levels = o.inPayload := by
    rw [hl, valueIsPayload_object, hp]; simp [memberInPayload]
  have hlen : s.levels.length = below.length + 1 := by rw [hl, List.length_cons]
  rw [ScanState.named, ← hlen, nameFound]
  simp only [scanHandler, ScanState.onString]
  cases hk : strValue k with
  | none =>
    have hsame : o.named k = o := by
      obtain ⟨keys, _, _, _, _, pendingKey⟩ := o
      simp only at hp
      simp [ObjectLevel.named, seeName, hk, hp]
    have hone : s.levels.length = 1 ↔ below = [] := by rw [hlen, ← List.length_eq_zero_iff]; omega
    simp only [Option.isSome_none, Bool.not_true, Bool.not_false, Bool.false_eq_true, ite_false, ite_true, true_and, and_true,
      hone, hsame, ScanState.onName]
    by_cases hb : below = []
    · have hfail := ScanState.Early.fail (s := { s with correlationSafety := .suppressed })
        (f := ⟨.invalidUnicode, i, o.inPayload, unicodeMessage⟩) he
      simp only [hb, ite_true, hpay]
      rw [hfail]
      simp only [ScanState.absorb, hl, hb]
    · have hfail := ScanState.Early.fail (f := ⟨.invalidUnicode, i, o.inPayload, unicodeMessage⟩) he
      simp only [hb, ite_false, hpay]
      rw [hfail]
      simp only [ScanState.absorb, hl]
  | some name =>
    have hdup : (o.inPayload || (below.isEmpty && name == payloadKey)) =
        memberInPayload o.inPayload s.levels.length (some name) := by
      rw [hlen]
      cases below <;> simp [memberInPayload]
    have hnamed : o.named k = { o with keys := name :: o.keys, pendingKey := some name } := by
      simp [ObjectLevel.named, seeName, hk]
    simp only [Option.isSome_some, Option.isNone_some, Bool.not_true, Bool.false_eq_true, ite_false, ite_true, reduceCtorEq,
      and_false, ScanState.onName, hl, hdup, hnamed]
    by_cases hmem : name ∈ o.keys
    · have hfail := ScanState.Early.fail
        (f := ⟨.duplicateMember, i, memberInPayload o.inPayload s.levels.length (some name), duplicateMessage⟩) he
      simp only [hmem, ite_true]
      rw [hl] at hfail
      rw [hfail]
      rfl
    · simp only [hmem, ite_false]
      rw [ScanState.absorb_none]

def openLevel (levels : List Level) (i : Nat) (isObject : Bool) : Level :=
  if isObject then
    .object ⟨[], valueIsPayload levels, rootMember levels errorKey, i, rootMember levels payloadKey, none⟩
  else .array ⟨valueIsPayload levels, i, rootMember levels payloadKey⟩

theorem onOpen_eq (s : ScanState) (i : Nat) (isObject : Bool) : s.onOpen i isObject =
    { recordProbeValue (s.absorb (openFound (valueIsPayload s.levels) s.levels.length))
        (if isObject then .object else .array) with
      levels := openLevel s.levels i isObject :: consumePendingKey s.levels } := by
  by_cases hd : valueIsPayload s.levels = true ∧ typedJsonDepthLimit ≤ s.levels.length
  · cases isObject <;>
      simp [ScanState.onOpen, recordValue, recordProbeValue_eq, ScanState.absorb, openFound, openLevel, hd]
  · have hf : (valueIsPayload s.levels && decide (typedJsonDepthLimit ≤ s.levels.length)) = false := by
      rw [Bool.and_eq_false_iff, decide_eq_false_iff_not, ← Bool.not_eq_true]
      exact not_and_or.mp hd
    cases isObject <;>
      simp [ScanState.onOpen, recordValue, recordProbeValue_eq, ScanState.absorb, openFound, openLevel, hd, hf]

def ScanState.atLevels (s : ScanState) (levels : List Level) : ScanState := { s with levels := levels }

@[simp] theorem ScanState.atLevels_levels (s : ScanState) (levels : List Level) : (s.atLevels levels).levels = levels := rfl

theorem ScanState.absorb_atLevels (s : ScanState) (levels : List Level) (f : Found) :
    (s.atLevels levels).absorb f = (s.absorb f).atLevels levels := rfl

def ObjectLevel.next (o : ObjectLevel) (k : List StrChar) : ObjectLevel := { o.named k with pendingKey := none }

/-- Closing an object does not look at the names its level has gathered. -/
theorem onClose_next {s : ScanState} {o : ObjectLevel} {below : List Level} (hl : s.levels = .object o :: below)
    (k : List StrChar) (i : Nat) : (s.atLevels (.object (o.next k) :: below)).onClose i = s.onClose i := by
  simp only [ScanState.onClose, ScanState.atLevels, hl]
  rfl

theorem length_consumePendingKey (levels : List Level) : (consumePendingKey levels).length = levels.length := by
  rcases levels with _ | ⟨⟨o⟩ | ⟨a⟩, below⟩ <;> rfl

/-- Closing what was just opened, with the contents absorbed in between. -/
theorem onClose_onOpen (s : ScanState) (i j : Nat) (isObject : Bool) (f : Found) :
    ((s.onOpen i isObject).absorb f).onClose j =
      { recordProbeValue (s.absorb (openFound (valueIsPayload s.levels) s.levels.length ++ f))
          (if isObject then .object else .array) with
        levels := consumePendingKey s.levels
        envelopeReplacements := s.envelopeReplacements ++ if rootMember s.levels payloadKey then
          [(i, j + 1, if isObject then ['{', '}'] else ['[', ']'])] else [] } := by
  rw [onOpen_eq, ScanState.absorb_append]
  cases isObject <;> simp [ScanState.onClose, recordProbeValue_eq, openLevel, ScanState.absorb]

theorem early_onOpen {s : ScanState} {i : Nat} (he : s.Early i) (isObject : Bool) : (s.onOpen i isObject).Early (i + 1) := by
  rw [onOpen_eq]
  intro f hf
  rw [recordProbeValue_eq] at hf
  simp only [ScanState.absorb, openFound_failures, List.head?_nil, Option.or_none] at hf
  exact Nat.lt_succ_of_lt (he f hf)

theorem Found.append_none (f : Found) : f ++ Found.none = f := by
  obtain ⟨failures, typed, tooDeep⟩ := f
  change Found.mk (failures ++ []) (typed ++ []) (tooDeep || false) = _
  rw [List.append_nil, List.append_nil, Bool.or_false]

theorem after_item {s : ScanState} {a : ArrayLevel} {below : List Level} (hl : s.levels = .array a :: below) (i : Nat)
    (v : Cst) : s.after i v = s.absorb (v.found a.inPayload s.levels.length i) := by
  have hroot : ∀ key, rootMember (.array a :: below) key = false := by
    intro key
    cases below <;> rfl
  have hpay : valueIsPayload (.array a :: below) = a.inPayload := by
    rw [valueIsPayload, hroot, Bool.or_false]; rfl
  simp only [ScanState.after, recordProbeValue_eq, ScanState.absorb, Cst.envelope, hl, hroot, hpay, consumePendingKey,
    probeCode, Bool.false_eq_true, ite_false, List.append_nil]
  cases below <;> rfl

theorem after_member {s : ScanState} {o : ObjectLevel} {below : List Level} (hl : s.levels = .object o :: below)
    (hb : below ≠ []) (hd : o.directError = false) (i : Nat) (v : Cst) :
    s.after i v = (s.absorb (v.found (memberInPayload o.inPayload s.levels.length o.pendingKey) s.levels.length i)).atLevels
      (.object { o with pendingKey := none } :: below) := by
  obtain ⟨l, below, rfl⟩ := List.exists_cons_of_ne_nil hb
  have hcode : ∀ c, probeCode (.object o :: l :: below) v.probe c = c := by
    intro c
    rw [probeCode]
    cases o.pendingKey <;> simp [hd]
  simp only [ScanState.after, recordProbeValue_eq, ScanState.absorb, Cst.envelope, hl, rootMember, valueIsPayload_object,
    hcode, probeValues, consumePendingKey, Bool.false_eq_true, ite_false, List.append_nil, List.length_cons,
    ScanState.atLevels]

theorem early_named {s : ScanState} {i : Nat} (he : s.Early i) (o : ObjectLevel) (below : List Level) (w₁ : Ws)
    (k : List StrChar) (w₂ w₃ : Ws) :
    (s.named (i + utf8Encoding.size w₁.chars) o below k).Early (valueOffset i w₁ k w₂ w₃) := by
  have hn := inOrder_nameFound o.inPayload (below.length + 1) o.keys (i + utf8Encoding.size w₁.chars) k
  have := ScanState.Early.absorb he (by omega) hn
  refine ScanState.Early.mono (s := s.named _ o below k) this ?_
  rw [valueOffset]; omega

theorem early_item {s : ScanState} {i : Nat} (he : s.Early i) (w₁ : Ws) (v : Cst) (inPayload : Bool) (depth : Nat) :
    (s.absorb (v.found inPayload depth (i + utf8Encoding.size w₁.chars))).Early
      (i + utf8Encoding.size w₁.chars + utf8Encoding.size v.text) :=
  he.absorb (by omega) (v.inOrder_found inPayload depth _)

theorem named_after {s : ScanState} {o : ObjectLevel} {below : List Level} (hl : s.levels = .object o :: below)
    (hb : below ≠ []) (hd : o.directError = false) (i j : Nat) (k : List StrChar) (v : Cst) :
    (s.named i o below k).after j v =
      (s.absorb (nameFound o.inPayload s.levels.length o.keys i k ++
        v.found (memberInPayload o.inPayload s.levels.length (strValue k)) s.levels.length j)).atLevels
          (.object (o.next k) :: below) := by
  have hlen : s.levels.length = below.length + 1 := by rw [hl, List.length_cons]
  rw [after_member (o := o.named k) rfl hb hd, ScanState.absorb_append, hlen]
  simp only [ScanState.named, ScanState.absorb, hb, false_and, ite_false, List.length_cons]
  rfl

theorem early_members {s : ScanState} {i : Nat} (he : s.Early i) (depth : Nat) (o : ObjectLevel) (levels : List Level) (w₁ : Ws)
    (k : List StrChar) (w₂ w₃ : Ws) (v : Cst) (w₄ : Ws) :
    ((s.absorb (nameFound o.inPayload depth o.keys (i + utf8Encoding.size w₁.chars) k ++
      v.found (memberInPayload o.inPayload depth (strValue k)) depth (valueOffset i w₁ k w₂ w₃))).atLevels levels).Early
        (valueOffset i w₁ k w₂ w₃ + utf8Encoding.size v.text + utf8Encoding.size w₄.chars + 1) := by
  have hord := inOrder_member o.inPayload depth o.keys i w₁ k w₂ w₃ v
    (v.inOrder_found (memberInPayload o.inPayload depth (strValue k)) depth _)
  have hle : i ≤ valueOffset i w₁ k w₂ w₃ := by rw [valueOffset]; omega
  have h := ScanState.Early.absorb (f := nameFound o.inPayload depth o.keys (i + utf8Encoding.size w₁.chars) k ++
    v.found (memberInPayload o.inPayload depth (strValue k)) depth (valueOffset i w₁ k w₂ w₃)) he (by omega) hord
  exact h.mono (by omega)

theorem Members.walk_last (w₁ : Ws) (k : List StrChar) (w₂ w₃ : Ws) (v : Cst) (w₄ : Ws) (i : Nat) (s : ScanState) :
    (Members.last w₁ k w₂ w₃ v w₄).walk utf8Encoding scanHandler i s = ScanState.onClose
      (v.walk utf8Encoding scanHandler (valueOffset i w₁ k w₂ w₃)
        (scanHandler.string s (i + utf8Encoding.size w₁.chars) k true))
      (valueOffset i w₁ k w₂ w₃ + utf8Encoding.size v.text + utf8Encoding.size w₄.chars) := rfl

theorem Members.walk_more (w₁ : Ws) (k : List StrChar) (w₂ w₃ : Ws) (v : Cst) (w₄ : Ws) (rest : Members) (i : Nat)
    (s : ScanState) : (Members.more w₁ k w₂ w₃ v w₄ rest).walk utf8Encoding scanHandler i s =
      rest.walk utf8Encoding scanHandler
        (valueOffset i w₁ k w₂ w₃ + utf8Encoding.size v.text + utf8Encoding.size w₄.chars + 1)
        (v.walk utf8Encoding scanHandler (valueOffset i w₁ k w₂ w₃)
          (scanHandler.string s (i + utf8Encoding.size w₁.chars) k true)) := rfl

mutual

theorem Cst.walk_eq (v : Cst) {s : ScanState} {i : Nat} (he : s.Early i)
    (hv : ∀ ms, v = .obj ms → s.levels ≠ [] ∧ rootMember s.levels errorKey = false) :
    v.walk utf8Encoding scanHandler i s = s.after i v := by
  cases v with
  | null => exact onWord_eq s i none
  | bool b => exact onWord_eq s i (some b)
  | num n => exact onNumber_eq he n
  | str b => exact onString_value he b
  | arr0 w =>
    have h := onClose_onOpen s i (i + 1 + utf8Encoding.size w.chars) false .none
    have hsize : i + 1 + utf8Encoding.size w.chars + 1 = i + utf8Encoding.size (Cst.arr0 w).text := by
      simp only [Cst.text, Encoding.size_cons utf8Encoding (c := '[') (by decide), Encoding.size_append,
        Encoding.size_cons utf8Encoding (c := ']') (by decide), Encoding.size_nil]
      omega
    rw [ScanState.absorb_none, Found.append_none, hsize] at h
    exact h
  | arr es =>
    have hs := es.walk_eq (early_onOpen he false) (a := ⟨valueIsPayload s.levels, i, rootMember s.levels payloadKey⟩)
      (by rw [onOpen_eq]; rfl)
    have hsize : i + 1 + utf8Encoding.size es.text - 1 + 1 = i + utf8Encoding.size (Cst.arr es).text := by
      simp only [Cst.text, Encoding.size_cons utf8Encoding (c := '[') (by decide)]
      omega
    have hlen : (s.onOpen i false).levels.length = s.levels.length + 1 := by
      rw [onOpen_eq, List.length_cons, length_consumePendingKey]
    rw [hlen, onClose_onOpen, hsize] at hs
    exact hs
  | obj0 w =>
    have h := onClose_onOpen s i (i + 1 + utf8Encoding.size w.chars) true .none
    have hsize : i + 1 + utf8Encoding.size w.chars + 1 = i + utf8Encoding.size (Cst.obj0 w).text := by
      simp only [Cst.text, Encoding.size_cons utf8Encoding (c := '{') (by decide), Encoding.size_append,
        Encoding.size_cons utf8Encoding (c := '}') (by decide), Encoding.size_nil]
      omega
    rw [ScanState.absorb_none, Found.append_none, hsize] at h
    exact h
  | obj ms =>
    obtain ⟨hne, herr⟩ := hv ms rfl
    have hlev : (s.onOpen i true).levels = .object ⟨[], valueIsPayload s.levels, rootMember s.levels errorKey, i,
        rootMember s.levels payloadKey, none⟩ :: consumePendingKey s.levels := by
      rw [onOpen_eq]; rfl
    have hs := ms.walk_eq (early_onOpen he true) hlev
      (fun h => hne (List.length_eq_zero_iff.mp (by rw [← length_consumePendingKey, h]; rfl))) herr rfl
    have hsize : i + 1 + utf8Encoding.size ms.text - 1 + 1 = i + utf8Encoding.size (Cst.obj ms).text := by
      simp only [Cst.text, Encoding.size_cons utf8Encoding (c := '{') (by decide)]
      omega
    have hlen : (s.onOpen i true).levels.length = s.levels.length + 1 := by
      rw [onOpen_eq, List.length_cons, length_consumePendingKey]
    rw [hlen, onClose_onOpen, hsize] at hs
    exact hs

theorem Items.walk_eq (es : Items) {s : ScanState} {i : Nat} {a : ArrayLevel} {below : List Level} (he : s.Early i)
    (hl : s.levels = .array a :: below) : es.walk utf8Encoding scanHandler i s =
      (s.absorb (es.found a.inPayload s.levels.length i)).onClose (i + utf8Encoding.size es.text - 1) := by
  have hroot : ∀ key, rootMember s.levels key = false := by
    intro key
    rw [hl]
    cases below <;> rfl
  cases es with
  | last w₁ v w₂ =>
    have hv := v.walk_eq (s := s) (i := i + utf8Encoding.size w₁.chars) (he.mono (by omega))
      fun _ _ => ⟨by rw [hl]; exact List.cons_ne_nil _ _, hroot _⟩
    rw [Items.walk, hv, after_item hl, size_items_last]
    simp only [Items.found]
    change ScanState.onClose _ _ = _
    congr 1
    omega
  | more w₁ v w₂ rest =>
    have hv := v.walk_eq (s := s) (i := i + utf8Encoding.size w₁.chars) (he.mono (by omega))
      fun _ _ => ⟨by rw [hl]; exact List.cons_ne_nil _ _, hroot _⟩
    have hr := rest.walk_eq ((early_item he w₁ v a.inPayload s.levels.length).mono
      (j := i + utf8Encoding.size w₁.chars + utf8Encoding.size v.text + utf8Encoding.size w₂.chars + 1) (by omega)) hl
    rw [Items.walk, hv, after_item hl, hr, size_items_more, Items.found, ScanState.absorb_append]
    congr 1
    omega

theorem Members.walk_eq (ms : Members) {s : ScanState} {i : Nat} {o : ObjectLevel} {below : List Level} (he : s.Early i)
    (hl : s.levels = .object o :: below) (hb : below ≠ []) (hd : o.directError = false) (hp : o.pendingKey = none) :
    ms.walk utf8Encoding scanHandler i s =
      (s.absorb (ms.found o.inPayload s.levels.length o.keys i)).onClose (i + utf8Encoding.size ms.text - 1) := by
  have hroot : ∀ o' key, rootMember (.object o' :: below) key = false := by
    obtain ⟨l, below, rfl⟩ := List.exists_cons_of_ne_nil hb
    exact fun _ _ => rfl
  cases ms with
  | last w₁ k w₂ w₃ v w₄ =>
    have hn := onString_name hl hp (he.mono (Nat.le_add_right i (utf8Encoding.size w₁.chars))) k
    have hv := v.walk_eq (early_named he o below w₁ k w₂ w₃) fun _ _ => ⟨List.cons_ne_nil _ _, hroot _ _⟩
    rw [named_after hl hb hd] at hv
    rw [Members.walk_last, hn, hv, onClose_next (s := s.absorb _) hl, size_members_last, Nat.add_sub_cancel]
    rfl
  | more w₁ k w₂ w₃ v w₄ rest =>
    have hn := onString_name hl hp (he.mono (Nat.le_add_right i (utf8Encoding.size w₁.chars))) k
    have hv := v.walk_eq (early_named he o below w₁ k w₂ w₃) fun _ _ => ⟨List.cons_ne_nil _ _, hroot _ _⟩
    rw [named_after hl hb hd] at hv
    have hearly := early_members he s.levels.length o (.object (o.next k) :: below) w₁ k w₂ w₃ v w₄
    rw [Members.walk_more, hn, hv, rest.walk_eq hearly rfl hb hd rfl, ScanState.absorb_atLevels, ← ScanState.absorb_append,
      onClose_next (s := s.absorb _) hl, size_members_more, Members.found]
    simp only [ScanState.atLevels_levels, List.length_cons, hl]
    rfl

end

/-! ## The error object and the root object -/

def codeStep (code : Option Text) (m : List StrChar × Cst) : Option Text :=
  if strValue m.1 = some codeKey then m.2.probe.string? else code

def Cst.errorCode : Cst → Option Text
  | .obj ms => ms.toList.foldl codeStep none
  | _ => none

theorem after_deep {s : ScanState} {o : ObjectLevel} {below : List Level} (hl : s.levels = .object o :: below)
    (hb : below ≠ []) (hd : o.directError = true) (i : Nat) (v : Cst) :
    s.after i v =
      { (s.absorb (v.found (memberInPayload o.inPayload s.levels.length o.pendingKey) s.levels.length i)).atLevels
          (.object { o with pendingKey := none } :: below) with
        errorCode := if o.pendingKey = some codeKey then v.probe.string? else s.errorCode } := by
  obtain ⟨l, below, rfl⟩ := List.exists_cons_of_ne_nil hb
  have hcode : ∀ c, probeCode (.object o :: l :: below) v.probe c =
      if o.pendingKey = some codeKey then v.probe.string? else c := by
    intro c
    rw [probeCode]
    cases o.pendingKey <;> simp [hd]
  simp only [ScanState.after, recordProbeValue_eq, ScanState.absorb, Cst.envelope, hl, rootMember, valueIsPayload_object,
    hcode, probeValues, consumePendingKey, Bool.false_eq_true, ite_false, List.append_nil, List.length_cons,
    ScanState.atLevels]

def ScanState.withCode (s : ScanState) (code : Option Text) : ScanState := { s with errorCode := code }

theorem named_after_error {s : ScanState} {o : ObjectLevel} {below : List Level} (hl : s.levels = .object o :: below)
    (hb : below ≠ []) (hd : o.directError = true) (i j : Nat) (k : List StrChar) (v : Cst) :
    (s.named i o below k).after j v =
      ((s.absorb (nameFound o.inPayload s.levels.length o.keys i k ++
        v.found (memberInPayload o.inPayload s.levels.length (strValue k)) s.levels.length j)).atLevels
          (.object (o.next k) :: below)).withCode (codeStep s.errorCode (k, v)) := by
  have hlen : s.levels.length = below.length + 1 := by rw [hl, List.length_cons]
  rw [after_deep (o := o.named k) rfl hb hd, ScanState.absorb_append, hlen]
  simp only [ScanState.named, ScanState.absorb, hb, false_and, ite_false, List.length_cons]
  rfl

theorem Members.walk_error (ms : Members) {s : ScanState} {i : Nat} {o : ObjectLevel} {below : List Level} (he : s.Early i)
    (hl : s.levels = .object o :: below) (hb : below ≠ []) (hd : o.directError = true) (hp : o.pendingKey = none) :
    ms.walk utf8Encoding scanHandler i s =
      ((s.absorb (ms.found o.inPayload s.levels.length o.keys i)).onClose
        (i + utf8Encoding.size ms.text - 1)).withCode (ms.toList.foldl codeStep s.errorCode) := by
  have hroot : ∀ o' key, rootMember (.object o' :: below) key = false := by
    obtain ⟨l, below, rfl⟩ := List.exists_cons_of_ne_nil hb
    exact fun _ _ => rfl
  have hclose : ∀ (s : ScanState) (c : Option Text) (j : Nat), (s.withCode c).onClose j = (s.onClose j).withCode c := by
    intro s c j
    obtain ⟨levels⟩ := s
    cases levels <;> rfl
  cases ms with
  | last w₁ k w₂ w₃ v w₄ =>
    have hn := onString_name hl hp (he.mono (Nat.le_add_right i (utf8Encoding.size w₁.chars))) k
    have hv := v.walk_eq (early_named he o below w₁ k w₂ w₃) fun _ _ => ⟨List.cons_ne_nil _ _, hroot _ _⟩
    rw [named_after_error hl hb hd] at hv
    rw [Members.walk_last, hn, hv, hclose, onClose_next (s := s.absorb _) hl, size_members_last, Nat.add_sub_cancel]
    rfl
  | more w₁ k w₂ w₃ v w₄ rest =>
    have hn := onString_name hl hp (he.mono (Nat.le_add_right i (utf8Encoding.size w₁.chars))) k
    have hv := v.walk_eq (early_named he o below w₁ k w₂ w₃) fun _ _ => ⟨List.cons_ne_nil _ _, hroot _ _⟩
    rw [named_after_error hl hb hd] at hv
    have hearly := early_members he s.levels.length o (.object (o.next k) :: below) w₁ k w₂ w₃ v w₄
    have habsorb : ∀ (s : ScanState) (c : Option Text) (f : Found), (s.withCode c).absorb f = (s.absorb f).withCode c :=
      fun _ _ _ => rfl
    have hr := rest.walk_error (s := ((s.absorb _).atLevels (.object (o.next k) :: below)).withCode
      (codeStep s.errorCode (k, v))) hearly rfl hb hd rfl
    rw [Members.walk_more, hn, hv, hr, habsorb, hclose, ScanState.absorb_atLevels, ← ScanState.absorb_append,
      onClose_next (s := s.absorb _) hl, size_members_more, Members.found]
    have hlen : (((s.absorb (nameFound o.inPayload s.levels.length o.keys (i + utf8Encoding.size w₁.chars) k ++
      v.found (memberInPayload o.inPayload s.levels.length (strValue k)) s.levels.length (valueOffset i w₁ k w₂ w₃))).atLevels
        (.object (o.next k) :: below)).withCode (codeStep s.errorCode (k, v))).levels.length = s.levels.length := by
      rw [hl]; rfl
    rw [hlen]
    rfl

theorem probeCode_root {o : ObjectLevel} (hd : o.directError = false) (p : ProbeValue) (c : Option Text) :
    probeCode [.object o] p c = if o.pendingKey = some errorKey then none else c := by
  rw [probeCode]
  cases o.pendingKey <;> simp [hd]

/-- A member value of the root object. -/
theorem Cst.walk_root (v : Cst) {s : ScanState} {i : Nat} {o : ObjectLevel} (he : s.Early i) (hl : s.levels = [.object o])
    (hd : o.directError = false) : v.walk utf8Encoding scanHandler i s =
      (s.after i v).withCode (if o.pendingKey = some errorKey then v.errorCode else s.errorCode) := by
  have hcode : (s.after i v).errorCode = if o.pendingKey = some errorKey then none else s.errorCode := by
    rw [ScanState.after, recordProbeValue_eq, ← probeCode_root hd v.probe, ← hl]
    rfl
  have hplain : v.errorCode = none ∨ o.pendingKey ≠ some errorKey →
      (∀ ms, v = .obj ms → s.levels ≠ [] ∧ rootMember s.levels errorKey = false) →
      v.walk utf8Encoding scanHandler i s =
        (s.after i v).withCode (if o.pendingKey = some errorKey then v.errorCode else s.errorCode) := by
    intro hnone hroot
    have hsame : (if o.pendingKey = some errorKey then v.errorCode else s.errorCode) = (s.after i v).errorCode := by
      rw [hcode]
      rcases hnone with hnone | hne
      · rw [hnone]
      · rw [if_neg hne, if_neg hne]
    rw [v.walk_eq he hroot, hsame]
    rfl
  cases v with
  | obj ms =>
    by_cases hkey : o.pendingKey = some errorKey
    · have herr : rootMember s.levels errorKey = true := by rw [hl]; simp [rootMember, Level.pendingKey, hkey]
      have hlev : (s.onOpen i true).levels = .object ⟨[], valueIsPayload s.levels, rootMember s.levels errorKey, i,
          rootMember s.levels payloadKey, none⟩ :: consumePendingKey s.levels := by
        rw [onOpen_eq]; rfl
      have hs := ms.walk_error (early_onOpen he true) hlev (by rw [hl]; exact List.cons_ne_nil _ _) herr rfl
      have hsize : i + 1 + utf8Encoding.size ms.text - 1 + 1 = i + utf8Encoding.size (Cst.obj ms).text := by
        simp only [Cst.text, Encoding.size_cons utf8Encoding (c := '{') (by decide)]
        omega
      have hlen : (s.onOpen i true).levels.length = s.levels.length + 1 := by
        rw [onOpen_eq, List.length_cons, length_consumePendingKey]
      have hopen : (s.onOpen i true).errorCode = none := by
        rw [onOpen_eq, recordProbeValue_eq]
        change probeCode s.levels _ s.errorCode = none
        rw [hl, probeCode_root hd, if_pos hkey]
      rw [hlen, onClose_onOpen, hsize, hopen] at hs
      rw [if_pos hkey]
      exact hs
    · refine hplain (.inr hkey) fun _ _ => ⟨by rw [hl]; exact List.cons_ne_nil _ _, ?_⟩
      rw [hl]
      simpa [rootMember, Level.pendingKey] using hkey
  | null => exact hplain (.inl rfl) fun _ h => by cases h
  | bool b => exact hplain (.inl rfl) fun _ h => by cases h
  | num n => exact hplain (.inl rfl) fun _ h => by cases h
  | str b => exact hplain (.inl rfl) fun _ h => by cases h
  | arr0 w => exact hplain (.inl rfl) fun _ h => by cases h
  | arr es => exact hplain (.inl rfl) fun _ h => by cases h
  | obj0 w => exact hplain (.inl rfl) fun _ h => by cases h

/-- What a top-level member makes of the map, of the error code and of the correlation. -/
def valueStep (map : Text → Option ProbeValue) (m : List StrChar × Cst) : Text → Option ProbeValue :=
  (strValue m.1).elim map fun key => insertValue map key m.2.probe

def errorStep (code : Option Text) (m : List StrChar × Cst) : Option Text :=
  if strValue m.1 = some errorKey then m.2.errorCode else code

def safetyStep (safety : CorrelationSafety) (m : List StrChar × Cst) : CorrelationSafety :=
  if strValue m.1 = none then .suppressed else safety

def Members.envelopes (i : Nat) : Members → List (Nat × Nat × Text)
  | .last w₁ k w₂ w₃ v _ => v.envelope (strValue k == some payloadKey) (valueOffset i w₁ k w₂ w₃)
  | .more w₁ k w₂ w₃ v w₄ rest =>
    v.envelope (strValue k == some payloadKey) (valueOffset i w₁ k w₂ w₃) ++
      rest.envelopes (valueOffset i w₁ k w₂ w₃ + utf8Encoding.size v.text + utf8Encoding.size w₄.chars + 1)

def ScanState.record (s : ScanState) (members : List (List StrChar × Cst)) (envelopes : List (Nat × Nat × Text)) : ScanState :=
  { s with
    topLevelValues := members.foldl valueStep s.topLevelValues
    errorCode := members.foldl errorStep s.errorCode
    correlationSafety := members.foldl safetyStep s.correlationSafety
    envelopeReplacements := s.envelopeReplacements ++ envelopes }

theorem named_after_root {s : ScanState} {o : ObjectLevel} (hl : s.levels = [.object o]) (i j : Nat) (k : List StrChar)
    (v : Cst) : ((s.named i o [] k).after j v).withCode
        (if (o.named k).pendingKey = some errorKey then v.errorCode else (s.named i o [] k).errorCode) =
      ((s.absorb (nameFound o.inPayload s.levels.length o.keys i k ++
        v.found (memberInPayload o.inPayload s.levels.length (strValue k)) s.levels.length j)).record [(k, v)]
          (v.envelope (strValue k == some payloadKey) j)).atLevels [.object (o.next k)] := by
  have hroot : rootMember [.object (o.named k)] payloadKey = (strValue k == some payloadKey) := rfl
  have hpay : valueIsPayload [.object (o.named k)] = memberInPayload o.inPayload 1 (strValue k) :=
    valueIsPayload_object (o.named k) []
  rw [ScanState.absorb_append, hl, ScanState.after, recordProbeValue_eq]
  simp only [ScanState.named, ScanState.absorb, ScanState.withCode, ScanState.record, ScanState.atLevels, hroot, hpay,
    List.length_cons, List.length_nil, List.foldl_cons, List.foldl_nil, true_and]
  rfl

theorem Members.walk_root (ms : Members) {s : ScanState} {i : Nat} {o : ObjectLevel} (he : s.Early i)
    (hl : s.levels = [.object o]) (hd : o.directError = false) (hp : o.pendingKey = none) :
    ms.walk utf8Encoding scanHandler i s =
      ((s.absorb (ms.found o.inPayload s.levels.length o.keys i)).record ms.toList (ms.envelopes i)).onClose
        (i + utf8Encoding.size ms.text - 1) := by
  cases ms with
  | last w₁ k w₂ w₃ v w₄ =>
    have hn := onString_name hl hp (he.mono (Nat.le_add_right i (utf8Encoding.size w₁.chars))) k
    have hv := v.walk_root (early_named he o [] w₁ k w₂ w₃) rfl hd
    rw [named_after_root hl] at hv
    rw [Members.walk_last, hn, hv, onClose_next (s := (s.absorb _).record _ _) hl, size_members_last, Nat.add_sub_cancel]
    rfl
  | more w₁ k w₂ w₃ v w₄ rest =>
    have hn := onString_name hl hp (he.mono (Nat.le_add_right i (utf8Encoding.size w₁.chars))) k
    have hv := v.walk_root (early_named he o [] w₁ k w₂ w₃) rfl hd
    rw [named_after_root hl] at hv
    have hearly := early_members he s.levels.length o [.object (o.next k)] w₁ k w₂ w₃ v w₄
    have hr := rest.walk_root (s := ((s.absorb (nameFound o.inPayload s.levels.length o.keys
        (i + utf8Encoding.size w₁.chars) k ++ v.found (memberInPayload o.inPayload s.levels.length (strValue k))
        s.levels.length (valueOffset i w₁ k w₂ w₃))).record [(k, v)]
          (v.envelope (strValue k == some payloadKey) (valueOffset i w₁ k w₂ w₃))).atLevels [.object (o.next k)])
      hearly rfl hd rfl
    have hrec : ∀ (s : ScanState) (f : Found) (m : List StrChar × Cst) (l : List (List StrChar × Cst))
        (e e' : List (Nat × Nat × Text)) (L : List Level),
        (((s.record [m] e).atLevels L).absorb f).record l e' = ((s.absorb f).record (m :: l) (e ++ e')).atLevels L := by
      intro s f m l e e' L
      simp only [ScanState.record, ScanState.atLevels, ScanState.absorb, List.foldl_cons, List.foldl_nil, List.append_assoc]
    rw [Members.walk_more, hn, hv, hr, hrec, ← ScanState.absorb_append, onClose_next (s := (s.absorb _).record _ _) hl,
      size_members_more, Members.found]
    simp only [ScanState.atLevels_levels, hl]
    rfl

/-! ## The whole scan -/

/-- What the scan of a text with this value has found, the value standing at offset `i`. -/
def Doc.found (d : Doc) : Found := d.value.found false 0 (utf8Encoding.size d.lead.chars)

def Doc.members (d : Doc) : List (List StrChar × Cst) := d.value.members?.getD []

def Doc.envelopes (d : Doc) : List (Nat × Nat × Text) :=
  match d.value with
  | .obj ms => ms.envelopes (utf8Encoding.size d.lead.chars + 1)
  | _ => []

theorem scanLoop_eq (d : Doc) : scanLoop 0 0 .start (utf8Encoding.text d.text) =
    (ScanState.start.absorb d.found).record d.members d.envelopes := by
  obtain ⟨lead, v, trail⟩ := d
  have he : ∀ i, ScanState.start.Early i := fun i f hf => by cases hf
  have hplain : (∀ ms, v ≠ .obj ms) → v.members?.getD [] = [] → scanLoop 0 0 .start (utf8Encoding.text (Doc.mk lead v trail).text) =
      (ScanState.start.absorb (Doc.mk lead v trail).found).record (Doc.mk lead v trail).members
        (Doc.mk lead v trail).envelopes := by
    intro hv hm
    have henv : (Doc.mk lead v trail).envelopes = [] := by
      cases v with
      | obj ms => exact absurd rfl (hv ms)
      | _ => rfl
    rw [scanLoop_doc, v.walk_eq (he _) fun ms h => absurd h (hv ms), ScanState.after, recordProbeValue_eq, Doc.members,
      hm, henv]
    rfl
  cases v with
  | obj ms =>
    have hopen : ScanState.start.onOpen (utf8Encoding.size lead.chars) true =
        ScanState.start.atLevels [.object ⟨[], false, false, utf8Encoding.size lead.chars, false, none⟩] := by
      rw [onOpen_eq, recordProbeValue_eq]; rfl
    have hs := ms.walk_root
      (s := ScanState.start.atLevels [.object ⟨[], false, false, utf8Encoding.size lead.chars, false, none⟩])
      (he (utf8Encoding.size lead.chars + 1)) rfl rfl rfl
    rw [scanLoop_doc]
    change ms.walk utf8Encoding scanHandler _ (ScanState.start.onOpen _ true) = _
    rw [hopen, hs]
    simp [ScanState.onClose, ScanState.record, ScanState.atLevels, ScanState.absorb, ScanState.start, Doc.found, Doc.members,
      Doc.envelopes, Cst.found, Cst.members?, openFound]
  | null => exact hplain (fun _ => Cst.noConfusion) rfl
  | bool b => exact hplain (fun _ => Cst.noConfusion) rfl
  | num n => exact hplain (fun _ => Cst.noConfusion) rfl
  | str b => exact hplain (fun _ => Cst.noConfusion) rfl
  | arr0 w => exact hplain (fun _ => Cst.noConfusion) rfl
  | arr es => exact hplain (fun _ => Cst.noConfusion) rfl
  | obj0 w => exact hplain (fun _ => Cst.noConfusion) rfl

theorem Cst.head_printable (v : Cst) :
    ∃ c r, v.text = c :: r ∧ 0x21 ≤ c.toNat ∧ c.toNat < 0x7f ∧ (c = '{' ↔ v.members?.isSome = true) := by
  have hnum : ∀ c : Char, c = '-' ∨ c.isDigit = true → 0x21 ≤ c.toNat ∧ c.toNat < 0x7f ∧ c ≠ '{' := by
    rintro c (rfl | hc)
    · decide
    · refine ⟨?_, ?_, fun e => by subst e; cases hc⟩
      all_goals
        rw [isDigit_iff, isDigitUnit, Bool.and_eq_true, decide_eq_true_eq, decide_eq_true_eq] at hc
        have h0 : '0'.toNat = 48 := rfl
        have h9 : '9'.toNat = 57 := rfl
        omega
  cases v with
  | num n =>
    obtain ⟨c, r, hc, hd⟩ := head_of_isNumber n.ok
    obtain ⟨h₁, h₂, h₃⟩ := hnum c hd
    exact ⟨c, r, hc, h₁, h₂, by simpa [Cst.members?] using h₃⟩
  | null => exact ⟨'n', _, rfl, by decide, by decide, by simp [Cst.members?]⟩
  | bool b => cases b <;> exact ⟨_, _, rfl, by decide, by decide, by simp [Cst.members?]⟩
  | str b => exact ⟨'"', _, rfl, by decide, by decide, by simp [Cst.members?]⟩
  | arr0 w => exact ⟨'[', _, rfl, by decide, by decide, by simp [Cst.members?]⟩
  | arr es => exact ⟨'[', _, rfl, by decide, by decide, by simp [Cst.members?]⟩
  | obj0 w => exact ⟨'{', _, rfl, by decide, by decide, by simp [Cst.members?]⟩
  | obj ms => exact ⟨'{', _, rfl, by decide, by decide, by simp [Cst.members?]⟩

theorem topLevelObject_doc (d : Doc) :
    ((d.text.dropWhile isUnicodeSpace).head? == some '{') = d.value.members?.isSome := by
  obtain ⟨c, r, hc, h₁, h₂, hobj⟩ := d.value.head_printable
  have hws : d.lead.chars.all isUnicodeSpace = true := by
    rw [List.all_eq_true]
    intro x hx
    have := List.all_eq_true.mp d.lead.ok x hx
    simp only [isWs, Bool.or_eq_true, beq_iff_eq] at this
    rcases this with ((rfl | rfl) | rfl) | rfl <;> decide
  have hstop : Stops isUnicodeSpace (d.value.text ++ d.trail.chars) := by
    rw [hc]
    refine stops_cons _ ?_
    simp only [isUnicodeSpace, Bool.or_eq_false_iff, Bool.and_eq_false_iff, decide_eq_false_iff_not, beq_eq_false_iff_ne]
    omega
  rw [Doc.text, (takeWhile_append_stops hws hstop).2, hc, List.cons_append, List.head?_cons, Bool.eq_iff_iff, beq_iff_eq,
    Option.some.injEq]
  exact hobj

end Aizign
