import Aizign.Js
import Aizign.JsonTokenTsSound
import Aizign.JsonValue

/-!
# The values of `JSON.parse`

A number is the double nearest to what its token denotes, an object has the own
keys in the order the language enumerates them. What the core writes is read as
the object literal of its members.
-/

namespace Aizign

/-! ## Numbers -/

/-- `(num / den) / 2 ^ k`. -/
def scaleBy (num den : Nat) (k : Int) : Nat × Nat := (num * 2 ^ (-k).toNat, den * 2 ^ k.toNat)

def floorLog2 (num den : Nat) : Int :=
  let d : Int := num.log2 - den.log2
  let (a, b) := scaleBy num den d
  if b ≤ a then d else d - 1

/-- `a / b`, rounded to the nearest integer, ties to even. -/
def roundHalfEven (a b : Nat) : Nat :=
  if 2 * (a % b) < b ∨ 2 * (a % b) = b ∧ a / b % 2 = 0 then a / b else a / b + 1

def infinityBits : Nat := 0x7ff * 2 ^ 52

def nearestDouble (num den : Nat) : JsNumber :=
  if num % den = 0 ∧ num / den ≤ 2 ^ 53 then .integral (num / den : Nat)
  else
    -- the exponent of the last of 53 binary places, which is bounded where the double is subnormal
    let k : Int := max (-1074) (floorLog2 num den - 52)
    let (a, b) := scaleBy num den k
    let q := roundHalfEven a b
    if 0 ≤ k then
      if 2 ^ 1024 ≤ q * 2 ^ k.toNat then .other infinityBits.toUInt64 else .integral (q * 2 ^ k.toNat : Nat)
    else if q % 2 ^ (-k).toNat = 0 then .integral (q / 2 ^ (-k).toNat : Nat)
    else .other ((k + 1075).toNat * 2 ^ 52 + q - 2 ^ 52).toUInt64

def JsNumber.negated : JsNumber → JsNumber
  | .integral n => if n = 0 then .negativeZero else .integral (-n)
  | .negativeZero => .integral 0
  | .other bits => .other (bits ^^^ (2 ^ 63 : Nat).toUInt64)

def Num.js (n : Num) : JsNumber :=
  let (int, frac, exp) := numberParts (dropMinus n.tok)
  let m := digitsValue (int ++ frac)
  let e := exp - frac.length
  let v := if 0 ≤ e then nearestDouble (m * 10 ^ e.toNat) 1 else nearestDouble m (10 ^ (-e).toNat)
  if n.tok.head? = some '-' then v.negated else v

/-! ## Objects -/

/-- `Number`, of a string of digits. -/
def unitsValue (digits : Units) : Nat := digits.foldl (fun n u => 10 * n + (u - '0'.toNat)) 0

def arrayIndex? (key : Units) : Option Nat :=
  if !key.isEmpty && key.all isDigitUnit && (key.head? != some '0'.toNat || key.length == 1) &&
      decide (unitsValue key < 2 ^ 32 - 1) then some (unitsValue key)
  else none

/-- `CreateDataProperty`: a name that is there keeps its place. -/
def createProperty (ps : List (Units × JsValue)) (m : Units × JsValue) : List (Units × JsValue) :=
  if ps.any fun p => p.1 == m.1 then ps.map fun p => if p.1 = m.1 then m else p else ps ++ [m]

/-- Array indices come first, in ascending order. -/
def ownKeyOrder (ps : List (Units × JsValue)) : List (Units × JsValue) :=
  (ps.filter fun p => (arrayIndex? p.1).isSome).mergeSort
      (fun p q => decide ((arrayIndex? p.1).getD 0 ≤ (arrayIndex? q.1).getD 0)) ++
    ps.filter fun p => (arrayIndex? p.1).isNone

def parsedProperties (ms : List (Units × JsValue)) : Properties JsValue :=
  (ownKeyOrder (ms.foldl createProperty [])).map fun p => (.string p.1, .data p.2 true)

mutual

def Cst.js : Cst → JsValue
  | .null => .null
  | .bool b => .boolean b
  | .num n => .number n.js
  | .str b => .string (bodyUnits b)
  | .arr0 _ => .array []
  | .arr es => .array es.js
  | .obj0 _ => .object false false .objectPrototype []
  | .obj ms => .object false false .objectPrototype (parsedProperties ms.js)

def Items.js : Items → List JsValue
  | .last _ v _ => [v.js]
  | .more _ v _ rest => v.js :: rest.js

def Members.js : Members → List (Units × JsValue)
  | .last _ k _ _ v _ => [(bodyUnits k, v.js)]
  | .more _ k _ _ v _ rest => (bodyUnits k, v.js) :: rest.js

end

def jsonParseValue (text : Units) : Option JsValue := (jsonParse text).map fun d => d.value.js

/-! ## What the core writes -/

theorem js_jsonString (t : Text) : (jsonString t).js = .string (utf16 t) := by
  rw [jsonString, Cst.js, bodyUnits_jsonBody]

theorem nearestDouble_nat {n : Nat} (h : n ≤ 2 ^ 53) : nearestDouble n 1 = .integral n := by
  unfold nearestDouble
  rw [if_pos ⟨Nat.mod_one n, by rwa [Nat.div_one]⟩, Nat.div_one]

theorem js_jsonNat {n : Nat} (h : n ≤ 2 ^ 53) : (jsonNat n).js = .number (.integral n) := by
  have hhead : (decimal n).head? ≠ some '-' := by
    intro hm
    have hall := all_isDigit_decimal n
    obtain ⟨r, hr⟩ := List.head?_eq_some_iff.mp hm
    rw [hr, List.all_cons] at hall
    cases hall
  rw [jsonNat, Cst.js, Num.js]
  simp only [dropMinus_decimal, numberParts_decimal, List.append_nil, List.length_nil, digitsValue_decimal, if_neg hhead]
  simp [nearestDouble_nat h]

theorem js_jsonArray (vs : List Cst) : (jsonArray vs).js = .array (vs.map Cst.js) := by
  have hitems : ∀ (v : Cst) (vs : List Cst), (jsonItems v vs).js = (v :: vs).map Cst.js := by
    intro v vs
    induction vs generalizing v with
    | nil => rfl
    | cons v' vs ih => rw [jsonItems, Items.js, ih]; rfl
  cases vs with
  | nil => rfl
  | cons v vs => rw [jsonArray, Cst.js, hitems]

def isPlainName (name : Text) : Bool := isAscii name && (arrayIndex? (codes name)).isNone

theorem js_jsonMembers (m : Text × Cst) (ms : List (Text × Cst)) :
    (jsonMembers m ms).js = (m :: ms).map fun m => (utf16 m.1, m.2.js) := by
  induction ms generalizing m with
  | nil => rw [jsonMembers, Members.js, bodyUnits_jsonBody]; rfl
  | cons m' ms ih => rw [jsonMembers, Members.js, ih, bodyUnits_jsonBody]; rfl

theorem createProperty_new {ps : List (Units × JsValue)} {m : Units × JsValue} (h : m.1 ∉ ps.map Prod.fst) :
    createProperty ps m = ps ++ [m] := by
  unfold createProperty
  rw [if_neg]
  intro hany
  obtain ⟨p, hp, he⟩ := List.any_eq_true.mp hany
  exact h (List.mem_map.mpr ⟨p, hp, beq_iff_eq.mp he⟩)

theorem foldl_createProperty {ms ps : List (Units × JsValue)} (h : ((ps ++ ms).map Prod.fst).Nodup) :
    ms.foldl createProperty ps = ps ++ ms := by
  induction ms generalizing ps with
  | nil => rw [List.foldl_nil, List.append_nil]
  | cons m ms ih =>
    have hnew : m.1 ∉ ps.map Prod.fst := by
      rw [List.map_append, List.map_cons] at h
      exact fun hm => (List.nodup_append.mp h).2.2 _ hm _ (List.mem_cons_self ..) rfl
    rw [List.foldl_cons, createProperty_new hnew, ih, List.append_assoc, List.singleton_append]
    rwa [List.append_assoc, List.singleton_append]

theorem ownKeyOrder_plain {ps : List (Units × JsValue)} (h : ∀ p ∈ ps, (arrayIndex? p.1).isNone = true) :
    ownKeyOrder ps = ps := by
  have hnone : (ps.filter fun p => (arrayIndex? p.1).isSome) = [] := by
    rw [List.filter_eq_nil_iff]
    intro p hp hs
    rw [Option.isNone_iff_eq_none.mp (h p hp)] at hs
    cases hs
  rw [ownKeyOrder, hnone, List.mergeSort_nil, List.nil_append, List.filter_eq_self.mpr h]

/-- Distinct plain names are read as an object literal. -/
theorem js_jsonObject {ms : List (Text × Cst)} (hn : (ms.map Prod.fst).Nodup) (hp : ∀ m ∈ ms, isPlainName m.1 = true) :
    (jsonObject ms).js = jsObject (ms.map fun m => (m.1, m.2.js)) := by
  have hplain : ∀ m ∈ ms, utf16 m.1 = codes m.1 ∧ (arrayIndex? (codes m.1)).isNone = true := by
    intro m hm
    have h := hp m hm
    rw [isPlainName, Bool.and_eq_true] at h
    exact ⟨(codes_eq_utf16 h.1).symm, h.2⟩
  have hcodes : (ms.map fun m => (utf16 m.1, m.2.js)) = ms.map fun m => (codes m.1, m.2.js) :=
    List.map_congr_left fun m hm => by rw [(hplain m hm).1]
  have hnodup : ((ms.map fun m => (codes m.1, m.2.js)).map Prod.fst).Nodup := by
    have hmap : (ms.map fun m => (codes m.1, m.2.js)).map Prod.fst = (ms.map Prod.fst).map codes := by
      rw [List.map_map, List.map_map]
      rfl
    rw [hmap]
    exact hn.map fun _ _ h => codes_inj.mp h
  cases ms with
  | nil => rfl
  | cons m ms =>
    have hfold : ((m :: ms).map fun m => (codes m.1, m.2.js)).foldl createProperty [] = (m :: ms).map fun m => (codes m.1, m.2.js) :=
      foldl_createProperty hnodup
    rw [jsonObject, Cst.js, js_jsonMembers, hcodes, parsedProperties, hfold, ownKeyOrder_plain, jsObject, literal, List.map_map,
      List.map_map]
    · rfl
    · intro p hmem
      obtain ⟨x, hx, rfl⟩ := List.mem_map.mp hmem
      exact (hplain x hx).2

theorem ownValue_members (ms : List (Text × Cst)) (key : Text) :
    ownValue (literal (ms.map fun m => (m.1, m.2.js))) key = (lookupMember ms key).map Cst.js := by
  induction ms with
  | nil => rfl
  | cons m ms ih =>
    rw [List.map_cons, ownValue_cons, ih, lookupMember_cons]
    by_cases h : m.1 = key
    · rw [if_pos h, if_pos h, Option.map_some]
    · rw [if_neg h, if_neg h]

end Aizign
