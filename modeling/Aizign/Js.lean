import Aizign.JsonToken
import Aizign.JsonWrite

/-!
# JavaScript values

The values a function of the scripting language can be called with, as far as
`typeof`, the reflection on own properties, property reads and the tests on
numbers tell them apart, and the part of `JSON.stringify` that quotes a string.
-/

namespace Aizign

/-- Integral numbers by their value, negative zero apart; fractions, infinities and `NaN` by their bits. -/
inductive JsNumber
  | integral (n : Int)
  | negativeZero
  | other (bits : UInt64)
  deriving DecidableEq

/-- `Number.isInteger`. -/
def JsNumber.isInteger : JsNumber → Bool
  | .other _ => false
  | _ => true

def JsNumber.value : JsNumber → Int
  | .integral n => n
  | _ => 0

inductive PropertyKey
  | string (name : Units)
  | symbol (id : Nat)
  deriving DecidableEq

/-- An own property. An accessor is known by what reading it gives; `none` is a getter that throws. -/
inductive Property (α : Type)
  | data (value : α) (enumerable : Bool)
  | accessor (read : Option α) (enumerable : Bool)

def Property.enumerable {α : Type} : Property α → Bool
  | .data _ e => e
  | .accessor _ e => e

/-- The `value` of a data property's descriptor. -/
def Property.value? {α : Type} : Property α → Option α
  | .data v _ => some v
  | .accessor .. => none

def Property.read {α : Type} : Property α → Option α
  | .data v _ => some v
  | .accessor r _ => r

abbrev Properties (α : Type) := List (PropertyKey × Property α)

inductive Prototype (α : Type)
  | null
  | objectPrototype
  | other (reads : List (PropertyKey × Option α))

/-- `primitive` is a symbol, a bigint or a function; `array` an ordinary dense array with no other property, every
other array being an `object` that is one. A proxy is known by what its traps answer. -/
inductive JsValue
  | undefined
  | null
  | boolean (b : Bool)
  | number (n : JsNumber)
  | string (s : Units)
  | primitive
  | array (elements : List JsValue)
  | object (isProxy isArray : Bool) (prototype : Prototype JsValue) (properties : List (PropertyKey × Property JsValue))

/-- `Object.getOwnPropertyDescriptor`. -/
def ownProperty {α : Type} (ps : Properties α) (key : PropertyKey) : Option (Property α) :=
  (ps.find? fun p => p.1 = key).map Prod.snd

def ownValue {α : Type} (ps : Properties α) (key : Text) : Option α :=
  (ownProperty ps (.string (codes key))).bind Property.value?

def JsValue.own (v : JsValue) (key : Text) : Option JsValue :=
  match v with
  | .object _ _ _ ps => ownValue ps key
  | _ => none

/-- `Object.hasOwn`. -/
def hasOwn {α : Type} (ps : Properties α) (key : Text) : Bool := (ownProperty ps (.string (codes key))).isSome

/-- `Object.keys`. -/
def enumerableKeys {α : Type} (ps : Properties α) : List Units :=
  ps.filterMap fun p => match p.1 with
    | .string name => if p.2.enumerable then some name else none
    | .symbol _ => none

def Prototype.read (prototype : Prototype JsValue) (key : PropertyKey) : Option JsValue :=
  match prototype with
  | .other reads => ((reads.find? fun p => p.1 = key).map Prod.snd).getD (some .undefined)
  | _ => some .undefined

/-- A property read; `none` where it throws. -/
def readProperty (prototype : Prototype JsValue) (ps : Properties JsValue) (key : Text) : Option JsValue :=
  match ownProperty ps (.string (codes key)) with
  | some p => p.read
  | none => prototype.read (.string (codes key))

/-- `=== literal`. -/
def JsValue.isString (v : JsValue) (literal : Text) : Bool :=
  match v with
  | .string s => s == codes literal
  | _ => false

def literal (ms : List (Text × JsValue)) : Properties JsValue := ms.map fun m => (.string (codes m.1), .data m.2 true)

def jsObject (ms : List (Text × JsValue)) : JsValue := .object false false .objectPrototype (literal ms)

def optionalMember (key : Text) (value : Option JsValue) : List (Text × JsValue) := value.toList.map fun v => (key, v)

theorem codes_inj {s t : Text} : codes s = codes t ↔ s = t :=
  ⟨fun h => List.map_injective_iff.mpr (fun _ _ => Char.toNat_inj.mp) h, fun h => h ▸ rfl⟩

theorem ownValue_cons (m : Text × JsValue) (ms : List (Text × JsValue)) (key : Text) :
    ownValue (literal (m :: ms)) key = if m.1 = key then some m.2 else ownValue (literal ms) key := by
  rw [literal, List.map_cons, ← literal, ownValue, ownProperty, List.find?_cons]
  by_cases h : m.1 = key
  · simp [h, Property.value?]
  · have hne : codes m.1 ≠ codes key := fun he => h (codes_inj.mp he)
    simp only [PropertyKey.string.injEq, hne, decide_false, h, ite_false]
    rfl

theorem ownValue_append (ms ns : List (Text × JsValue)) (key : Text) :
    ownValue (literal (ms ++ ns)) key = (ownValue (literal ms) key).or (ownValue (literal ns) key) := by
  induction ms with
  | nil => rfl
  | cons m ms ih =>
    rw [List.cons_append, ownValue_cons, ownValue_cons, ih]
    by_cases h : m.1 = key
    · simp [h]
    · simp [h]

theorem ownValue_optional (name key : Text) (value : Option JsValue) :
    ownValue (literal (optionalMember name value)) key = if name = key then value else none := by
  cases value with
  | none => simp [optionalMember, literal, ownValue, ownProperty]
  | some v =>
    change ownValue (literal ((name, v) :: [])) key = _
    rw [ownValue_cons]
    by_cases h : name = key
    · simp [h]
    · rw [if_neg h, if_neg h]
      rfl

theorem hasOwn_literal (ms : List (Text × JsValue)) (key : Text) :
    hasOwn (literal ms) key = (ownValue (literal ms) key).isSome := by
  induction ms with
  | nil => rfl
  | cons m ms ih =>
    rw [ownValue_cons, literal, List.map_cons, ← literal, hasOwn, ownProperty, List.find?_cons]
    by_cases h : m.1 = key
    · simp [h]
    · have hne : codes m.1 ≠ codes key := fun he => h (codes_inj.mp he)
      simp only [PropertyKey.string.injEq, hne, decide_false, h, ite_false, ← ih]
      rfl

/-! ## Quoting -/

theorem isHex_mod (n : Nat) : isHex (hexChar (n % 16)) = true := isHex_hexChar ⟨n % 16, Nat.mod_lt n (by decide)⟩

def surrogateEscape (u : Nat) : StrChar :=
  .uni (hexChar (u / 4096 % 16)) (hexChar (u / 256 % 16)) (hexChar (u / 16 % 16)) (hexChar (u % 16)) (by simp [isHex_mod])

/-- The body of a quoted string: a lone surrogate is escaped, everything else is written as its character is. -/
def jsBody : Units → List StrChar
  | [] => []
  | u :: r =>
    if isHighSurrogate u then
      match r with
      | [] => [surrogateEscape u]
      | l :: r' =>
        if isLowSurrogate l then jsonChar (Char.ofNat (0x10000 + (u - 0xd800) * 0x400 + (l - 0xdc00))) :: jsBody r'
        else surrogateEscape u :: jsBody (l :: r')
    else if isLowSurrogate u then surrogateEscape u :: jsBody r
    else jsonChar (Char.ofNat u) :: jsBody r

def jsString (s : Units) : Cst := .str (jsBody s)

theorem codes_cons (c : Char) (t : Text) : codes (c :: t) = c.toNat :: codes t := rfl

theorem jsBody_codes {t : Text} (h : isAscii t = true) : jsBody (codes t) = jsonBody t := by
  induction t with
  | nil => rfl
  | cons c t ih =>
    rw [isAscii_cons, Bool.and_eq_true, decide_eq_true_eq] at h
    have hhigh : isHighSurrogate c.toNat = false := by simp [isHighSurrogate]; omega
    have hlow : isLowSurrogate c.toNat = false := by simp [isLowSurrogate]; omega
    rw [codes_cons]
    unfold jsBody
    simp only [hhigh, hlow, Bool.false_eq_true, ite_false, Char.ofNat_toNat, ih h.2]
    rfl

theorem jsString_codes {t : Text} (h : isAscii t = true) : jsString (codes t) = jsonString t := by
  rw [jsString, jsBody_codes h, jsonString]

end Aizign
