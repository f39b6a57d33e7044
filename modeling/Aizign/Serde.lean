import Aizign.Unicode

/-!
# Typed JSON decoding

What a derived `Deserialize` implementation does with a JSON value, as
`serde_json` documents it: a struct is read from an object or from a positional
array, a unit variant from its name or from an object whose only member is that
name with the value `null`, an unsigned integer only from a token of digits.
Where a value has several defects, the one reported here may be another than the
first in source order.
-/

namespace Aizign

/-! ## Decoded strings and numbers -/

def hexDigit (c : Char) : Nat :=
  if c.isDigit then c.toNat - '0'.toNat
  else if 'a' ≤ c then c.toNat - 'a'.toNat + 10
  else c.toNat - 'A'.toNat + 10

def escapeCode (e : Char) : Nat :=
  if e = 'b' then 0x08 else if e = 'f' then 0x0c else if e = 'n' then 0x0a
  else if e = 'r' then 0x0d else if e = 't' then 0x09 else e.toNat

/-- The UTF-16 code units one string character denotes. -/
def StrChar.units : StrChar → List Nat
  | .raw c _ => utf16Char c
  | .esc e _ => [escapeCode e]
  | .uni a b c d _ => [((hexDigit a * 16 + hexDigit b) * 16 + hexDigit c) * 16 + hexDigit d]

def bodyUnits (b : List StrChar) : List Nat := b.flatMap StrChar.units

/-- The decoded string; `none` when it has a lone surrogate. -/
def strValue (b : List StrChar) : Option Text := fromUtf16 (bodyUnits b)

def digitsValue (t : Text) : Nat := t.foldl (fun n c => 10 * n + (c.toNat - '0'.toNat)) 0

def natToken (t : Text) : Option Nat := if t.all Char.isDigit && !t.isEmpty then some (digitsValue t) else none

/-- Digits before and after the point, and the exponent, of a number token without its sign. -/
def numberParts (t : Text) : Text × Text × Int :=
  let int := t.takeWhile Char.isDigit
  let r := t.dropWhile Char.isDigit
  let (frac, r) := match r with
    | '.' :: r => (r.takeWhile Char.isDigit, r.dropWhile Char.isDigit)
    | r => ([], r)
  let exp : Int := match r with
    | _ :: '-' :: r => -(digitsValue r)
    | _ :: '+' :: r => digitsValue r
    | _ :: r => digitsValue r
    | [] => 0
  (int, frac, exp)

/-! ## Members and elements -/

def Items.toList : Items → List Cst
  | .last _ v _ => [v]
  | .more _ v _ rest => v :: rest.toList

def Members.toList : Members → List (List StrChar × Cst)
  | .last _ k _ _ v _ => [(k, v)]
  | .more _ k _ _ v _ rest => (k, v) :: rest.toList

def Cst.members? : Cst → Option (List (List StrChar × Cst))
  | .obj0 _ => some []
  | .obj ms => some ms.toList
  | _ => none

def Cst.elements? : Cst → Option (List Cst)
  | .arr0 _ => some []
  | .arr es => some es.toList
  | _ => none

/-! ## Errors -/

inductive DeError
  | syntaxError
  | invalidType (got expected : Text)
  | unknownField (name : Text)
  | unknownVariant (name : Text)
  | missingField (name : Text)
  | duplicateField (name : Text)
  | invalidLength (got expected : Nat)
  | trailing
  | loneSurrogate
  | numberRange
  | recursionLimit
  | custom (message : Text)
  deriving DecidableEq

def decimal (n : Nat) : Text := Nat.toDigits 10 n

def u64Max : Nat := 2 ^ 64 - 1
def u32Max : Nat := 2 ^ 32 - 1

/-- What the sources leave to `serde_json`: the text that `Display` gives the error of decoding a document as a type,
and the number tokens that do not fit a double. -/
class SerdeJson where
  display : (type : Text) → (document : Bytes) → DeError → Text
  outOfRange : (token : Text) → Bool
  outOfRange_decimal : ∀ n ≤ u64Max, outOfRange (decimal n) = false

/-- How an invalid-type error names the value it found. -/
def Cst.unexpected : Cst → Text
  | .null => "null".toList
  | .bool b => "boolean `".toList ++ (if b then "true".toList else "false".toList) ++ "`".toList
  | .num n => "number `".toList ++ n.tok ++ "`".toList
  | .str b => "string \"".toList ++ (strValue b).getD [] ++ "\"".toList
  | .arr0 _ | .arr _ => "sequence".toList
  | .obj0 _ | .obj _ => "map".toList

/-! ## Decoders -/

abbrev De (α : Type) := Cst → Except DeError α

def deString : De Text
  | .str b => (strValue b).elim (.error .loneSurrogate) .ok
  | c => .error (.invalidType c.unexpected "a string".toList)

def deUnsigned (max : Nat) : De Nat
  | .num n =>
    match natToken n.tok with
    | some k => if k ≤ max then .ok k else .error (.invalidType (Cst.num n).unexpected "an unsigned integer".toList)
    | none => .error (.invalidType (Cst.num n).unexpected "an unsigned integer".toList)
  | c => .error (.invalidType c.unexpected "an unsigned integer".toList)

def deU64 : De Nat := deUnsigned u64Max
def deU32 (c : Cst) : Except DeError UInt32 := (deUnsigned u32Max c).map UInt32.ofNat

def deBool : De Bool
  | .bool b => .ok b
  | c => .error (.invalidType c.unexpected "a boolean".toList)

def deOption {α} (d : De α) : De (Option α)
  | .null => .ok none
  | c => (d c).map some

/-- A unit variant: its name, or `{"name": null}`. -/
def deVariant (names : List Text) (c : Cst) : Except DeError Nat :=
  let named (k : List StrChar) : Except DeError Nat :=
    match strValue k with
    | none => .error .loneSurrogate
    | some s => if s ∈ names then .ok (names.idxOf s) else .error (.unknownVariant s)
  match c with
  | .str b => named b
  | .obj (.last _ k _ _ v _) =>
    match named k, v with
    | .ok i, .null => .ok i
    | .ok _, v => .error (.invalidType v.unexpected "unit".toList)
    | .error e, _ => .error e
  | .obj _ => .error .trailing
  | c => .error (.invalidType c.unexpected "string or map".toList)

structure Field where
  name : Text
  /-- `#[serde(default)]` -/
  default : Bool

def fieldNames (fs : List Field) : List Text := fs.map Field.name

/-- The decoded member names; fails on a lone surrogate. -/
def memberNames (ms : List (List StrChar × Cst)) : Except DeError (List (Text × Cst)) :=
  ms.mapM fun m => (strValue m.1).elim (.error .loneSurrogate) fun n => .ok (n, m.2)

def lookupMember (ms : List (Text × Cst)) (n : Text) : Option Cst := (ms.find? fun m => m.1 = n).map Prod.snd

/-- A struct from an object: each field's value, in the order of the fields. -/
def deMap (fs : List Field) (deny : Bool) (ms : List (Text × Cst)) : Except DeError (List (Option Cst)) := do
  if deny then
    match ms.find? fun m => m.1 ∉ fieldNames fs with
    | some m => throw (.unknownField m.1)
    | none => pure ()
  match fs.find? fun f => 1 < (ms.filter fun m => m.1 = f.name).length with
  | some f => throw (.duplicateField f.name)
  | none => pure ()
  match fs.find? fun f => !f.default && (lookupMember ms f.name).isNone with
  | some f => throw (.missingField f.name)
  | none => pure ()
  return fs.map fun f => lookupMember ms f.name

def deSeq (fs : List Field) (vs : List Cst) : Except DeError (List (Option Cst)) :=
  if fs.length < vs.length then .error .trailing
  else if (fs.drop vs.length).any fun f => !f.default then .error (.invalidLength vs.length fs.length)
  else .ok (vs.map some ++ (fs.drop vs.length).map fun _ => none)

def deStruct (fs : List Field) (deny : Bool) (c : Cst) : Except DeError (List (Option Cst)) :=
  match c.members? with
  | some ms => memberNames ms >>= deMap fs deny
  | none =>
    match c.elements? with
    | some vs => deSeq fs vs
    | none => .error (.invalidType c.unexpected "struct".toList)

def required {α} (f : Field) (d : De α) : Option Cst → Except DeError α
  | some c => d c
  | none => .error (.missingField f.name)

def optional {α} (d : De (Option α)) : Option Cst → Except DeError (Option α)
  | some c => d c
  | none => .ok none

section
variable [SerdeJson]

mutual

/-- What `serde_json::Value` refuses: nesting beyond `depth`, lone surrogates, numbers beyond a double. -/
def deValue : Nat → Cst → Except DeError Unit
  | depth, .arr es => if depth ≤ 1 then .error .recursionLimit else deValues (depth - 1) es
  | depth, .obj ms => if depth ≤ 1 then .error .recursionLimit else deValueMembers (depth - 1) ms
  | depth, .arr0 _ | depth, .obj0 _ => if depth ≤ 1 then .error .recursionLimit else .ok ()
  | _, .str b => (strValue b).elim (.error .loneSurrogate) fun _ => .ok ()
  | _, .num n => if SerdeJson.outOfRange n.tok then .error .numberRange else .ok ()
  | _, .null | _, .bool _ => .ok ()

def deValues : Nat → Items → Except DeError Unit
  | depth, .last _ v _ => deValue depth v
  | depth, .more _ v _ rest => do deValue depth v; deValues depth rest

def deValueMembers : Nat → Members → Except DeError Unit
  | depth, .last _ k _ _ v _ => do
    let _ ← (strValue k).elim (.error .loneSurrogate) (Except.ok : Text → _)
    deValue depth v
  | depth, .more _ k _ _ v _ rest => do
    let _ ← (strValue k).elim (.error .loneSurrogate) (Except.ok : Text → _)
    deValue depth v
    deValueMembers depth rest

end

end

/-- `serde_json::from_str`, up to the typed part. -/
def fromStr (t : Text) : Except DeError Cst :=
  match parse t with
  | some d => .ok d.value
  | none => .error .syntaxError

def recursionLimit : Nat := 128

end Aizign
