import Aizign.JsonTokenWalk

/-!
# The lexical scan of the TypeScript package

`scanJsonTokens` of the protocol package, over the UTF-16 code units of a
string. It asks `JSON.parse` for the grammar, keeps ill-formed member names as
keys, and rewrites the text into one that can be probed without loss.
-/

namespace Aizign

/-- `JSON.parse`, on a well-formed string. -/
def jsonParse (text : Units) : Option Doc := (fromUtf16 text).bind parse

def decodedString (token : Units) : Option Units :=
  match jsonParse token with
  | some ⟨_, .str b, _⟩ => some (bodyUnits b)
  | _ => none

def isWellFormedUnicode : Units → Bool
  | [] => true
  | codeUnit :: r =>
    if 0xd800 ≤ codeUnit ∧ codeUnit ≤ 0xdbff then
      match r with
      | [] => false
      | next :: r => if next < 0xdc00 ∨ 0xdfff < next then false else isWellFormedUnicode r
    else if 0xdc00 ≤ codeUnit ∧ codeUnit ≤ 0xdfff then false
    else isWellFormedUnicode r

inductive JsonProbeValue
  | string (value : Units)
  | boolean (value : Bool)
  | number (raw : Units)
  | null
  | object
  | array
  | invalid

structure TsObjectLevel where
  keys : List Units
  inPayload : Bool
  directError : Bool
  pendingKey : Option Units

inductive TsLevel
  | object (level : TsObjectLevel)
  | array (inPayload : Bool)

def TsLevel.inPayload : TsLevel → Bool
  | .object o => o.inPayload
  | .array p => p

def tsRootMember (levels : List TsLevel) (key : Text) : Bool :=
  match levels with
  | [.object o] => o.pendingKey == some (codes key)
  | _ => false

def tsValueIsPayload (levels : List TsLevel) : Bool :=
  match levels with
  | [] => false
  | parent :: below => parent.inPayload || tsRootMember (parent :: below) payloadKey

def tsConsumePendingKey : List TsLevel → List TsLevel
  | .object o :: below => .object { o with pendingKey := none } :: below
  | levels => levels

structure TsState where
  levels : List TsLevel
  replacements : List (Nat × Nat × Text)
  topLevelValues : Units → Option JsonProbeValue
  errorCode : Option Units
  syntaxError : Option (Nat × Text)
  failure : Option Failure
  topLevelMemberNameUnicodeDefect : Bool

def TsState.start : TsState := ⟨[], [], fun _ => none, none, none, none, false⟩

def TsState.fail (s : TsState) (candidate : Failure) : TsState :=
  { s with failure := recordFailure s.failure candidate }

def TsState.syntaxFail (s : TsState) (index : Nat) (message : Text) : TsState :=
  { s with syntaxError := some (s.syntaxError.getD (index, message)) }

def TsState.replace (s : TsState) (start last : Nat) (replacement : Text) : TsState :=
  { s with replacements := s.replacements ++ [(start, last, replacement)] }

def JsonProbeValue.string? : JsonProbeValue → Option Units
  | .string s => some s
  | _ => none

/-- `recordValue`. -/
def TsState.recordProbe (s : TsState) (value : JsonProbeValue) : TsState :=
  match s.levels with
  | .object o :: below =>
    match o.pendingKey with
    | none => s
    | some key =>
      let s := if below.isEmpty then
          { s with
            topLevelValues := fun k => if k = key then some value else s.topLevelValues k
            errorCode := if key = codes errorKey then none else s.errorCode }
        else s
      if o.directError ∧ key = codes codeKey then { s with errorCode := value.string? } else s
  | _ => s

def TsState.recordValue (s : TsState) (value : JsonProbeValue) : TsState :=
  let s := s.recordProbe value
  { s with levels := tsConsumePendingKey s.levels }

def TsState.inObject (s : TsState) : Bool :=
  match s.levels with
  | .object _ :: _ => true
  | _ => false

def TsState.onIllFormed (s : TsState) (index size : Nat) (isMemberName : Bool) : TsState :=
  let s := if isMemberName ∧ s.levels.length = 1 then { s with topLevelMemberNameUnicodeDefect := true } else s
  let s := s.fail ⟨.invalidUnicode, index,
    tsValueIsPayload s.levels || s.levels.head?.any TsLevel.inPayload, unicodeMessage⟩
  s.replace index (index + size) (if isMemberName then ['"', '"'] else "null".toList)

def TsState.onName (s : TsState) (index : Nat) (name : Units) : TsState :=
  match s.levels with
  | .object o :: below =>
    let s := if name ∈ o.keys then
        s.fail ⟨.duplicateMember, index, o.inPayload || (below.isEmpty && name == codes payloadKey), duplicateMessage⟩
      else s
    { s with levels := .object { o with keys := name :: o.keys, pendingKey := some name } :: below }
  | _ => s

def TsState.onString (s : TsState) (index size : Nat) (decoded : Option Units) (colon : Bool) : TsState :=
  match decoded with
  | none => (s.syntaxFail index "frame contains an invalid JSON string token".toList).recordValue .invalid
  | some value =>
    let isMemberName := colon && s.inObject
    let unicodeValid := isWellFormedUnicode value
    let s := if !unicodeValid then s.onIllFormed index size isMemberName else s
    if isMemberName then s.onName index value else s.recordValue (if unicodeValid then .string value else .invalid)

def TsState.onOpen (s : TsState) (isObject : Bool) : TsState :=
  let inPayload := tsValueIsPayload s.levels
  let directError := isObject && tsRootMember s.levels errorKey
  let s := s.recordValue (if isObject then .object else .array)
  { s with levels := (if isObject then .object ⟨[], inPayload, directError, none⟩ else .array inPayload) :: s.levels }

def isCanonicalToken (token : Units) : Bool :=
  token == ['0'.toNat] ||
    (!(stripMinus token).isEmpty && (stripMinus token).head? != some '0'.toNat && (stripMinus token).all isDigitUnit)

def TsState.onNumber (s : TsState) (index : Nat) (token : Units) : TsState :=
  if !isJsonNumber token then s.syntaxFail index "frame contains an invalid JSON number token".toList
  else
    let s := s.recordProbe (.number token)
    let inPayload := tsValueIsPayload s.levels
    let s := if !isCanonicalToken token then s.fail ⟨.noncanonicalNumber, index, inPayload, numberMessage⟩ else s
    let s := s.replace index (index + token.length) ['0']
    { s with levels := tsConsumePendingKey s.levels }

def tsReader : TokenReader TsState where
  unterminated s index := s.syntaxFail index "frame contains an unterminated JSON string".toList
  string s index size units colon := s.onString index (size + 1) (decodedString ('"'.toNat :: units.take size)) colon
  opened s _ isObject := s.onOpen isObject
  closed s _ := { s with levels := s.levels.tail }
  number s index token := s.onNumber index token
  literal s _ units := s.recordValue (if units.take 4 = codes "true".toList then .boolean true
    else if units.take 5 = codes "false".toList then .boolean false else .null)

structure JsonTokenScan where
  syntaxError : Option (Nat × Text)
  failure : Option Failure
  probeText : Units
  topLevelObject : Bool
  topLevelValues : Units → Option JsonProbeValue
  topLevelMemberNameUnicodeDefect : Bool
  errorCode : Option Units

/-- What `trimStart` removes. -/
def isTrimmed (u : Nat) : Bool :=
  (0x09 ≤ u && u ≤ 0x0d) || u == 0x20 || u == 0xa0 || u == 0x1680 || (0x2000 ≤ u && u ≤ 0x200a) || u == 0x2028 ||
    u == 0x2029 || u == 0x202f || u == 0x205f || u == 0x3000 || u == 0xfeff

def tsScanJsonTokens (text : Units) : JsonTokenScan :=
  match jsonParse text with
  | none => ⟨some (0, "frame is not valid JSON".toList), none, text, false, fun _ => none, false, none⟩
  | some _ =>
    let s := tokenLoop tsReader 0 0 .start text
    { syntaxError := s.syntaxError
      failure := s.failure
      probeText := applyReplacements text s.replacements
      topLevelObject := (text.dropWhile isTrimmed).head? == some '{'.toNat
      topLevelValues := s.topLevelValues
      topLevelMemberNameUnicodeDefect := s.topLevelMemberNameUnicodeDefect
      errorCode := s.errorCode }

end Aizign
