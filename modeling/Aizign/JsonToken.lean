import Aizign.Serde
import Aizign.Units

/-!
# The raw-token scan

`validate_json_grammar` and `scan_json_tokens`, over the UTF-8 code units of a
frame. A position in the frame is the list of units from there on; the loops
walk that list, with a count of units still to be passed where the source moves
its index by more than one.
-/

namespace Aizign

def isWhitespace (u : Nat) : Bool := u == 0x20 || u == 0x09 || u == 0x0a || u == 0x0d

/-- `end_of_string`, from the unit after the opening quote: the number of units up to and with the closing one. -/
def endOfString : Units → Option Nat
  | [] => none
  | [u] => if u = '"'.toNat then some 1 else none
  | u :: v :: r =>
    if u = '\\'.toNat then (endOfString r).map (· + 2)
    else if u = '"'.toNat then some 1
    else (endOfString (v :: r)).map (· + 1)

def nextNonWhitespace (units : Units) : Units := units.dropWhile isWhitespace

def isDigitUnit (u : Nat) : Bool := decide ('0'.toNat ≤ u) && decide (u ≤ '9'.toNat)

def isDelimiterUnit (u : Nat) : Bool := u == ','.toNat || u == ']'.toNat || u == '}'.toNat || u == ':'.toNat

def numberEnd (units : Units) : Nat := (units.takeWhile fun u => !isWhitespace u && !isDelimiterUnit u).length

def digitRun : Units → Option Units
  | [] => none
  | u :: r => if isDigitUnit u then some (r.dropWhile isDigitUnit) else none

def numberInt : Units → Option Units
  | [] => none
  | u :: r => if u = '0'.toNat then some r else digitRun (u :: r)

def numberFraction : Units → Option Units
  | [] => some []
  | u :: r => if u = '.'.toNat then digitRun r else some (u :: r)

def stripSign : Units → Units
  | [] => []
  | u :: r => if u = '+'.toNat ∨ u = '-'.toNat then r else u :: r

def numberExponent : Units → Option Units
  | [] => some []
  | u :: r => if u = 'e'.toNat ∨ u = 'E'.toNat then digitRun (stripSign r) else some (u :: r)

def stripMinus : Units → Units
  | [] => []
  | u :: r => if u = '-'.toNat then r else u :: r

def isJsonNumber (token : Units) : Bool :=
  (numberInt (stripMinus token) >>= numberFraction >>= numberExponent) == some []

def hexUnit (u : Nat) : Option Nat :=
  if '0'.toNat ≤ u ∧ u ≤ '9'.toNat then some (u - '0'.toNat)
  else if 'a'.toNat ≤ u ∧ u ≤ 'f'.toNat then some (u - 'a'.toNat + 10)
  else if 'A'.toNat ≤ u ∧ u ≤ 'F'.toNat then some (u - 'A'.toNat + 10)
  else none

def hex4 : Units → Option Nat
  | a :: b :: c :: d :: _ => do
    let a ← hexUnit a
    let b ← hexUnit b
    let c ← hexUnit c
    let d ← hexUnit d
    return ((a * 16 + b) * 16 + c) * 16 + d
  | _ => none

def isEscapeUnit (u : Nat) : Bool :=
  u == '"'.toNat || u == '\\'.toNat || u == '/'.toNat || u == 'b'.toNat || u == 'f'.toNat || u == 'n'.toNat ||
    u == 'r'.toNat || u == 't'.toNat

/-- How the walk over a string token ends: `past` units beyond the content it was given. -/
structure StringToken where
  syntaxValid : Bool
  unicodeValid : Bool
  past : Nat
  deriving DecidableEq

/-- The loop of `string_token_state` over `n` units of content, the first `skip` of them already read. -/
def stringTokenLoop : (skip n : Nat) → (unicodeValid : Bool) → Units → StringToken
  | skip, 0, valid, _ => ⟨true, valid, skip⟩
  | _, _ + 1, valid, [] => ⟨true, valid, 0⟩
  | skip + 1, n + 1, valid, _ :: r => stringTokenLoop skip n valid r
  | 0, n + 1, valid, u :: r =>
    if u < 0x20 then ⟨false, valid, 0⟩
    else if u = '\\'.toNat then
      match r with
      | [] => ⟨false, valid, 0⟩
      | e :: s =>
        if isEscapeUnit e then stringTokenLoop 1 n valid r
        else if e = 'u'.toNat then
          match hex4 s with
          | none => ⟨false, valid, 0⟩
          | some unit =>
            if isHighSurrogate unit then
              if (s.drop 4).take 2 = ['\\'.toNat, 'u'.toNat] then
                match hex4 (s.drop 6) with
                | none => ⟨false, valid, 0⟩
                | some low => if isLowSurrogate low then stringTokenLoop 11 n valid r else stringTokenLoop 5 n false r
              else stringTokenLoop 5 n false r
            else if isLowSurrogate unit then stringTokenLoop 5 n false r
            else stringTokenLoop 5 n valid r
        else ⟨false, valid, 0⟩
    else stringTokenLoop 0 n valid r

/-- `string_token_state` for a token of which `size` units follow the opening quote. -/
def stringTokenState (size : Nat) (units : Units) : StringToken := stringTokenLoop 0 (size - 1) true units

/-! ## The grammar -/

inductive ObjectState
  | keyOrEnd
  | key
  | colon
  | value
  | commaOrEnd
  deriving DecidableEq

inductive ArrayState
  | valueOrEnd
  | value
  | commaOrEnd
  deriving DecidableEq

inductive GrammarLevel
  | object (state : ObjectState)
  | array (state : ArrayState)
  deriving DecidableEq

/-- A string token whose opening quote has been read: its size. -/
def consumeString (units : Units) : Except Text Nat :=
  match endOfString units with
  | none => .error "frame contains an unterminated JSON string".toList
  | some size =>
    if (stringTokenState size units).syntaxValid then .ok (size + 1)
    else .error "frame contains an invalid JSON string token".toList

def codes (t : Text) : Units := t.map Char.toNat

/-- `consume_json_value`: how far the index moves, and the levels after it. -/
def consumeJsonValue (levels : List GrammarLevel) : Units → Except Text (Nat × List GrammarLevel)
  | [] => .error "frame contains an invalid JSON value".toList
  | u :: r =>
    if u = '{'.toNat then .ok (1, .object .keyOrEnd :: levels)
    else if u = '['.toNat then .ok (1, .array .valueOrEnd :: levels)
    else if u = '"'.toNat then (consumeString r).map fun n => (n, levels)
    else if u = 't'.toNat ∧ (u :: r).take 4 = codes "true".toList then .ok (4, levels)
    else if u = 'f'.toNat ∧ (u :: r).take 5 = codes "false".toList then .ok (5, levels)
    else if u = 'n'.toNat ∧ (u :: r).take 4 = codes "null".toList then .ok (4, levels)
    else if u = '-'.toNat ∨ isDigitUnit u then
      let size := numberEnd (u :: r)
      if isJsonNumber ((u :: r).take size) then .ok (size, levels)
      else .error "frame contains an invalid JSON number token".toList
    else .error "frame contains an invalid JSON value".toList

/-- One turn of the loop of `validate_json_grammar`, at a unit that is not white space. -/
def grammarStep (below : List GrammarLevel) (units : Units) : GrammarLevel → Except Text (Nat × List GrammarLevel)
  | .object .keyOrEnd =>
    match units with
    | [] => .error "JSON object member name must be a string".toList
    | u :: r =>
      if u = '}'.toNat then .ok (1, below)
      else if u = '"'.toNat then (consumeString r).map fun n => (n, .object .colon :: below)
      else .error "JSON object member name must be a string".toList
  | .object .key =>
    match units with
    | [] => .error "JSON object member name must follow a comma".toList
    | u :: r =>
      if u = '"'.toNat then (consumeString r).map fun n => (n, .object .colon :: below)
      else .error "JSON object member name must follow a comma".toList
  | .object .colon =>
    if units.head? = some ':'.toNat then .ok (1, .object .value :: below)
    else .error "JSON object member name must be followed by a colon".toList
  | .object .value => consumeJsonValue (.object .commaOrEnd :: below) units
  | .object .commaOrEnd =>
    if units.head? = some ','.toNat then .ok (1, .object .key :: below)
    else if units.head? = some '}'.toNat then .ok (1, below)
    else .error "JSON object value must be followed by a comma or closing brace".toList
  | .array .valueOrEnd =>
    if units.head? = some ']'.toNat then .ok (1, below) else consumeJsonValue (.array .commaOrEnd :: below) units
  | .array .value => consumeJsonValue (.array .commaOrEnd :: below) units
  | .array .commaOrEnd =>
    if units.head? = some ','.toNat then .ok (1, .array .value :: below)
    else if units.head? = some ']'.toNat then .ok (1, below)
    else .error "JSON array value must be followed by a comma or closing bracket".toList

/-- The loop, with `skip` units of the token just read still to pass. -/
def grammarLoop : (skip : Nat) → List GrammarLevel → Units → Except Text Unit
  | _, [], [] => .ok ()
  | _, level :: below, [] => (grammarStep below [] level).map fun _ => ()
  | skip + 1, levels, _ :: r => grammarLoop skip levels r
  | 0, levels, u :: r =>
    if isWhitespace u then grammarLoop 0 levels r
    else match levels with
      | [] => .error "frame contains bytes after its JSON value".toList
      | level :: below =>
        match grammarStep below (u :: r) level with
        | .error e => .error e
        | .ok (n, levels) => grammarLoop (n - 1) levels r

def validateUnits (units : Units) : Except Text Unit :=
  match nextNonWhitespace units with
  | [] => .error "frame must contain one JSON value".toList
  | u :: r =>
    match consumeJsonValue [] (u :: r) with
    | .error e => .error e
    | .ok (n, levels) => grammarLoop (n - 1) levels r

def validateJsonGrammar (bytes : Bytes) : Except Text Unit := validateUnits (bytes.map UInt8.toNat)

/-! ## The scan -/

def typedJsonDepthLimit : Nat := 128

def payloadKey : Text := "payload".toList
def errorKey : Text := "error".toList
def codeKey : Text := "code".toList

inductive FailureKind
  | duplicateMember
  | invalidUnicode
  | noncanonicalNumber
  deriving DecidableEq

structure Failure where
  kind : FailureKind
  index : Nat
  inPayload : Bool
  message : Text
  deriving DecidableEq

inductive ProbeValue
  | string (value : Text)
  | boolean (value : Bool)
  | number (token : Text)
  | null
  | object
  | array
  | invalid
  deriving DecidableEq

inductive CorrelationSafety
  | safe
  | suppressed
  deriving DecidableEq

structure ObjectLevel where
  keys : List Text
  inPayload : Bool
  directError : Bool
  containerStart : Nat
  topLevelPayload : Bool
  pendingKey : Option Text

structure ArrayLevel where
  inPayload : Bool
  containerStart : Nat
  topLevelPayload : Bool

inductive Level
  | object (level : ObjectLevel)
  | array (level : ArrayLevel)

def Level.inPayload : Level → Bool
  | .object o => o.inPayload
  | .array a => a.inPayload

def Level.pendingKey : Level → Option Text
  | .object o => o.pendingKey
  | .array _ => none

/-- Whether the value to come belongs to the top-level member `key`; levels stand innermost first. -/
def rootMember (levels : List Level) (key : Text) : Bool :=
  match levels with
  | [root] => root.pendingKey == some key
  | _ => false

def valueIsPayload (levels : List Level) : Bool :=
  match levels with
  | [] => false
  | parent :: below => parent.inPayload || rootMember (parent :: below) payloadKey

def consumePendingKey : List Level → List Level
  | .object o :: below => .object { o with pendingKey := none } :: below
  | levels => levels

def isCanonicalInteger (token : Text) : Bool :=
  token == ['0'] ||
    (!(dropMinus token).isEmpty && (dropMinus token).head? != some '0' && (dropMinus token).all Char.isDigit)

/-- `str::parse::<u32>`, for a token without a plus sign. -/
def parseU32 (token : Text) : Option Nat :=
  match natToken token with
  | some k => if k ≤ u32Max then some k else none
  | none => none

def recordFailure (current : Option Failure) (candidate : Failure) : Option Failure :=
  match current with
  | none => some candidate
  | some existing => if candidate.index < existing.index then some candidate else some existing

structure ScanState where
  levels : List Level
  typedReplacements : List (Nat × Nat × Text)
  envelopeReplacements : List (Nat × Nat × Text)
  /-- The map, by lookup. -/
  topLevelValues : Text → Option ProbeValue
  errorCode : Option Text
  syntaxError : Option Text
  failure : Option Failure
  correlationSafety : CorrelationSafety
  payloadIntegerOutOfRange : Bool
  payloadExceedsTypedDepth : Bool

def ScanState.start : ScanState := ⟨[], [], [], fun _ => none, none, none, none, .safe, false, false⟩

def insertValue (map : Text → Option ProbeValue) (key : Text) (value : ProbeValue) : Text → Option ProbeValue :=
  fun k => if k = key then some value else map k

def ProbeValue.string? : ProbeValue → Option Text
  | .string s => some s
  | _ => none

def recordProbeValue (s : ScanState) (value : ProbeValue) : ScanState :=
  match s.levels with
  | .object o :: below =>
    match o.pendingKey with
    | none => s
    | some key =>
      let s := if below.isEmpty then
          { s with
            topLevelValues := insertValue s.topLevelValues key value
            errorCode := if key = errorKey then none else s.errorCode }
        else s
      if o.directError ∧ key = codeKey then { s with errorCode := value.string? } else s
  | _ => s

def recordValue (s : ScanState) (value : ProbeValue) : ScanState :=
  let s := recordProbeValue s value
  { s with levels := consumePendingKey s.levels }

def unitsText (units : Units) : Text := (fromUtf8 (units.map Nat.toUInt8)).getD []

/-- `serde_json::from_str::<String>` on a token. -/
def decodeStringToken (token : Units) : Option Text :=
  match fromStr (unitsText token) with
  | .ok c => (deString c).toOption
  | .error _ => none

def ScanState.fail (s : ScanState) (candidate : Failure) : ScanState :=
  { s with failure := recordFailure s.failure candidate }

def ScanState.syntaxFail (s : ScanState) (message : Text) : ScanState :=
  { s with syntaxError := some (s.syntaxError.getD message) }

def unicodeMessage : Text := "JSON member names and string values must be well-formed Unicode".toList
def duplicateMessage : Text := "frame repeats a JSON member; repeated members are not part of the contract".toList
def numberMessage : Text := "Protocol numbers must use canonical integer spelling".toList

def ScanState.onName (s : ScanState) (index : Nat) (decoded : Option Text) : ScanState :=
  match decoded, s.levels with
  | some name, .object o :: below =>
    let s := if name ∈ o.keys then
        s.fail ⟨.duplicateMember, index, o.inPayload || (below.isEmpty && name == payloadKey), duplicateMessage⟩
      else s
    { s with levels := .object { o with keys := name :: o.keys, pendingKey := some name } :: below }
  | _, _ => s

def ScanState.onString (s : ScanState) (index : Nat) (state : StringToken) (decoded : Option Text)
    (isMemberName : Bool) : ScanState :=
  if !state.syntaxValid then s.syntaxFail "frame contains an invalid JSON string token".toList
  else if !state.unicodeValid then
    let s := if isMemberName ∧ s.levels.length = 1 then { s with correlationSafety := .suppressed } else s
    let s := s.fail ⟨.invalidUnicode, index, valueIsPayload s.levels, unicodeMessage⟩
    if isMemberName then s.onName index decoded else recordValue s .invalid
  else if decoded.isNone then s.syntaxFail "frame contains an invalid JSON string token".toList
  else if isMemberName then s.onName index decoded
  else recordValue s (decoded.elim .invalid .string)

def ScanState.onOpen (s : ScanState) (index : Nat) (isObject : Bool) : ScanState :=
  let inPayload := valueIsPayload s.levels
  let topLevelPayload := rootMember s.levels payloadKey
  let directError := isObject && rootMember s.levels errorKey
  let s := if inPayload ∧ typedJsonDepthLimit ≤ s.levels.length then { s with payloadExceedsTypedDepth := true } else s
  let s := recordValue s (if isObject then .object else .array)
  let level : Level := if isObject then .object ⟨[], inPayload, directError, index, topLevelPayload, none⟩
    else .array ⟨inPayload, index, topLevelPayload⟩
  { s with levels := level :: s.levels }

def ScanState.onClose (s : ScanState) (index : Nat) : ScanState :=
  match s.levels with
  | [] => s
  | level :: below =>
    let replacement := match level with
      | .object o => if o.topLevelPayload then [(o.containerStart, index + 1, ['{', '}'])] else []
      | .array a => if a.topLevelPayload then [(a.containerStart, index + 1, ['[', ']'])] else []
    { s with levels := below, envelopeReplacements := s.envelopeReplacements ++ replacement }

def ScanState.onNumber (s : ScanState) (index : Nat) (token : Units) : ScanState :=
  if !isJsonNumber token then s.syntaxFail "frame contains an invalid JSON number token".toList
  else
    let text := unitsText token
    let s := recordProbeValue s (.number text)
    let inPayload := valueIsPayload s.levels
    let s := if !isCanonicalInteger text then s.fail ⟨.noncanonicalNumber, index, inPayload, numberMessage⟩
      else if inPayload ∧ (parseU32 text).isNone then
        { s with
          payloadIntegerOutOfRange := true
          typedReplacements := s.typedReplacements ++ [(index, index + token.length, ['0'])] }
      else s
    { s with levels := consumePendingKey s.levels }

def ScanState.onLiteral (s : ScanState) (units : Units) : ScanState :=
  recordValue s (if units.take 4 = codes "true".toList then .boolean true
    else if units.take 5 = codes "false".toList then .boolean false else .null)

structure TokenReader (σ : Type) where
  unterminated : σ → (index : Nat) → σ
  /-- `size` of the units after the opening quote belong to the token; `colon` says whether a colon comes next. -/
  string : σ → (index size : Nat) → Units → (colon : Bool) → σ
  opened : σ → (index : Nat) → (isObject : Bool) → σ
  closed : σ → (index : Nat) → σ
  number : σ → (index : Nat) → Units → σ
  literal : σ → (index : Nat) → Units → σ

section
variable {σ : Type} (R : TokenReader σ)

/-- The loop both scanners run over their code units. -/
def tokenLoop : (index skip : Nat) → σ → Units → σ
  | _, _, s, [] => s
  | index, skip + 1, s, _ :: r => tokenLoop (index + 1) skip s r
  | index, 0, s, u :: r =>
    if u = '"'.toNat then
      match endOfString r with
      | none => R.unterminated s index
      | some size =>
        let colon := (nextNonWhitespace (r.drop size)).head? == some ':'.toNat
        tokenLoop (index + 1) size (R.string s index size r colon) r
    else if u = '{'.toNat ∨ u = '['.toNat then tokenLoop (index + 1) 0 (R.opened s index (u == '{'.toNat)) r
    else if u = '}'.toNat ∨ u = ']'.toNat then tokenLoop (index + 1) 0 (R.closed s index) r
    else if u = '-'.toNat ∨ isDigitUnit u then
      tokenLoop (index + 1) (numberEnd (u :: r) - 1) (R.number s index ((u :: r).take (numberEnd (u :: r)))) r
    else if u = 't'.toNat ∨ u = 'f'.toNat ∨ u = 'n'.toNat then tokenLoop (index + 1) 0 (R.literal s index (u :: r)) r
    else tokenLoop (index + 1) 0 s r

end

def scanReader : TokenReader ScanState where
  unterminated s _ := s.syntaxFail "frame contains an unterminated JSON string".toList
  string s index size units isMemberName :=
    s.onString index (stringTokenState size units) (decodeStringToken ('"'.toNat :: units.take size)) isMemberName
  opened s index isObject := s.onOpen index isObject
  closed s index := s.onClose index
  number s index token := s.onNumber index token
  literal s _ units := s.onLiteral units

def scanLoop : (index skip : Nat) → ScanState → Units → ScanState := tokenLoop scanReader

def spliceStep (text : Units) (acc : Units × Nat) (r : Nat × Nat × Text) : Units × Nat :=
  (acc.1 ++ (text.drop acc.2).take (r.1 - acc.2) ++ codes r.2.2, r.2.1)

def applyReplacements (text : Units) (replacements : List (Nat × Nat × Text)) : Units :=
  let acc := replacements.foldl (spliceStep text) ([], 0)
  acc.1 ++ text.drop acc.2

structure Scan where
  syntaxError : Option Text
  failure : Option Failure
  typedText : Text
  envelopeText : Text
  topLevelObject : Bool
  topLevelValues : Text → Option ProbeValue
  correlationSafety : CorrelationSafety
  errorCode : Option Text
  payloadIntegerOutOfRange : Bool
  payloadExceedsTypedDepth : Bool

/-- `char::is_whitespace`. -/
def isUnicodeSpace (c : Char) : Bool :=
  let n := c.toNat
  (0x09 ≤ n && n ≤ 0x0d) || n == 0x20 || n == 0x85 || n == 0xa0 || n == 0x1680 || (0x2000 ≤ n && n ≤ 0x200a) ||
    n == 0x2028 || n == 0x2029 || n == 0x202f || n == 0x205f || n == 0x3000

def scanJsonTokens (text : Text) : Scan :=
  let bytes := utf8Encoding.text text
  match validateUnits bytes with
  | .error message => ⟨some message, none, text, text, false, fun _ => none, .safe, none, false, false⟩
  | .ok () =>
    let s := scanLoop 0 0 .start bytes
    { syntaxError := s.syntaxError
      failure := s.failure
      typedText := unitsText (applyReplacements bytes s.typedReplacements)
      envelopeText := unitsText (applyReplacements bytes s.envelopeReplacements)
      topLevelObject := (text.dropWhile isUnicodeSpace).head? == some '{'
      topLevelValues := s.topLevelValues
      correlationSafety := s.correlationSafety
      errorCode := s.errorCode
      payloadIntegerOutOfRange := s.payloadIntegerOutOfRange
      payloadExceedsTypedDepth := s.payloadExceedsTypedDepth }

end Aizign
