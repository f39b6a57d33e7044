import Aizign.Engine
import Aizign.JsonMember
import Aizign.Sha256

/-!
# Store metadata: the commit point and the publication witness

Two closed documents of one shape: checked for size, encoding, repeated members
and integer spelling, then for their version, then field by field.
-/

namespace Aizign

variable [SerdeJson]

def storeMetadataVersion : Nat := 2
def maxCommitMetadataBytes : Nat := 4 * 1024
def maxPublishMetadataBytes : Nat := 4 * 1024

/-! ## Integer spelling -/

def isTokenEnd (c : Char) : Bool := c == ',' || c == '}' || c == ']' || isWs c

def isNonzeroDigit (c : Char) : Bool := c.isDigit && c != '0'

def noncanonicalToken (tok : Text) : Bool :=
  if tok = ['0'] then false
  else (match tok with | [] => true | c :: _ => !isNonzeroDigit c) || tok.any fun c => !c.isDigit

/-- The scan of `has_noncanonical_integer_token`; `tok` is the number token being read, empty outside of one. -/
def scanIntegers : (tok : Text) → (inString escaped : Bool) → Text → Bool
  | tok, _, _, [] => !tok.isEmpty && noncanonicalToken tok
  | [], true, true, _ :: r => scanIntegers [] true false r
  | [], true, false, c :: r =>
    if c = '\\' then scanIntegers [] true true r
    else if c = '"' then scanIntegers [] false false r
    else scanIntegers [] true false r
  | [], false, _, c :: r =>
    if c = '"' then scanIntegers [] true false r
    else if c = '-' ∨ c.isDigit then scanIntegers [c] false false r
    else scanIntegers [] false false r
  | t :: tok, _, _, c :: r =>
    if isTokenEnd c then noncanonicalToken (t :: tok) || scanIntegers [] false false r
    else scanIntegers (t :: tok ++ [c]) false false r

def hasNoncanonicalIntegerToken (text : Text) : Bool := scanIntegers [] false false text

/-! ## The shared envelope -/

def storeVersionField : Field := ⟨"storeVersion".toList, true⟩

/-- `VersionProbe`: an optional version, every other member ignored. -/
def versionProbe (f : Field) (c : Cst) : Except DeError (Option Nat) := do
  match ← deStruct [f] false c with
  | [v] => optional (deOption deU64) v
  | _ => .error .trailing

/-- The checks both documents share, up to their version; `what` names the document in the details. -/
def openMetadata (what : Text) (maxBytes : Nat) (bytes : Bytes) : Except JournalError Cst :=
  if maxBytes < bytes.length then .error (.corrupt (what ++ " exceeds its byte bound".toList))
  else match fromUtf8 bytes with
  | none => .error (.corrupt (what ++ " is not UTF-8 JSON".toList))
  | some text =>
    if hasDuplicateMembers text then .error (.corrupt (what ++ " repeats a JSON member".toList))
    else if hasNoncanonicalIntegerToken text then
      .error (.corrupt (what ++ " contains a noncanonical integer".toList))
    else match fromStr text >>= fun c => (versionProbe storeVersionField c).map fun v => (c, v) with
    | .error _ => .error (.corrupt (what ++ " is not a JSON object".toList))
    | .ok (c, some v) => if v = storeMetadataVersion then .ok c else .error (.schemaUnsupported v)
    | .ok (_, none) => .error (.corrupt (what ++ " is missing storeVersion".toList))

/-! ## The commit point -/

structure CommitPoint where
  generation : Nat
  committedBytes : Nat
  committedEntries : Nat
  digest : Hash
  deriving DecidableEq

def CommitPoint.empty : CommitPoint := ⟨1, 0, 0, sha256 []⟩

def CommitPoint.forPrefix (bytes : Bytes) (committedEntries : Nat) : CommitPoint :=
  ⟨committedEntries + 1, bytes.length, committedEntries, sha256 bytes⟩

def hexTable : Text := "0123456789abcdef".toList

def encodeHex (h : Hash) : Text :=
  h.bytes.flatMap fun b => [hexTable.getD (b.toNat / 16) '0', hexTable.getD (b.toNat % 16) '0']

def nibble (b : UInt8) : Option Nat :=
  if 0x30 ≤ b.toNat ∧ b.toNat ≤ 0x39 then some (b.toNat - 0x30)
  else if 0x61 ≤ b.toNat ∧ b.toNat ≤ 0x66 then some (b.toNat - 0x61 + 10)
  else none

def decodePairs : Bytes → Option Bytes
  | a :: b :: r => do
    let hi ← nibble a
    let lo ← nibble b
    let rest ← decodePairs r
    return (hi * 16 + lo).toUInt8 :: rest
  | _ => some []

def decodeHex (value : Text) : Option Hash := do
  let bytes := utf8 value
  if bytes.length ≠ 64 then none
  else
    let decoded ← decodePairs bytes
    if h : decoded.length = 32 then some ⟨decoded, h⟩ else none

def commitFields : List Field := [⟨"storeVersion".toList, false⟩, ⟨"generation".toList, false⟩,
  ⟨"committedBytes".toList, false⟩, ⟨"committedEntries".toList, false⟩, ⟨"sha256".toList, false⟩]

structure CommitDto where
  storeVersion : Nat
  generation : Nat
  committedBytes : Nat
  committedEntries : Nat
  sha256 : Text
  deriving DecidableEq

def CommitDto.de (c : Cst) : Except DeError CommitDto := do
  match ← deStruct commitFields true c with
  | [some v, some g, some b, some e, some h] =>
    return ⟨← deU64 v, ← deU64 g, ← deU64 b, ← deU64 e, ← deString h⟩
  | _ => .error .trailing

def CommitDto.cst (d : CommitDto) : Cst := jsonStruct commitFields [some (jsonNat d.storeVersion),
  some (jsonNat d.generation), some (jsonNat d.committedBytes), some (jsonNat d.committedEntries),
  some (jsonString d.sha256)]

def CommitPoint.dto (p : CommitPoint) : CommitDto :=
  ⟨storeMetadataVersion, p.generation, p.committedBytes, p.committedEntries, encodeHex p.digest⟩

def CommitPoint.encode (p : CommitPoint) : Bytes := utf8 p.dto.cst.text

def commitWhat : Text := "commit metadata".toList

def CommitPoint.ofDto (d : CommitDto) (maxJournalBytes : Nat) : Except JournalError CommitPoint :=
  if maxJournalBytes < d.committedBytes then
    .error (.corrupt "committedBytes exceeds the journal byte bound".toList)
  else if maxJournalEntries < d.committedEntries then .error (.boundExceeded maxJournalEntries)
  else if d.generation = 0 ∨ maxJournalEntries + 1 < d.generation then
    .error (.corrupt "generation exceeds the store bound".toList)
  else if d.generation ≠ d.committedEntries + 1 then
    .error (.corrupt "generation must equal committedEntries plus one".toList)
  else match decodeHex d.sha256 with
    | none => .error (.corrupt "sha256 must be exactly 64 lowercase hexadecimal digits".toList)
    | some digest => .ok ⟨d.generation, d.committedBytes, d.committedEntries, digest⟩

def CommitPoint.decode (bytes : Bytes) (maxJournalBytes : Nat) : Except JournalError CommitPoint := do
  let c ← openMetadata commitWhat maxCommitMetadataBytes bytes
  match CommitDto.de c with
  | .error e => .error (.corrupt ("invalid commit metadata: ".toList ++ SerdeJson.display "CommitDto".toList bytes e))
  | .ok d => CommitPoint.ofDto d maxJournalBytes

/-! ## The publication witness -/

structure PublishWitness where
  startedGeneration : Nat
  publishedGeneration : Nat
  deriving DecidableEq

def PublishWitness.initializing : PublishWitness := ⟨1, 0⟩
def PublishWitness.clean (generation : Nat) : PublishWitness := ⟨generation, generation⟩
def PublishWitness.prepared (next : Nat) : PublishWitness := ⟨next, next - 1⟩

def PublishWitness.isClean (w : PublishWitness) : Bool := w.startedGeneration = w.publishedGeneration
def PublishWitness.isInitializing (w : PublishWitness) : Bool := w.startedGeneration = 1 ∧ w.publishedGeneration = 0
def PublishWitness.isPreparedSuccessor (w : PublishWitness) : Bool :=
  0 < w.publishedGeneration ∧ w.startedGeneration = w.publishedGeneration + 1

def publishFields : List Field :=
  [⟨"storeVersion".toList, false⟩, ⟨"startedGeneration".toList, false⟩, ⟨"publishedGeneration".toList, false⟩]

structure PublishDto where
  storeVersion : Nat
  startedGeneration : Nat
  publishedGeneration : Nat
  deriving DecidableEq

def PublishDto.de (c : Cst) : Except DeError PublishDto := do
  match ← deStruct publishFields true c with
  | [some v, some s, some p] => return ⟨← deU64 v, ← deU64 s, ← deU64 p⟩
  | _ => .error .trailing

def PublishDto.cst (d : PublishDto) : Cst :=
  jsonStruct publishFields [some (jsonNat d.storeVersion), some (jsonNat d.startedGeneration),
    some (jsonNat d.publishedGeneration)]

def PublishWitness.dto (w : PublishWitness) : PublishDto :=
  ⟨storeMetadataVersion, w.startedGeneration, w.publishedGeneration⟩

def PublishWitness.encode (w : PublishWitness) : Bytes := utf8 w.dto.cst.text

def publishWhat : Text := "publication witness".toList

def PublishWitness.ofDto (d : PublishDto) : Except JournalError PublishWitness :=
  let maximum := maxJournalEntries + 1
  if d.startedGeneration = 0 ∨ maximum < d.startedGeneration ∨ maximum < d.publishedGeneration then
    .error (.corrupt "publication generation exceeds the store bound".toList)
  else
    let witness : PublishWitness := ⟨d.startedGeneration, d.publishedGeneration⟩
    if !(witness.isClean || witness.isInitializing || witness.isPreparedSuccessor) then
      .error (.corrupt "publication witness generations are contradictory".toList)
    else .ok witness

def PublishWitness.decode (bytes : Bytes) : Except JournalError PublishWitness := do
  let c ← openMetadata publishWhat maxPublishMetadataBytes bytes
  match PublishDto.de c with
  | .error e => .error (.corrupt ("invalid publication witness: ".toList ++ SerdeJson.display "PublishDto".toList bytes e))
  | .ok d => PublishWitness.ofDto d

end Aizign
