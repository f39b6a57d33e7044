import Aizign.Engine
import Aizign.Commit

/-!
# Journal records

The closed line format: one accepted event on one line, and a journal as a
sequence of lines with contiguous sequence numbers.
-/

namespace Aizign

variable [SerdeJson]

def journalSchemaVersion : Nat := 1

def kindSignalAccepted : Text := "workflow.signal.accepted".toList

/-! ## Wire names -/

def Role.all : List Role := [.implementation, .review]

def Role.wire : Role → Text
  | .implementation => "implementation".toList
  | .review => "review".toList

def SignalKind.all : List SignalKind :=
  [.implementationReady, .reviewFindings, .reviewPassed, .repairSubmitted, .blocked]

def SignalKind.wire : SignalKind → Text
  | .implementationReady => "implementation_ready".toList
  | .reviewFindings => "review_findings".toList
  | .reviewPassed => "review_passed".toList
  | .repairSubmitted => "repair_submitted".toList
  | .blocked => "blocked".toList

def DigestAlgorithm.all : List DigestAlgorithm := [.sha256]

def DigestAlgorithm.wire : DigestAlgorithm → Text
  | .sha256 => "sha256".toList

/-- A unit-only enum with the wire names of `all`. -/
def deEnum {α} (all : List α) (wire : α → Text) (c : Cst) : Except DeError α := do
  let i ← deVariant (all.map wire) c
  match all[i]? with
  | some a => .ok a
  | none => .error .syntaxError

def deRole : De Role := deEnum Role.all Role.wire
def deKind : De SignalKind := deEnum SignalKind.all SignalKind.wire
def deAlgorithm : De DigestAlgorithm := deEnum DigestAlgorithm.all DigestAlgorithm.wire

/-! ## The record -/

structure DigestDto where
  algorithm : DigestAlgorithm
  hex : Text
  deriving DecidableEq

structure SignalDto where
  eventId : Text
  workflowId : Text
  assignmentId : Text
  attemptId : Text
  role : Role
  artifactRevision : Text
  candidateDigest : DigestDto
  kind : SignalKind
  findingCount : Option UInt32
  artifactRef : Option Text
  shortErrorCode : Option Text
  deriving DecidableEq

structure RecordDto where
  schemaVersion : Nat
  seq : Nat
  «at» : Nat
  kind : Text
  signal : SignalDto
  deriving DecidableEq

def digestFields : List Field := [⟨"algorithm".toList, false⟩, ⟨"hex".toList, false⟩]

def signalFields : List Field := [⟨"eventId".toList, false⟩, ⟨"workflowId".toList, false⟩,
  ⟨"assignmentId".toList, false⟩, ⟨"attemptId".toList, false⟩, ⟨"role".toList, false⟩,
  ⟨"artifactRevision".toList, false⟩, ⟨"candidateDigest".toList, false⟩, ⟨"kind".toList, false⟩,
  ⟨"findingCount".toList, true⟩, ⟨"artifactRef".toList, true⟩, ⟨"shortErrorCode".toList, true⟩]

def recordFields : List Field := [⟨"schemaVersion".toList, false⟩, ⟨"seq".toList, false⟩, ⟨"at".toList, false⟩,
  ⟨"kind".toList, false⟩, ⟨"signal".toList, false⟩]

/-- `reject_null`: reads a value, refuses `null`, then decodes; `depth` is what the recursion limit leaves there. -/
def rejectNull {α} (depth : Nat) (d : De α) (c : Cst) : Except DeError (Option α) := do
  deValue depth c
  match c with
  | .null => .error (.custom "null is not allowed; omit the field instead".toList)
  | c => (d c).map some

def DigestDto.de (c : Cst) : Except DeError DigestDto := do
  match ← deStruct digestFields true c with
  | [some a, some h] => return ⟨← deAlgorithm a, ← deString h⟩
  | _ => .error .trailing

/-- What the recursion limit leaves inside a record's signal. -/
def signalDepth : Nat := recursionLimit - 2

def SignalDto.de (c : Cst) : Except DeError SignalDto := do
  match ← deStruct signalFields true c with
  | [some e, some w, some a, some t, some r, some v, some d, some k, f, x, s] =>
    return ⟨← deString e, ← deString w, ← deString a, ← deString t, ← deRole r, ← deString v, ← DigestDto.de d,
      ← deKind k, ← optional (rejectNull signalDepth deU32) f, ← optional (rejectNull signalDepth deString) x,
      ← optional (rejectNull signalDepth deString) s⟩
  | _ => .error .trailing

def RecordDto.de (c : Cst) : Except DeError RecordDto := do
  match ← deStruct recordFields true c with
  | [some v, some s, some a, some k, some g] =>
    return ⟨← deU64 v, ← deU64 s, ← deU64 a, ← deString k, ← SignalDto.de g⟩
  | _ => .error .trailing

def DigestDto.cst (d : DigestDto) : Cst :=
  jsonStruct digestFields [some (jsonString d.algorithm.wire), some (jsonString d.hex)]

def SignalDto.cst (d : SignalDto) : Cst := jsonStruct signalFields [some (jsonString d.eventId),
  some (jsonString d.workflowId), some (jsonString d.assignmentId), some (jsonString d.attemptId),
  some (jsonString d.role.wire), some (jsonString d.artifactRevision), some d.candidateDigest.cst,
  some (jsonString d.kind.wire), d.findingCount.map fun n => jsonNat n.toNat, d.artifactRef.map jsonString,
  d.shortErrorCode.map jsonString]

def RecordDto.cst (d : RecordDto) : Cst := jsonStruct recordFields [some (jsonNat d.schemaVersion),
  some (jsonNat d.seq), some (jsonNat d.at), some (jsonString d.kind), some d.signal.cst]

def SignalParts.dto (p : SignalParts) : SignalDto :=
  ⟨p.eventId.value, p.workflowId.value, p.assignmentId.value, p.attemptId.value, p.role, p.artifactRevision.value,
    ⟨p.candidateDigest.algorithm, p.candidateDigest.hex⟩, p.kind, p.findingCount,
    p.artifactRef.map Identifier.value, p.shortErrorCode.map ShortErrorCode.value⟩

def JournalEntry.dto (e : JournalEntry) : RecordDto :=
  ⟨journalSchemaVersion, e.seq, e.at.unixSeconds, kindSignalAccepted, e.event.signal.parts.dto⟩

def encodeEntry (e : JournalEntry) : Except JournalError Text :=
  if e.seq = 0 ∨ maxJournalEntries < e.seq then
    .error (.corrupt ("entry seq ".toList ++ decimal e.seq ++ " is outside the record range 1..=".toList ++
      decimal maxJournalEntries))
  else .ok e.dto.cst.text

/-! ## Decoding -/

def lineText (n : Nat) (detail : Text) : Text := "line ".toList ++ decimal n ++ ": ".toList ++ detail

def lineField {α} (n : Nat) (name : Text) (r : Except IdentityError α) : Except JournalError α :=
  match r with
  | .ok a => .ok a
  | .error e => .error (.corrupt (lineText n ("signal.".toList ++ name ++ ": ".toList ++ e.text)))

def lineOption {α} (n : Nat) (name : Text) (new : Text → Except IdentityError α) :
    Option Text → Except JournalError (Option α)
  | none => .ok none
  | some v => (lineField n name (new v)).map some

def SignalDto.parts (n : Nat) (d : SignalDto) : Except JournalError SignalParts := do
  return {
    eventId := ← lineField n "eventId".toList (EventId.new d.eventId)
    workflowId := ← lineField n "workflowId".toList (WorkflowId.new d.workflowId)
    assignmentId := ← lineField n "assignmentId".toList (AssignmentId.new d.assignmentId)
    attemptId := ← lineField n "attemptId".toList (AttemptId.new d.attemptId)
    role := d.role
    artifactRevision := ← lineField n "artifactRevision".toList (ArtifactRevision.new d.artifactRevision)
    candidateDigest := ← lineField n "candidateDigest".toList
      (Digest.new d.candidateDigest.algorithm d.candidateDigest.hex)
    kind := d.kind
    findingCount := d.findingCount
    artifactRef := ← lineOption n "artifactRef".toList ArtifactRef.new d.artifactRef
    shortErrorCode := ← lineOption n "shortErrorCode".toList ShortErrorCode.new d.shortErrorCode }

def schemaVersionField : Field := ⟨"schemaVersion".toList, true⟩

def RecordDto.entry (n : Nat) (d : RecordDto) : Except JournalError JournalEntry :=
  if d.kind ≠ kindSignalAccepted then .error (.corrupt (lineText n "unknown record kind".toList))
  else match BoundedTimestamp.fromUnixSeconds d.at with
  | .error e => .error (.corrupt (lineText n ("at: ".toList ++ e.text)))
  | .ok time =>
    if d.seq = 0 ∨ maxJournalEntries < d.seq then
      .error (.corrupt (lineText n ("seq must be 1..=".toList ++ decimal maxJournalEntries)))
    else do
      let parts ← d.signal.parts n
      match WorkflowSignal.validate parts with
      | .error e => .error (.corrupt (lineText n ("signal: ".toList ++ e.text)))
      | .ok signal => return ⟨d.seq, time, .signalAccepted signal⟩

def decodeLine (n : Nat) (line : Text) : Except JournalError JournalEntry :=
  if hasDuplicateMembers line then .error (.corrupt (lineText n "record repeats a JSON member".toList))
  else match fromStr line >>= versionProbe schemaVersionField with
  | .error _ => .error (.corrupt (lineText n "not a JSON object".toList))
  | .ok none => .error (.corrupt (lineText n "missing schemaVersion".toList))
  | .ok (some v) =>
    if v ≠ journalSchemaVersion then .error (.schemaUnsupported v)
    else match fromStr line >>= RecordDto.de with
    | .error e => .error (.corrupt (lineText n (SerdeJson.display "RecordDto".toList (utf8 line) e)))
    | .ok d => d.entry n

/-! ## A whole journal -/

def splitLines : Text → List Text
  | [] => []
  | c :: r =>
    if c = '\n' then [] :: splitLines r
    else match splitLines r with
      | [] => [[c]]
      | l :: ls => (c :: l) :: ls

def decodeLines : List JournalEntry → List Text → Except JournalError (List JournalEntry)
  | entries, [] => .ok entries
  | entries, line :: lines =>
    if maxJournalEntries ≤ entries.length then .error (.boundExceeded maxJournalEntries)
    else
      let n := entries.length + 1
      match decodeLine n line with
      | .error e => .error e
      | .ok e =>
        if e.seq ≠ entries.length + 1 then
          .error (.corrupt (lineText n ("seq ".toList ++ decimal e.seq ++ " but ".toList ++
            decimal (entries.length + 1) ++ " expected".toList)))
        else decodeLines (entries ++ [e]) lines

def decodeContents (contents : Text) : Except JournalError (List JournalEntry) :=
  if contents.isEmpty then .ok []
  else if contents.getLast? ≠ some '\n' then
    .error (.corrupt "trailing record is truncated (no final newline)".toList)
  else decodeLines [] (splitLines contents)

end Aizign
