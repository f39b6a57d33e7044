import Aizign.Fs
import Aizign.Record

/-!
# The store: opening, reading and appending

The programs of the JSONL store, operation by operation, over the file-system
operations of `Fs`. The hooks of the durability adapter (`before`, `after`,
`primitive_complete`) stand in no line of their own where they surround one
operation: their failure is that operation's failure, with none or all of its
effect.
-/

namespace Aizign

variable [SerdeJson]

abbrev Store (α : Type) := ExceptT JournalError (Prog Op.Res) α

namespace Store

/-- Calls `o`; `wrap` makes the journal error from the text of a failure. -/
def io (o : Op) (wrap : Text → JournalError) : Store o.Val :=
  ExceptT.mk (Prog.call o fun r =>
    match r with
    | .ok v => .ret (.ok v)
    | .error e => .ret (.error (wrap e.text)))

def fail {α : Type} (e : JournalError) : Store α := ExceptT.mk (.ret (.error e))

def fromExcept {α : Type} (r : Except JournalError α) : Store α := ExceptT.mk (.ret r)

def mapErr {α : Type} (f : JournalError → JournalError) (p : Store α) : Store α :=
  ExceptT.mk (p.run >>= fun r =>
    match r with
    | .ok a => .ret (.ok a)
    | .error e => .ret (.error (f e)))

/-- Runs `p` while the lock on `i` is held; an error drops the lock. -/
def holding {α : Type} (i : Nat) (p : Store α) : Store α :=
  ExceptT.mk (p.run >>= fun r =>
    match r with
    | .ok a => .ret (.ok a)
    | .error e => .call (.unlock i) fun _ => .ret (.error e))

end Store

open Store

def unavailable (detail : String) : JournalError := .unavailable detail.toList
def corrupt (detail : String) : JournalError := .corrupt detail.toList
def outcomeUnknown (detail : String) : JournalError := .outcomeUnknown detail.toList

/-- `unavailable(format!("{context}{error}"))` and its two siblings. -/
def unavailableAt (context : String) (t : Text) : JournalError := .unavailable (context.toList ++ t)
def outcomeUnknownAt (context : String) (t : Text) : JournalError := .outcomeUnknown (context.toList ++ t)

/-- The choice `publish_commit`, `rewrite_witness` and the directory barrier make. -/
def classify (outcomeMayBeUnknown : Bool) (context : String) (t : Text) : JournalError :=
  if outcomeMayBeUnknown then outcomeUnknownAt context t else unavailableAt context t

def maxJournalBytes : Nat := 64 * 1024 * 1024

/-! ## Paths and private files -/

def pathEntryExists (n : Name) : Store Bool := do
  return (← io (.lstat n) (unavailableAt "cannot inspect path: ")).isSome

def requireExistingPath (n : Name) (label : String) : Store Unit := do
  if ← pathEntryExists n then return ()
  else fail (.unavailable ("store is missing its ".toList ++ label.toList))

def notFound : Text := "No such file or directory (os error 2)".toList

def openDirectoryNoFollow (d : DirRef) : Store Unit := do
  match ← io (.lstatDir d) (unavailableAt "cannot inspect directory: ") with
  | none => fail (unavailableAt "cannot inspect directory: " notFound)
  | some expected =>
    if expected.kind ≠ .directory then fail (unavailable "directory path must be a real directory")
    else
      io (.openDir d) (unavailableAt "cannot open directory: ")
      let actual ← io (.fstatDir d) (unavailableAt "cannot stat opened directory: ")
      if actual.kind ≠ .directory ∨ actual.device ≠ expected.device ∨ actual.inode ≠ expected.inode then
        fail (unavailable "directory changed while it was opened")
      else return ()

def openExistingPrivateDir : Store Unit := do
  match ← io (.lstatDir .state) (unavailableAt "cannot stat state directory: ") with
  | none => fail (unavailableAt "cannot stat state directory: " notFound)
  | some m =>
    if m.kind ≠ .directory then fail (unavailable "state path must be a real directory")
    else if m.mode &&& 0o7777 ≠ 0o700 then fail (unavailable "state directory must have exact mode 0700")
    else openDirectoryNoFollow .state

def privateParentOwner : Store Nat := do
  openExistingPrivateDir
  return (← io (.fstatDir .state) (unavailableAt "cannot stat state directory: ")).uid

def checkPrivateMetadata (m : Metadata) (owner : Nat) : Except JournalError Unit :=
  if m.uid ≠ owner then .error (unavailable "artifact owner must match the state directory owner")
  else if m.nlink ≠ 1 then .error (unavailable "artifact must have exactly one hard link")
  else if m.mode &&& 0o7777 ≠ 0o600 then .error (unavailable "artifact must have exact mode 0600")
  else .ok ()

def inspectPrivateFile (n : Name) (owner : Nat) : Store FileIdentity := do
  match ← io (.lstat n) (unavailableAt "cannot inspect artifact: ") with
  | none => fail (unavailableAt "cannot inspect artifact: " notFound)
  | some m =>
    if m.kind ≠ .file then fail (unavailable "reserved artifact must be a regular file")
    else
      fromExcept (checkPrivateMetadata m owner)
      return m.identity

def checkOpenedPrivateFile (i : Nat) (owner : Nat) (expected : Option FileIdentity) : Store Unit := do
  let m ← io (.fstat i) (unavailableAt "cannot stat artifact: ")
  if m.kind ≠ .file then fail (unavailable "reserved artifact must be a regular file")
  else
    fromExcept (checkPrivateMetadata m owner)
    match expected with
    | none => return ()
    | some e => if m.identity ≠ e then fail (unavailable "artifact changed while it was opened") else return ()

def openedIdentity (i : Nat) : Store FileIdentity := do
  return (← io (.fstat i) (unavailableAt "cannot stat artifact: ")).identity

def openPrivateReadFile (n : Name) : Store Nat := do
  let owner ← privateParentOwner
  let expected ← inspectPrivateFile n owner
  let file ← io (.openRead n) (unavailableAt "cannot open artifact: ")
  checkOpenedPrivateFile file owner (some expected)
  return file

def openExistingWritable (n : Name) (append : Bool) (owner : Nat) : Store Nat := do
  let expected ← inspectPrivateFile n owner
  let file ← io (.openWritable n false append) (unavailableAt "cannot open artifact: ")
  checkOpenedPrivateFile file owner (some expected)
  return file

def createWritable (n : Name) (append : Bool) (owner : Nat) : Store Nat := do
  if ← pathEntryExists n then fail (unavailable "reserved artifact appeared while opening")
  else
    let file ← io (.openWritable n true append) (unavailableAt "cannot open artifact: ")
    io .hook (unavailableAt "cannot record artifact open: ")
    io (.chmod file 0o600) (unavailableAt "cannot normalize artifact mode: ")
    checkOpenedPrivateFile file owner none
    return file

def openPrivateWritableFile (n : Name) (createNew append : Bool) : Store Nat := do
  let owner ← privateParentOwner
  if createNew then createWritable n append owner else openExistingWritable n append owner

def openPrivateUpdateFile (n : Name) (createNew : Bool) : Store Nat := openPrivateWritableFile n createNew false

def openPrivateAppendFile (n : Name) (createNew : Bool) : Store Nat := openPrivateWritableFile n createNew true

/-- `open_private_replace_file` on the commit's temporary name, with `replace_private_writable`. -/
def openPrivateReplaceFile : Store Nat := do
  let owner ← privateParentOwner
  let removeStale ← pathEntryExists .commitTemp
  if removeStale then
    let expected ← inspectPrivateFile .commitTemp owner
    let stale ← io (.openRead .commitTemp) (unavailableAt "cannot open stale temporary file: ")
    checkOpenedPrivateFile stale owner (some expected)
  let wrap := unavailableAt "cannot replace temporary file: "
  if removeStale then io (.remove .commitTemp) wrap
  let file ← io (.openWritable .commitTemp true false) wrap
  io .hook wrap
  io (.chmod file 0o600) wrap
  checkOpenedPrivateFile file owner none
  return file

def fileLen (i : Nat) : Store Nat := do
  return (← io (.fstat i) (unavailableAt "cannot stat journal: ")).len

def fileLenPath (n : Name) : Store Nat := do fileLen (← openPrivateReadFile n)

/-! ## The storage profile -/

def extFamilyMagic : Nat := 0xef53

def validateObservation (o : ProfileObservation) : Except JournalError Unit :=
  if o.mountId = 0 then .error (unavailable "opened directory has an unusable mount ID")
  else if o.filesystemType ≠ "ext4".toList then .error (unavailable "opened directory is not on exact ext4")
  else if o.mountReadOnly ∨ o.superblockReadOnly then .error (unavailable "opened directory is on read-only storage")
  else if o.filesystemMagic ≠ extFamilyMagic then
    .error (unavailable "opened directory filesystem magic does not corroborate ext4")
  else .ok ()

def observe (t : Target) : Store ProfileObservation :=
  ExceptT.mk (Prog.call (.observe t) fun r =>
    match r with
    | .ok v => .ret (.ok v)
    | .error e => .ret (.error e.journal))

def qualifyDirectory (d : DirRef) : Store ProfileObservation := do
  let observation ← observe (.dir d)
  fromExcept (validateObservation observation)
  return observation

def requireSameProfile (t : Target) (expected : ProfileObservation) : Store Unit := do
  let actual ← observe t
  fromExcept (validateObservation actual)
  if actual.mountId ≠ expected.mountId ∨ actual.deviceMajor ≠ expected.deviceMajor ∨
      actual.deviceMinor ≠ expected.deviceMinor ∨ actual.filesystemType ≠ expected.filesystemType ∨
      actual.filesystemMagic ≠ expected.filesystemMagic then
    fail (unavailable "opened artifact does not match the qualified store profile")
  else return ()

/-! ## Reading the artifacts -/

def readBoundedFile (i : Nat) (maximum : Nat) (label : Text) : Store Bytes := do
  let m ← io (.fstat i) fun t => .unavailable ("cannot stat ".toList ++ label ++ ": ".toList ++ t)
  if maximum < m.len then fail (.corrupt (label ++ " exceeds its byte bound".toList))
  else
    let bytes ← io (.read i (maximum + 1)) fun t => .unavailable ("cannot read ".toList ++ label ++ ": ".toList ++ t)
    if maximum < bytes.length then fail (.corrupt (label ++ " exceeds its byte bound".toList))
    else return bytes

def readCommitPoint (i : Nat) : Store CommitPoint := do
  let bytes ← readBoundedFile i maxCommitMetadataBytes commitWhat
  fromExcept (CommitPoint.decode bytes maxJournalBytes)

def readPublishWitness (i : Nat) : Store PublishWitness := do
  let bytes ← readBoundedFile i maxPublishMetadataBytes publishWhat
  fromExcept (PublishWitness.decode bytes)

def verifyOpenedWitness (i : Nat) (expected : PublishWitness) : Store Unit := do
  let actual ← readPublishWitness i
  if actual ≠ expected then fail (corrupt "publication witness changed during verification") else return ()

structure Snapshot where
  point : CommitPoint
  bytes : Bytes
  entries : List JournalEntry

def requirePreparedCommitRelation (w : PublishWitness) (point : CommitPoint) : Except JournalError Unit :=
  if point.generation ≠ w.publishedGeneration ∧ point.generation ≠ w.startedGeneration then
    .error (corrupt "PREPARED witness and commit generations cannot come from one append")
  else .ok ()

/-- The pure part of `validate_prepared_commit_prefix`: the bytes against the commit point. -/
def checkPreparedPrefix (bytes : Bytes) (point : CommitPoint) : Except JournalError Unit :=
  if bytes.length ≠ point.committedBytes then
    .error (corrupt "PREPARED journal changed while reading its commit prefix")
  else if sha256 bytes ≠ point.digest then
    .error (corrupt "PREPARED journal prefix does not match its commit digest")
  else match fromUtf8 bytes with
  | none => .error (corrupt "PREPARED journal is not UTF-8")
  | some contents =>
    match decodeContents contents with
    | .error e => .error e
    | .ok entries =>
      if entries.length ≠ point.committedEntries then
        .error (corrupt "PREPARED journal entry count does not match its commit")
      else .ok ()

def validatePreparedCommitPrefix (journal : Nat) (point : CommitPoint) (w : PublishWitness) : Store Unit := do
  let len ← mapErr (fun e => outcomeUnknownAt "cannot inspect PREPARED journal length: " e.text) (fileLen journal)
  if len < point.committedBytes then fail (corrupt "PREPARED journal is shorter than its visible commit prefix")
  else if point.generation = w.startedGeneration ∧ len ≠ point.committedBytes then
    fail (corrupt "new PREPARED commit does not name the complete journal image")
  else
    let bytes ← io (.read journal point.committedBytes) (outcomeUnknownAt "cannot read PREPARED journal: ")
    fromExcept (checkPreparedPrefix bytes point)

/-- The pure part of a snapshot: the committed bytes against the commit point. -/
def checkCommittedPrefix (bytes : Bytes) (point : CommitPoint) : Except JournalError Snapshot :=
  if sha256 bytes ≠ point.digest then
    .error (corrupt "journal prefix does not match the published SHA-256 digest")
  else match fromUtf8 bytes with
  | none => .error (corrupt "journal is not UTF-8 text")
  | some contents =>
    match decodeContents contents with
    | .error e => .error e
    | .ok entries =>
      if entries.length ≠ point.committedEntries then
        .error (corrupt "decoded entry count does not match committedEntries")
      else .ok ⟨point, bytes, entries⟩

def readCommittedPrefix (journal : Nat) (point : CommitPoint) : Store Bytes := do
  let physicalLen ← fileLen journal
  if point.committedBytes < physicalLen then
    fail (outcomeUnknown "journal contains bytes beyond the clean commit point")
  else if physicalLen < point.committedBytes then fail (corrupt "journal is shorter than committedBytes")
  else
    let bytes ← io (.read journal (point.committedBytes + 1)) (unavailableAt "cannot read journal: ")
    if bytes.length ≠ point.committedBytes then
      fail (corrupt "journal length changed while reading its committed prefix")
    else return bytes

def readSnapshot (profile : ProfileObservation) : Store Snapshot := do
  let journal ← openPrivateReadFile .journal
  requireSameProfile (.file journal) profile
  let commit ← openPrivateReadFile .commit
  requireSameProfile (.file commit) profile
  let point ← readCommitPoint commit
  let publish ← openPrivateReadFile .publish
  requireSameProfile (.file publish) profile
  let witness ← readPublishWitness publish
  if witness.isInitializing then
    if point ≠ CommitPoint.empty then
      fail (corrupt "initialization PREPARED requires an exact empty commit and journal")
    else if (← fileLen journal) ≠ 0 then
      fail (corrupt "initialization PREPARED requires an exact empty commit and journal")
    else fail (unavailable "store initialization is PREPARED")
  else if witness.isPreparedSuccessor then
    fromExcept (requirePreparedCommitRelation witness point)
    validatePreparedCommitPrefix journal point witness
    fail (outcomeUnknown "store publication is PREPARED and has no known result")
  else if witness ≠ PublishWitness.clean point.generation then
    fail (corrupt "clean witness generation does not match commit generation")
  else
    let bytes ← readCommittedPrefix journal point
    fromExcept (checkCommittedPrefix bytes point)

/-! ## Publication -/

def rewriteFile (i : Nat) (b : Bytes) (wrap : Text → JournalError) : Store Unit := do
  io (.setLen i) wrap
  io (.write i b) wrap

def rewriteWitness (i : Nat) (w : PublishWitness) (unknown : Bool) : Store Unit := do
  rewriteFile i w.encode (classify unknown "cannot rewrite publication witness: ")
  io (.sync i) (classify unknown "cannot synchronize publication witness: ")

def barrierDirectoryUntracked (unknown : Bool) : Store Unit := do
  mapErr (fun e => classify unknown "cannot open directory for synchronization: " e.text) (openDirectoryNoFollow .state)
  io (.syncDir .state) (classify unknown "cannot synchronize directory: ")

def publishCommit (profile : ProfileObservation) (point : CommitPoint) (unknown : Bool) : Store Unit := do
  let temp ← mapErr (fun e => classify unknown "cannot create commit temporary file: " e.text) openPrivateReplaceFile
  mapErr (fun e => classify unknown "commit temporary profile failed: " e.text) (requireSameProfile (.file temp) profile)
  io (.write temp point.encode) (classify unknown "cannot write commit metadata: ")
  io (.sync temp) (classify unknown "cannot synchronize commit metadata: ")
  io (.rename .commitTemp .commit) (classify unknown "cannot publish commit metadata: ")
  io (.syncDir .state) (classify unknown "cannot synchronize commit directory: ")
  let published ← mapErr (fun e => classify unknown "cannot reopen commit metadata: " e.text)
    (openPrivateReadFile .commit)
  mapErr (fun e => classify unknown "published commit profile failed: " e.text)
    (requireSameProfile (.file published) profile)
  let decoded ← mapErr (fun e => classify unknown "cannot verify published commit metadata: " e.text)
    (readCommitPoint published)
  if decoded ≠ point then fail (classify unknown "published commit metadata changed" []) else return ()

/-! ## Locks -/

def acquireExclusive (i : Nat) : Store Unit := do
  let acquired : Bool ← io (.tryLock i true) (unavailableAt "cannot lock journal: ")
  if acquired then return () else fail .locked

def acquireShared (i : Nat) : Store Unit := do
  let acquired : Bool ← io (.tryLock i false) (unavailableAt "cannot lock journal snapshot: ")
  if acquired then return () else fail .locked

def revalidateLock (lock : Nat) (profile : ProfileObservation) : Store Unit := do
  let reopened ← openPrivateReadFile .lock
  requireSameProfile (.file lock) profile
  requireSameProfile (.file reopened) profile
  let held ← openedIdentity lock
  let named ← openedIdentity reopened
  if held ≠ named then fail (unavailable "ownership lock path no longer names the held lock artifact") else return ()

/-! ## Initialization -/

/-- The second half of initialization: the (1,0) witness is durable, its name too; rewrite it to (1,1). -/
def completeWitness (identity : FileIdentity) (profile : ProfileObservation) (changed : String) : Store Unit := do
  barrierDirectoryUntracked false
  let reopened ← openPrivateUpdateFile .publish false
  requireSameProfile (.file reopened) profile
  if (← openedIdentity reopened) ≠ identity then fail (unavailable changed)
  else
    verifyOpenedWitness reopened PublishWitness.initializing
    rewriteWitness reopened (PublishWitness.clean 1) false
    verifyOpenedWitness reopened (PublishWitness.clean 1)

def initializeWitness (profile : ProfileObservation) : Store Unit := do
  let witness ← openPrivateUpdateFile .publish true
  requireSameProfile (.file witness) profile
  let identity ← openedIdentity witness
  rewriteWitness witness PublishWitness.initializing false
  verifyOpenedWitness witness PublishWitness.initializing
  completeWitness identity profile "publication witness changed during initialization revalidation"

def initializeFreshStore (profile : ProfileObservation) (lock journal : Nat) : Store Unit := do
  io (.sync lock) (unavailableAt "cannot synchronize lock file: ")
  io (.sync journal) (unavailableAt "cannot synchronize journal file: ")
  barrierDirectoryUntracked false
  openDirectoryNoFollow .state
  publishCommit profile CommitPoint.empty false
  initializeWitness profile

def resumeOrValidateExisting (profile : ProfileObservation) : Store Unit := do
  let commit ← openPrivateReadFile .commit
  requireSameProfile (.file commit) profile
  let point ← readCommitPoint commit
  let witnessFile ← openPrivateUpdateFile .publish false
  requireSameProfile (.file witnessFile) profile
  let witness ← readPublishWitness witnessFile
  if witness.isInitializing then
    if point ≠ CommitPoint.empty then
      fail (corrupt "initialization PREPARED requires an exact empty commit and journal")
    else if (← fileLenPath .journal) ≠ 0 then
      fail (corrupt "initialization PREPARED requires an exact empty commit and journal")
    else
      let identity ← openedIdentity witnessFile
      io (.sync witnessFile) (unavailableAt "cannot rebarrier PREPARED witness: ")
      verifyOpenedWitness witnessFile PublishWitness.initializing
      completeWitness identity profile "publication witness changed during PREPARED revalidation"
  else if witness.isPreparedSuccessor then
    fromExcept (requirePreparedCommitRelation witness point)
    let journal ← mapErr (fun e => outcomeUnknownAt "cannot reopen PREPARED journal: " e.text)
      (openPrivateReadFile .journal)
    mapErr (fun e => outcomeUnknownAt "PREPARED journal profile failed: " e.text)
      (requireSameProfile (.file journal) profile)
    validatePreparedCommitPrefix journal point witness
    fail (outcomeUnknown "store is left at a PREPARED publication generation")
  else
    let _ ← readSnapshot profile
    return ()

/-- More than the components any path can have. -/
def maxPathDepth : Nat := 4096

/-- `nearest_existing_parent`, at the `k`-th parent; a path beyond its first component has none. -/
def nearestExistingParent : (fuel k : Nat) → Store DirRef
  | 0, _ => fail (unavailable "state path has no existing parent")
  | fuel + 1, k => do
    match ← io (.lstatDir (.parent k)) (unavailableAt "cannot inspect nearest state parent: ") with
    | some m =>
      if m.kind = .directory then return .parent k
      else fail (unavailable "nearest state parent is not a real directory")
    | none => nearestExistingParent fuel (k + 1)

def createStateDirectory : Store ProfileObservation := do
  let parent ← nearestExistingParent maxPathDepth 0
  openDirectoryNoFollow parent
  let parentProfile ← qualifyDirectory parent
  io .mkdir (unavailableAt "cannot create state directory: ")
  io (.chmodDir 0o700) (unavailableAt "cannot normalize state directory: ")
  openExistingPrivateDir
  let stateProfile ← qualifyDirectory .state
  requireSameProfile (.dir .state) parentProfile
  io (.syncDir .state) (unavailableAt "cannot synchronize state directory: ")
  io (.syncDir parent) (unavailableAt "cannot synchronize parent directory: ")
  return stateProfile

def ensureStateDirectory : Store ProfileObservation := do
  if (← io (.lstatDir .state) (unavailableAt "cannot inspect path: ")).isSome then
    openExistingPrivateDir
    qualifyDirectory .state
  else createStateDirectory

/-! ## The writer -/

/-- Which artifacts `open` saw before it took the lock. -/
structure Seen where
  lock : Bool
  journal : Bool
  commit : Bool
  publish : Bool

def Seen.any (f : Seen) : Bool := f.lock || f.journal || f.commit || f.publish

def Seen.incomplete (f : Seen) : Bool := f.any && !(f.lock && f.journal && f.commit)

def seenArtifacts : Store Seen := do
  let lock ← pathEntryExists .lock
  let journal ← pathEntryExists .journal
  let commit ← pathEntryExists .commit
  let publish ← pathEntryExists .publish
  return ⟨lock, journal, commit, publish⟩

/-- What `open_with_ops` does under the lock. -/
def openLocked (seen : Seen) (profile : ProfileObservation) (lock : Nat) : Store Unit := do
  io .hook (unavailableAt "cannot record writer lock acquisition: ")
  let journal ← openPrivateAppendFile .journal (!seen.journal)
  requireSameProfile (.file journal) profile
  if seen.any then
    let commit ← openPrivateReadFile .commit
    requireSameProfile (.file commit) profile
    let point ← readCommitPoint commit
    if seen.publish then resumeOrValidateExisting profile
    else if point ≠ CommitPoint.empty then
      fail (unavailable "v2 commit metadata exists without its publication witness")
    else if (← fileLen journal) ≠ 0 then
      fail (unavailable "v2 commit metadata exists without its publication witness")
    else initializeWitness profile
  else initializeFreshStore profile lock journal

/-- What `open_with_ops` does once the state directory is there. -/
def openArtifacts (profile : ProfileObservation) : Store Nat := do
  let seen ← seenArtifacts
  if seen.incomplete then
    fail (unavailable "partial pre-marker store state is unsupported and must be discarded")
  else
    let lock ← openPrivateUpdateFile .lock (!seen.lock)
    requireSameProfile (.file lock) profile
    acquireExclusive lock
    holding lock (openLocked seen profile lock)
    return lock

/-- `JsonlJournal::open_with_ops`; the value is the held lock file. -/
def openWriter : Store Nat := do
  let profile ← ensureStateDirectory
  openArtifacts profile

/-- From the PREPARED rewrite to the end of `append_with_ops`. -/
def publishAppend (profile : ProfileObservation) (snapshot : Snapshot) (witness journal : Nat) (entry : JournalEntry)
    (line : Bytes) : Store JournalEntry := do
  let next := snapshot.point.generation + 1
  rewriteWitness witness (PublishWitness.prepared next) true
  mapErr (fun e => outcomeUnknownAt "PREPARED verification failed: " e.text)
    (verifyOpenedWitness witness (PublishWitness.prepared next))
  io (.append journal line) (outcomeUnknownAt "journal write failed: ")
  io (.sync journal) (outcomeUnknownAt "journal barrier failed: ")
  publishCommit profile (CommitPoint.forPrefix (snapshot.bytes ++ line) entry.seq) true
  rewriteWitness witness (PublishWitness.clean next) true
  mapErr (fun e => outcomeUnknownAt "CLEAN verification failed: " e.text)
    (verifyOpenedWitness witness (PublishWitness.clean next))
  io .hook (outcomeUnknownAt "append completion failed: ")
  return entry

/-- `JsonlJournal::append_with_ops` on the journal that holds `lock`. -/
def appendWithOps (lock : Nat) (event : WorkflowEvent) (time : BoundedTimestamp) : Store JournalEntry := do
  openExistingPrivateDir
  let profile ← qualifyDirectory .state
  revalidateLock lock profile
  let snapshot ← readSnapshot profile
  if snapshot.point.generation = maxJournalEntries + 1 then fail (.boundExceeded maxJournalEntries)
  else
    let witness ← openPrivateUpdateFile .publish false
    requireSameProfile (.file witness) profile
    let current ← readPublishWitness witness
    if current ≠ PublishWitness.clean snapshot.point.generation then
      fail (corrupt "publication witness changed after append revalidation")
    else
      let journal ← openPrivateAppendFile .journal false
      requireSameProfile (.file journal) profile
      let entry : JournalEntry := ⟨snapshot.entries.length + 1, time, event⟩
      let line ← fromExcept (encodeEntry entry)
      publishAppend profile snapshot witness journal entry (utf8 (line ++ ['\n']))

/-- `load_committed`, the same for the writer and the reader. -/
def loadCommitted (lock : Nat) : Store (List JournalEntry) := do
  openExistingPrivateDir
  let profile ← qualifyDirectory .state
  revalidateLock lock profile
  return (← readSnapshot profile).entries

/-! ## The reader -/

/-- What `open_with_profile` reads before it takes the lock; the value is the lock file. -/
def openReaderUnlocked : Store Nat := do
  openExistingPrivateDir
  let profile ← qualifyDirectory .state
  requireExistingPath .lock "ownership lock"
  requireExistingPath .journal "journal"
  requireExistingPath .commit "commit metadata"
  let lock ← openPrivateReadFile .lock
  requireSameProfile (.file lock) profile
  let journal ← openPrivateReadFile .journal
  requireSameProfile (.file journal) profile
  let commit ← openPrivateReadFile .commit
  requireSameProfile (.file commit) profile
  let _ ← readCommitPoint commit
  requireExistingPath .publish "publication witness"
  let publish ← openPrivateReadFile .publish
  requireSameProfile (.file publish) profile
  return lock

/-- `JsonlJournalReader::open_with_profile`; the value is the lock file, held shared. -/
def openReader : Store Nat := do
  let lock ← openReaderUnlocked
  acquireShared lock
  return lock

end Aizign
