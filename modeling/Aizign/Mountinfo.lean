import Aizign.Store

/-!
# Mount qualification

The rows of `/proc/self/mountinfo`, the one row that carries a mount id, and
what the store profile takes from it. `findExactMount` reads every row before
it answers, so a malformed row anywhere refuses the whole text.
-/

namespace Aizign

def maxMountinfoBytes : Nat := 1024 * 1024
def maxMountinfoRows : Nat := 4096

@[ext]
structure MountRecord where
  mountId : Nat
  deviceMajor : Nat
  deviceMinor : Nat
  filesystemType : Text
  mountReadOnly : Bool
  superblockReadOnly : Bool
  deriving DecidableEq

/-! ## Lines and fields -/

/-- `str::split_inclusive('\n')`. -/
def splitInclusive : Text → List Text
  | [] => []
  | c :: r =>
    if c = '\n' then [c] :: splitInclusive r
    else match splitInclusive r with
      | [] => [[c]]
      | l :: ls => (c :: l) :: ls

/-- A line without its ending: a line feed, with the carriage return before it. -/
def chomp (line : Text) : Text :=
  if line.getLast? = some '\n' then
    if line.dropLast.getLast? = some '\r' then line.dropLast.dropLast else line.dropLast
  else line

/-- `str::lines`. -/
def lines (text : Text) : List Text := (splitInclusive text).map chomp

def isAsciiWhitespace (c : Char) : Bool := c == ' ' || c == '\t' || c == '\n' || c == '\x0c' || c == '\r'

/-- `str::split_ascii_whitespace`. -/
def splitAsciiWhitespace (t : Text) : List Text := (t.splitOnP isAsciiWhitespace).filter fun w => !w.isEmpty

def dropPlus : Text → Text
  | '+' :: r => r
  | t => t

/-- `str::parse` for an unsigned type with this greatest value. -/
def parseUnsigned (max : Nat) (t : Text) : Option Nat :=
  match natToken (dropPlus t) with
  | some k => if k ≤ max then some k else none
  | none => none

/-! ## Rows -/

def nextField (detail : String) : List Text → Except JournalError (Text × List Text)
  | [] => .error (unavailable detail)
  | f :: r => .ok (f, r)

def parseU64 (value : Option Text) (name : String) : Except JournalError Nat :=
  match value with
  | none => .error (unavailable ("mount information lacks " ++ name))
  | some t =>
    match parseUnsigned u64Max t with
    | some k => .ok k
    | none => .error (unavailable ("mount information has an invalid " ++ name))

def parseDevice (value : Option Text) : Except JournalError (Nat × Nat) :=
  match value with
  | none => .error (unavailable "mount information lacks a device")
  | some t =>
    match t.dropWhile (· != ':') with
    | [] => .error (unavailable "mount information has an invalid device")
    | _ :: minor =>
      match parseUnsigned u32Max (t.takeWhile (· != ':')) with
      | none => .error (unavailable "mount information has an invalid device major")
      | some major =>
        match parseUnsigned u32Max minor with
        | none => .error (unavailable "mount information has an invalid device minor")
        | some minor => .ok (major, minor)

def optionPresent (options expected : Text) : Bool := (options.splitOn ',').any (· == expected)

/-- The loop over the optional fields and what follows the separator: the filesystem type and the superblock options. -/
def readSeparated : List Text → Except JournalError (Option Text × Option Text)
  | [] => .ok (none, none)
  | field :: r =>
    if field = ['-'] then
      match r.drop 1 with
      | [] => .error (unavailable "mount information lacks a source field")
      | _ :: r' =>
        if r'.drop 1 ≠ [] then .error (unavailable "mount information has trailing required-section fields")
        else .ok (r.head?, r'.head?)
    else readSeparated r

structure MountRow where
  mountId : Nat
  deviceMajor : Nat
  deviceMinor : Nat
  mountOptions : Text
  filesystemType : Text
  superOptions : Text
  deriving DecidableEq

def parseRow (line : Text) : Except JournalError MountRow := do
  let fields := splitAsciiWhitespace line
  let parsedId ← parseU64 fields.head? "mount ID"
  let _parentId ← parseU64 (fields.drop 1).head? "parent mount ID"
  let device ← parseDevice (fields.drop 2).head?
  let (_, fields) ← nextField "mount information lacks a root field" (fields.drop 3)
  let (_, fields) ← nextField "mount information lacks a mount point" fields
  let (mountOptions, fields) ← nextField "mount information lacks mount options" fields
  let separated ← readSeparated fields
  match separated with
  | (none, _) => .error (unavailable "mount information lacks a separator")
  | (some _, none) => .error (unavailable "mount information lacks superblock options")
  | (some filesystemType, some superOptions) =>
    .ok ⟨parsedId, device.1, device.2, mountOptions, filesystemType, superOptions⟩

def MountRow.record (row : MountRow) : MountRecord where
  mountId := row.mountId
  deviceMajor := row.deviceMajor
  deviceMinor := row.deviceMinor
  filesystemType := row.filesystemType
  mountReadOnly := optionPresent row.mountOptions "ro".toList || !optionPresent row.mountOptions "rw".toList
  superblockReadOnly := optionPresent row.superOptions "ro".toList

/-- The loop over the rows; `rows` counts those read so far. -/
def findRows (mountId : Nat) : (rows : Nat) → (found : Option MountRecord) → List Text →
    Except JournalError (Option MountRecord)
  | _, found, [] => .ok found
  | rows, found, line :: rest =>
    if maxMountinfoRows < rows + 1 then .error (unavailable "mount information exceeds its row bound")
    else
      match parseRow line with
      | .error e => .error e
      | .ok row =>
        if row.mountId ≠ mountId then findRows mountId (rows + 1) found rest
        else if found.isSome ∨ mountId = 0 then .error (unavailable "mount ID is ambiguous or unusable")
        else findRows mountId (rows + 1) (some row.record) rest

def findExactMount (text : Text) (mountId : Nat) : Except JournalError MountRecord :=
  match findRows mountId 0 none (lines text) with
  | .error e => .error e
  | .ok none => .error (unavailable "mount ID has no usable mount information row")
  | .ok (some r) => .ok r

/-! ## What the profile observes -/

/-- `read_exact_mount`, of what the read of the file returned. -/
def readExactMount (mountinfo : Except Text Bytes) (mountId : Nat) : Except JournalError MountRecord :=
  match mountinfo with
  | .error e => .error (unavailableAt "cannot read mount information: " e)
  | .ok bytes =>
    if maxMountinfoBytes < bytes.length then .error (unavailable "mount information exceeds its byte bound")
    else
      match fromUtf8 bytes with
      | none => .error (unavailable "mount information is not UTF-8 text")
      | some text => findExactMount text mountId

/-- The fields of `statx` the profile reads; `hasMountId` is the mount id bit of the returned mask. -/
structure Statx where
  hasMountId : Bool
  mountId : Nat
  deviceMajor : Nat
  deviceMinor : Nat

/-- `ProductionProfile::observe`, of what `statx`, the mount information and `fstatfs` returned. -/
def observeProduction (statx : Except Text Statx) (mountinfo : Except Text Bytes) (fstatfs : Except Text Int) :
    Except JournalError ProfileObservation := do
  let stat ← statx.mapError (unavailableAt "cannot qualify opened store directory: ")
  if !stat.hasMountId then .error (unavailable "opened store directory did not return STATX_MNT_ID")
  else
    let mount ← readExactMount mountinfo stat.mountId
    if stat.deviceMajor ≠ mount.deviceMajor ∨ stat.deviceMinor ≠ mount.deviceMinor then
      .error (unavailable "opened directory device does not match its mount information")
    else
      let fType ← fstatfs.mapError (unavailableAt "cannot inspect filesystem magic: ")
      return {
        mountId := mount.mountId
        deviceMajor := stat.deviceMajor
        deviceMinor := stat.deviceMinor
        filesystemType := mount.filesystemType
        filesystemMagic := (fType % 2 ^ 64).toNat
        mountReadOnly := mount.mountReadOnly
        superblockReadOnly := mount.superblockReadOnly }

end Aizign
