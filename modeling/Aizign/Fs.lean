import Aizign.Prog
import Aizign.Engine
import Aizign.Unicode

/-!
# The file system under a store

One state directory with five reserved names, its parent directories, inodes
with contents and metadata, and advisory locks. Every operation the store calls
is an `Op`; `Op.run` is what it does when nothing goes wrong and `Op.Outcome`
adds the failures: an error after nothing, a part or all of the effect.
Identities and permission bits are kept; access checks are not.
-/

namespace Aizign

inductive Name
  | lock
  | journal
  | commit
  | publish
  | commitTemp
  deriving DecidableEq

def Name.all : List Name := [.lock, .journal, .commit, .publish, .commitTemp]

theorem Name.mem_all (n : Name) : n ∈ Name.all := by cases n <;> decide

/-- The state directory, or its `k`-th parent directory. -/
inductive DirRef
  | state
  | parent (k : Nat)
  deriving DecidableEq

inductive Kind
  | file
  | directory
  | symlink
  | other
  deriving DecidableEq

structure Inode where
  kind : Kind
  content : Bytes
  uid : Nat
  mode : Nat
  /-- hard links from outside the state directory -/
  outsideLinks : Nat
  deriving DecidableEq

structure DirInfo where
  kind : Kind
  uid : Nat
  mode : Nat
  device : Nat
  inode : Nat
  deriving DecidableEq

structure FileIdentity where
  device : Nat
  inode : Nat
  deriving DecidableEq

structure Metadata where
  kind : Kind
  identity : FileIdentity
  uid : Nat
  nlink : Nat
  mode : Nat
  len : Nat
  deriving DecidableEq

structure ProfileObservation where
  mountId : Nat
  deviceMajor : Nat
  deviceMinor : Nat
  filesystemType : Text
  filesystemMagic : Nat
  mountReadOnly : Bool
  superblockReadOnly : Bool
  deriving DecidableEq

structure Lock where
  owner : Nat
  inode : Nat
  exclusive : Bool
  deriving DecidableEq

structure Fs where
  dir : Option DirInfo
  /-- the state path's parents, nearest first -/
  parents : List (Option DirInfo)
  entries : Name → Option Nat
  inodes : Nat → Inode
  next : Nat
  locks : List Lock
  device : Nat
  profile : ProfileObservation
  uid : Nat
  umask : Nat
  /-- a new inode number is not in use -/
  fresh : ∀ n i, entries n = some i → i < next

namespace Fs

def dirInfo (s : Fs) : DirRef → Option DirInfo
  | .state => s.dir
  | .parent k => (s.parents[k]?).join

def nlink (s : Fs) (i : Nat) : Nat :=
  (Name.all.filter fun n => s.entries n = some i).length + (s.inodes i).outsideLinks

def metadata (s : Fs) (i : Nat) : Metadata :=
  ⟨(s.inodes i).kind, ⟨s.device, i⟩, (s.inodes i).uid, s.nlink i, (s.inodes i).mode, (s.inodes i).content.length⟩

def setInode (s : Fs) (i : Nat) (f : Inode → Inode) : Fs :=
  { s with inodes := fun j => if j = i then f (s.inodes j) else s.inodes j }

def setContent (s : Fs) (i : Nat) (b : Bytes) : Fs := s.setInode i fun x => { x with content := b }

def content (s : Fs) (i : Nat) : Bytes := (s.inodes i).content

def unlink (s : Fs) (n : Name) : Fs :=
  { s with
    entries := fun m => if m = n then none else s.entries m
    fresh := by
      intro m i h
      by_cases hm : m = n
      · simp [hm] at h
      · rw [if_neg hm] at h; exact s.fresh m i h }

/-- The file named `src` gets the name `dst`, in place of what had it. -/
def rename (s : Fs) (src dst : Name) : Fs :=
  { s with
    entries := fun m => if m = src then none else if m = dst then s.entries src else s.entries m
    fresh := by
      intro m i h
      by_cases hm : m = src
      · simp [hm] at h
      · by_cases hd : m = dst
        · rw [if_neg hm, if_pos hd] at h; exact s.fresh src i h
        · rw [if_neg hm, if_neg hd] at h; exact s.fresh m i h }

def mkdir (s : Fs) : Fs :=
  { s with
    dir := some ⟨.directory, s.uid, 0o700 &&& (0o777 ^^^ s.umask), s.device, s.next⟩
    entries := fun _ => none
    next := s.next + 1
    fresh := by simp }

def withLocks (s : Fs) (locks : List Lock) : Fs := { s with locks := locks }

@[simp] theorem withLocks_dir (s : Fs) (l : List Lock) : (s.withLocks l).dir = s.dir := rfl
@[simp] theorem withLocks_dirInfo (s : Fs) (l : List Lock) (d : DirRef) : (s.withLocks l).dirInfo d = s.dirInfo d := by
  cases d <;> rfl
@[simp] theorem withLocks_entries (s : Fs) (l : List Lock) : (s.withLocks l).entries = s.entries := rfl

def create (s : Fs) (n : Name) : Fs :=
  { s with
    entries := fun m => if m = n then some s.next else s.entries m
    inodes := fun j => if j = s.next then ⟨.file, [], s.uid, 0o600 &&& (0o777 ^^^ s.umask), 0⟩ else s.inodes j
    next := s.next + 1
    fresh := by
      intro m i h
      by_cases hm : m = n
      · rw [if_pos hm] at h
        rw [← Option.some.inj h]
        exact Nat.lt_succ_self _
      · rw [if_neg hm] at h
        exact Nat.lt_succ_of_lt (s.fresh m i h) }

def lockConflict (s : Fs) (me i : Nat) (exclusive : Bool) : Bool :=
  s.locks.any fun l => l.inode = i && l.owner ≠ me && (exclusive || l.exclusive)

/-- Without the locks of `me`; what the end of a process does. -/
def release (s : Fs) (me : Nat) : Fs := s.withLocks (s.locks.filter fun l => l.owner ≠ me)

end Fs

/-! ## Operations -/

inductive Target
  | file (i : Nat)
  | dir (d : DirRef)
  deriving DecidableEq

inductive Op
  | lstatDir (d : DirRef)
  | openDir (d : DirRef)
  | fstatDir (d : DirRef)
  | syncDir (d : DirRef)
  | mkdir
  | chmodDir (mode : Nat)
  | lstat (n : Name)
  | openRead (n : Name)
  | openWritable (n : Name) (createNew : Bool) (append : Bool)
  | fstat (i : Nat)
  | read (i : Nat) (limit : Nat)
  | setLen (i : Nat)
  | write (i : Nat) (b : Bytes)
  | append (i : Nat) (b : Bytes)
  | chmod (i : Nat) (mode : Nat)
  | sync (i : Nat)
  | rename (src dst : Name)
  | remove (n : Name)
  | tryLock (i : Nat) (exclusive : Bool)
  | unlock (i : Nat)
  | observe (t : Target)
  /-- a hook of the durability adapter that is no file-system call -/
  | hook
  deriving DecidableEq

/-- What an operation fails with: an I/O error, or the error a profile observation returns. -/
inductive OpError
  | io (text : Text)
  | profile (e : JournalError)
  deriving DecidableEq

def OpError.text : OpError → Text
  | .io t => t
  | .profile e => e.text

def OpError.journal : OpError → JournalError
  | .io t => .unavailable t
  | .profile e => e

namespace Op

def Val : Op → Type
  | lstatDir _ => Option DirInfo
  | fstatDir _ => DirInfo
  | lstat _ => Option Metadata
  | openRead _ => Nat
  | openWritable .. => Nat
  | fstat _ => Metadata
  | read .. => Bytes
  | tryLock .. => Bool
  | observe _ => ProfileObservation
  | _ => Unit

abbrev Res (o : Op) : Type := Except OpError o.Val

def ioError {α : Type} (t : String) : Except OpError α := .error (.io t.toList)

def run (me : Nat) : (o : Op) → Fs → o.Res × Fs
  | .lstatDir d, s => (.ok (s.dirInfo d), s)
  | .openDir d, s =>
    match s.dirInfo d with
    | none => (ioError "No such file or directory", s)
    | some i => if i.kind = .directory then (.ok (), s) else (ioError "Not a directory", s)
  | .fstatDir d, s =>
    match s.dirInfo d with
    | none => (ioError "No such file or directory", s)
    | some i => (.ok i, s)
  | .syncDir _, s => (.ok (), s)
  | .mkdir, s =>
    match s.dir, s.dirInfo (.parent 0) with
    | some _, _ => (ioError "File exists", s)
    | none, none => (ioError "No such file or directory", s)
    | none, some p =>
      if p.kind = .directory then (.ok (), s.mkdir) else (ioError "Not a directory", s)
  | .chmodDir m, s =>
    match s.dir with
    | none => (ioError "No such file or directory", s)
    | some d => (.ok (), { s with dir := some { d with mode := m } })
  | .lstat n, s =>
    match s.dir with
    | none => (.ok none, s)
    | some d => if d.kind = .directory then (.ok ((s.entries n).map s.metadata), s) else (ioError "Not a directory", s)
  | .openRead n, s =>
    match s.entries n with
    | none => (ioError "No such file or directory", s)
    | some i => if (s.inodes i).kind = .symlink then (ioError "Too many levels of symbolic links", s) else (.ok i, s)
  | .openWritable n createNew _, s =>
    match s.entries n with
    | none =>
      if createNew ∧ s.dir.isSome then (.ok s.next, s.create n) else (ioError "No such file or directory", s)
    | some i =>
      if createNew then (ioError "File exists", s)
      else if (s.inodes i).kind = .symlink then (ioError "Too many levels of symbolic links", s)
      else if (s.inodes i).kind = .directory then (ioError "Is a directory", s)
      else (.ok i, s)
  | .fstat i, s => (.ok (s.metadata i), s)
  | .read i limit, s => (.ok ((s.content i).take limit), s)
  | .setLen i, s => (.ok (), s.setContent i [])
  | .write i b, s => (.ok (), s.setContent i (b ++ (s.content i).drop b.length))
  | .append i b, s => (.ok (), s.setContent i (s.content i ++ b))
  | .chmod i m, s => (.ok (), s.setInode i fun x => { x with mode := m })
  | .sync _, s => (.ok (), s)
  | .rename a b, s =>
    match s.entries a with
    | none => (ioError "No such file or directory", s)
    | some _ => (.ok (), s.rename a b)
  | .remove n, s =>
    match s.entries n with
    | none => (ioError "No such file or directory", s)
    | some _ => (.ok (), s.unlink n)
  | .tryLock i ex, s =>
    if s.lockConflict me i ex then (.ok false, s)
    else (.ok true, s.withLocks (⟨me, i, ex⟩ :: s.locks.filter fun l => ¬(l.owner = me ∧ l.inode = i)))
  | .unlock i, s => (.ok (), s.withLocks (s.locks.filter fun l => ¬(l.owner = me ∧ l.inode = i)))
  | .observe _, s => (.ok s.profile, s)
  | .hook, s => (.ok (), s)

/-- The file system after only `k` bytes of a write. -/
def torn (k : Nat) : Op → Fs → Fs
  | .write i b, s => s.setContent i (b.take k ++ (s.content i).drop (b.take k).length)
  | .append i b, s => s.setContent i (s.content i ++ b.take k)
  | _, s => s

/-- Operations that change a file, a name or what of them is durable. -/
def mutates : Op → Bool
  | syncDir _ | mkdir | chmodDir _ | setLen _ | write .. | append .. | chmod .. | sync _ | rename .. | remove _ => true
  | openWritable _ createNew _ => createNew
  | _ => false

def looks : Op → Bool
  | tryLock .. | unlock _ => false
  | o => !o.mutates

end Op

inductive Progress
  | nothing
  | torn (k : Nat)
  | full
  deriving DecidableEq

def Op.effect (me : Nat) (o : Op) (s : Fs) : Progress → Fs
  | .nothing => s
  | .torn k => o.torn k s
  | .full => (o.run me s).2

/-- One call: its normal result, or any error that `allow` admits with any part of its effect; an observation may
also answer anything. -/
inductive Op.Outcome (me : Nat) (allow : OpError → Prop) (o : Op) (s : Fs) : o.Res → Progress → Prop
  | normal : Op.Outcome me allow o s (o.run me s).1 .full
  | failed (e : OpError) (g : Progress) : allow e → Op.Outcome me allow o s (.error e) g
  | observed (r : o.Res) : (∃ t, o = .observe t) → (∃ v, r = .ok v) → Op.Outcome me allow o s r .nothing

structure Event where
  op : Op
  ok : Bool
  progress : Progress
  deriving DecidableEq

structure Hist where
  fs : Fs
  done : List Event

def Op.event (o : Op) (r : o.Res) (g : Progress) : List Event :=
  if o.mutates then [⟨o, r.isOk, g⟩] else []

def Op.Step (me : Nat) (allow : OpError → Prop) (o : Op) (h : Hist) (r : o.Res) (h' : Hist) : Prop :=
  ∃ g, o.Outcome me allow h.fs r g ∧ h' = ⟨o.effect me h.fs g, h.done ++ o.event r g⟩

end Aizign
