import Mathlib.Data.Set.Basic
import Aizign.StoreOpen
import Aizign.StoreImage

/-!
# What a power loss leaves

A disk is the visible file system with what each file may hold and what each
name may stand for once the power is gone. A write adds what it leaves, in whole
or in part; a barrier that reports success keeps the visible content of its
file, or the visible entries of the state directory, and nothing else. A barrier
that fails promises nothing. The state directory itself stays, and the metadata
of its files.
-/

namespace Aizign

@[ext]
structure Disk where
  fs : Fs
  /-- what each file may hold after a power loss -/
  held : Nat → Set Bytes
  /-- what each name may stand for after a power loss -/
  bound : Name → Set (Option Nat)
  shown : ∀ i, fs.content i ∈ held i
  named : ∀ n, fs.entries n ∈ bound n
  used : ∀ n i, some i ∈ bound n → i < fs.next

namespace Disk

/-- A disk on which everything visible is durable. -/
def settled (s : Fs) : Disk where
  fs := s
  held i := {s.content i}
  bound n := {s.entries n}
  shown _ := rfl
  named _ := rfl
  used n i h := s.fresh n i (Eq.symm h)

def withLocks (d : Disk) (l : List Lock) : Disk where
  fs := d.fs.withLocks l
  held := d.held
  bound := d.bound
  shown := d.shown
  named := d.named
  used := d.used

@[simp] theorem withLocks_fs (d : Disk) (l : List Lock) : (d.withLocks l).fs = d.fs.withLocks l := rfl
@[simp] theorem withLocks_held (d : Disk) (l : List Lock) : (d.withLocks l).held = d.held := rfl
@[simp] theorem withLocks_bound (d : Disk) (l : List Lock) : (d.withLocks l).bound = d.bound := rfl

theorem withLocks_withLocks (d : Disk) (l l' : List Lock) : (d.withLocks l).withLocks l' = d.withLocks l' := rfl

theorem eq_withLocks {d e : Disk} {l : List Lock} (h : d = e.withLocks l) : d = e.withLocks d.fs.locks := by
  rw [h]
  rfl

end Disk

/-- The file system that starts again with these names and contents, and without locks. -/
def Fs.restart (s : Fs) (names : Name → Option Nat) (contents : Nat → Bytes) (h : ∀ n i, names n = some i → i < s.next) :
    Fs :=
  { s with
    entries := names
    inodes := fun i => { s.inodes i with content := contents i }
    locks := []
    fresh := h }

/-- Every file and every name falls to something that it may be. -/
def Disk.PowerLoss (d d' : Disk) : Prop :=
  ∃ (names : Name → Option Nat) (contents : Nat → Bytes) (hn : ∀ n, names n ∈ d.bound n),
    (∀ i, contents i ∈ d.held i) ∧
      d' = .settled (d.fs.restart names contents fun n i h => d.used n i (h ▸ hn n))

/-! ## Operations on a disk -/

/-- What the file `i` may hold after `o`, of whose effect `g` took place. -/
def Op.heldAfter (me : Nat) (o : Op) (ok : Bool) (g : Progress) (d : Disk) (i : Nat) : Set Bytes :=
  match o with
  | .sync j => if ok = true ∧ i = j then {d.fs.content i} else d.held i
  | .openWritable _ true _ => if i = d.fs.next then {(o.effect me d.fs g).content i} else d.held i
  | .setLen j | .write j _ | .append j _ =>
    -- any part of a write may reach the disk, also of one that failed
    if i = j then d.held i ∪ {b | ∃ g', b = (o.effect me d.fs g').content i} else d.held i
  | _ => d.held i

def Op.boundAfter (me : Nat) (o : Op) (ok : Bool) (g : Progress) (d : Disk) (n : Name) : Set (Option Nat) :=
  match o with
  | .syncDir .state => if ok = true then {d.fs.entries n} else d.bound n
  | .mkdir => if d.fs.dir = none then {(o.effect me d.fs g).entries n} else d.bound n
  | .openWritable _ true _ | .rename _ _ | .remove _ => insert ((o.effect me d.fs g).entries n) (d.bound n)
  | _ => d.bound n

def Op.written : Op → Option Nat
  | .setLen i | .write i _ | .append i _ => some i
  | _ => none

def Op.Renames (o : Op) (n : Name) : Prop :=
  match o with
  | .openWritable m true _ => n = m
  | .rename a b => n = a ∨ n = b
  | .remove m => n = m
  | .mkdir => True
  | _ => False

/-! ## What an operation can do -/

inductive Op.Does (s : Fs) : Op → Fs → Prop
  | nothing (o : Op) : Does s o s
  | locks {o : Op} (l : List Lock) (h : o.mutates = false) : Does s o (s.withLocks l)
  | mkdir (hd : s.dir = none) : Does s .mkdir s.mkdir
  | chmodDir {info : DirInfo} (m : Nat) (hd : s.dir = some info) :
      Does s (.chmodDir m) { s with dir := some { info with mode := m } }
  | content {o : Op} {i : Nat} (b : Bytes) (h : o.written = some i) : Does s o (s.setContent i b)
  | chmod (i m : Nat) : Does s (.chmod i m) (s.setInode i fun x => { x with mode := m })
  | create (n : Name) (app : Bool) (hn : s.entries n = none) (hd : s.dir.isSome = true) :
      Does s (.openWritable n true app) (s.create n)
  | rename (a b : Name) : Does s (.rename a b) (s.rename a b)
  | remove (n : Name) : Does s (.remove n) (s.unlink n)

theorem Op.effect_looks {me : Nat} {o : Op} (h : o.looks = true) (s : Fs) (g : Progress) : o.effect me s g = s := by
  cases g with
  | nothing => rfl
  | torn k => exact Op.torn_looks h k s
  | full => exact Op.run_looks h s

theorem Op.torn_does (o : Op) (k : Nat) (s : Fs) : Op.Does s o (o.torn k s) := by
  cases o with
  | write i b => exact .content _ rfl
  | append i b => exact .content _ rfl
  | _ => exact .nothing _

theorem Op.run_does (me : Nat) (o : Op) (s : Fs) : Op.Does s o (o.run me s).2 := by
  by_cases hl : o.looks = true
  · rw [Op.run_looks hl]
    exact .nothing o
  cases o with
  | syncDir | sync => exact .nothing _
  | setLen | write | append => exact .content _ rfl
  | chmod => exact .chmod _ _
  | unlock => exact .locks _ rfl
  | mkdir =>
    simp only [Op.run]
    cases hd : s.dir with
    | some info => exact .nothing _
    | none =>
      cases hp : s.dirInfo (.parent 0) with
      | none => exact .nothing _
      | some info =>
        by_cases hk : info.kind = .directory
        · simp only [hk, if_true]
          exact .mkdir hd
        · simp only [hk, if_false]
          exact .nothing _
  | chmodDir m =>
    simp only [Op.run]
    cases hd : s.dir with
    | none => exact .nothing _
    | some info => exact .chmodDir m hd
  | openWritable n createNew app =>
    cases createNew with
    | false => exact absurd rfl hl
    | true =>
      simp only [Op.run]
      cases hn : s.entries n with
      | some i => exact .nothing _
      | none =>
        by_cases hd : s.dir.isSome = true
        · simp only [hd, and_self, if_true]
          exact .create n app hn hd
        · simp only [hd]
          exact .nothing _
  | rename a b =>
    simp only [Op.run]
    cases hn : s.entries a with
    | none => exact .nothing _
    | some i => exact .rename a b
  | remove n =>
    simp only [Op.run]
    cases hn : s.entries n with
    | none => exact .nothing _
    | some i => exact .remove n
  | tryLock i ex =>
    simp only [Op.run]
    by_cases hc : s.lockConflict me i ex = true
    · rw [if_pos hc]
      exact .nothing _
    · rw [if_neg hc]
      exact .locks _ rfl
  | _ => exact absurd rfl hl

theorem Op.effect_does (me : Nat) (o : Op) (s : Fs) (g : Progress) : Op.Does s o (o.effect me s g) := by
  cases g with
  | nothing => exact .nothing o
  | torn k => exact o.torn_does k s
  | full => exact o.run_does me s

section
variable {s t : Fs} {o : Op}

theorem Op.Does.next (h : Op.Does s o t) : s.next ≤ t.next := by
  cases h with
  | mkdir | create => exact Nat.le_succ _
  | _ => exact Nat.le_refl _

theorem Op.Does.next_eq (h : Op.Does s o t) (hn : ∀ n, ¬o.Renames n) : t.next = s.next := by
  cases h with
  | mkdir => exact absurd trivial (hn .lock)
  | create m app => exact absurd rfl (hn m)
  | _ => rfl

theorem Op.Does.dir (h : Op.Does s o t) (hd : s.dir ≠ none) : t.dir ≠ none := by
  cases h with
  | mkdir | chmodDir => exact Option.some_ne_none _
  | _ => exact hd

theorem Op.Does.entries (h : Op.Does s o t) {n : Name} (hn : ¬o.Renames n) : t.entries n = s.entries n := by
  cases h with
  | mkdir => exact absurd trivial hn
  | create m app => exact if_neg hn
  | rename a b =>
    rw [Fs.rename_entries, if_neg fun h => hn (.inl h), if_neg fun h => hn (.inr h)]
  | remove m => exact if_neg hn
  | _ => rfl

theorem Op.Does.content_eq (h : Op.Does s o t) {i : Nat} (hw : o.written ≠ some i)
    (hi : ∀ n app, o = .openWritable n true app → i ≠ s.next) : t.content i = s.content i := by
  cases h with
  | content b h =>
    refine s.content_setContent_ne b fun he => hw ?_
    rw [h, he]
  | chmod j m =>
    unfold Fs.content Fs.setInode
    by_cases hj : i = j
    · simp only [hj, if_true]
    · simp only [hj, if_false]
  | create n app => rw [Fs.content_create, if_neg (hi n app rfl)]
  | _ => rfl

end

/-! ## The disk after an operation -/

section
variable (me : Nat) (o : Op) (ok : Bool) (g : Progress) (d : Disk)

theorem Op.effect_sync (i : Nat) (s : Fs) : (Op.sync i).effect me s g = s := by
  cases g <;> rfl

theorem Op.effect_syncDir (r : DirRef) (s : Fs) : (Op.syncDir r).effect me s g = s := by
  cases g <;> rfl

theorem Op.heldAfter_sync (i j : Nat) : (Op.sync j).heldAfter me ok g d i =
    if ok = true ∧ i = j then {d.fs.content i} else d.held i := rfl

variable {o} in
theorem Op.heldAfter_written {j : Nat} (h : o.written = some j) (i : Nat) : o.heldAfter me ok g d i =
    if i = j then d.held i ∪ {b | ∃ g', b = (o.effect me d.fs g').content i} else d.held i := by
  cases o with
  | setLen | write | append =>
    cases h
    rfl
  | _ => cases h

theorem Op.boundAfter_syncDir (n : Name) : (Op.syncDir .state).boundAfter me ok g d n =
    if ok = true then {d.fs.entries n} else d.bound n := rfl

theorem Op.shown_after (i : Nat) : (o.effect me d.fs g).content i ∈ o.heldAfter me ok g d i := by
  have hd : Op.Does d.fs o (o.effect me d.fs g) := o.effect_does me d.fs g
  have hkeep (hw : o.written ≠ some i) (hi : ∀ n app, o = .openWritable n true app → i ≠ d.fs.next) :
      (o.effect me d.fs g).content i ∈ d.held i := by
    rw [hd.content_eq hw hi]
    exact d.shown i
  have hwrite (j : Nat) (hj : o.written = some j) (hc : ∀ n app, o ≠ .openWritable n true app) :
      (o.effect me d.fs g).content i ∈ o.heldAfter me ok g d i := by
    rw [Op.heldAfter_written me ok g d hj]
    by_cases hi : i = j
    · rw [if_pos hi]
      exact .inr ⟨g, rfl⟩
    · rw [if_neg hi]
      refine hkeep (fun h => hi ?_) fun n app h => absurd h (hc n app)
      exact Option.some.inj (h.symm.trans hj)
  cases o with
  | sync j =>
    rw [Op.effect_sync, Op.heldAfter_sync]
    by_cases hi : ok = true ∧ i = j
    · rw [if_pos hi]
      rfl
    · rw [if_neg hi]
      exact d.shown i
  | openWritable n createNew app =>
    cases createNew with
    | false => exact hkeep (by simp [Op.written]) (by simp)
    | true =>
      unfold Op.heldAfter
      by_cases hi : i = d.fs.next
      · rw [if_pos hi]
        rfl
      · rw [if_neg hi]
        exact hkeep (by simp [Op.written]) fun _ _ _ => hi
  | setLen j | write j | append j => exact hwrite j rfl (by simp)
  | _ => exact hkeep (by simp [Op.written]) (by simp)

theorem Op.named_after (n : Name) : (o.effect me d.fs g).entries n ∈ o.boundAfter me ok g d n := by
  have hd : Op.Does d.fs o (o.effect me d.fs g) := o.effect_does me d.fs g
  have hkeep (hn : ¬o.Renames n) : (o.effect me d.fs g).entries n ∈ d.bound n := by
    rw [hd.entries hn]
    exact d.named n
  cases o with
  | syncDir r =>
    cases r with
    | parent k => exact hkeep id
    | state =>
      rw [Op.effect_syncDir, Op.boundAfter_syncDir]
      by_cases hok : ok = true
      · rw [if_pos hok]
        rfl
      · rw [if_neg hok]
        exact d.named n
  | mkdir =>
    unfold Op.boundAfter
    by_cases hdir : d.fs.dir = none
    · rw [if_pos hdir]
      rfl
    · rw [if_neg hdir]
      have he : Op.mkdir.effect me d.fs g = d.fs := by
        generalize Op.mkdir.effect me d.fs g = t at hd
        cases hd with
        | mkdir h => exact absurd h hdir
        | nothing => rfl
        | locks l h => cases h
        | content b h => cases h
      rw [he]
      exact d.named n
  | openWritable m createNew app =>
    cases createNew with
    | false => exact hkeep id
    | true => exact .inl rfl
  | rename a b => exact .inl rfl
  | remove m => exact .inl rfl
  | _ => exact hkeep id

variable {me o ok g d} in
/-- A name stands for something it stood for before, or for what it shows. -/
theorem Op.boundAfter_cases {n : Name} {x : Option Nat} (h : x ∈ o.boundAfter me ok g d n) :
    x ∈ d.bound n ∨ x = (o.effect me d.fs g).entries n := by
  cases o with
  | syncDir r =>
    cases r with
    | parent k => exact .inl h
    | state =>
      rw [Op.boundAfter_syncDir] at h
      by_cases hok : ok = true
      · rw [if_pos hok] at h
        exact .inl (h ▸ d.named n)
      · rw [if_neg hok] at h
        exact .inl h
  | mkdir =>
    unfold Op.boundAfter at h
    by_cases hdir : d.fs.dir = none
    · rw [if_pos hdir] at h
      exact .inr h
    · rw [if_neg hdir] at h
      exact .inl h
  | openWritable m createNew app =>
    cases createNew with
    | false => exact .inl h
    | true => exact h.symm
  | rename a b => exact h.symm
  | remove m => exact h.symm
  | _ => exact .inl h

theorem Op.used_after (n : Name) (i : Nat) (h : some i ∈ o.boundAfter me ok g d n) : i < (o.effect me d.fs g).next := by
  rcases Op.boundAfter_cases h with h | h
  · exact Nat.lt_of_lt_of_le (d.used n i h) (o.effect_does me d.fs g).next
  · exact Fs.fresh _ n i h.symm

/-- The disk after `o`, of whose effect `g` took place; `ok` says whether it reported success. -/
def Op.onDisk : Disk where
  fs := o.effect me d.fs g
  held := o.heldAfter me ok g d
  bound := o.boundAfter me ok g d
  shown := o.shown_after me ok g d
  named := o.named_after me ok g d
  used := o.used_after me ok g d

end

def Op.DiskStep (me : Nat) (allow : OpError → Prop) (o : Op) (d : Disk) (r : o.Res) (d' : Disk) : Prop :=
  ∃ g, o.Outcome me allow d.fs r g ∧ d' = o.onDisk me r.isOk g d

def Event.onDisk (me : Nat) (e : Event) (d : Disk) : Disk := e.op.onDisk me e.ok e.progress d

/-! ## Disks and histories -/

section
variable {me : Nat} {o : Op}

theorem Op.mutates_of_written {i : Nat} (h : o.written = some i) : o.mutates = true := by
  cases o with
  | setLen | write | append => rfl
  | _ => cases h

theorem Op.onDisk_withLocks (h : o.mutates = true) (ok : Bool) (g : Progress) (d : Disk) (l : List Lock) :
    o.onDisk me ok g (d.withLocks l) = (o.onDisk me ok g d).withLocks l := by
  have he (g : Progress) : o.effect me (d.fs.withLocks l) g = (o.effect me d.fs g).withLocks l :=
    Op.effect_withLocks h d.fs l g
  refine Disk.ext (he g) (funext fun i => ?_) (funext fun n => ?_)
  · show o.heldAfter me ok g (d.withLocks l) i = o.heldAfter me ok g d i
    cases o with
    | setLen | write | append =>
      simp only [Op.heldAfter, Disk.withLocks_fs, he]
      rfl
    | openWritable m createNew app =>
      cases createNew with
      | false => rfl
      | true =>
        simp only [Op.heldAfter, Disk.withLocks_fs, he]
        rfl
    | _ => rfl
  · show o.boundAfter me ok g (d.withLocks l) n = o.boundAfter me ok g d n
    cases o with
    | mkdir | rename | remove =>
      simp only [Op.boundAfter, Disk.withLocks_fs, he]
      rfl
    | openWritable m createNew app =>
      cases createNew with
      | false => rfl
      | true =>
        simp only [Op.boundAfter, Disk.withLocks_fs, he]
        rfl
    | syncDir r => cases r <;> rfl
    | _ => rfl

/-- An operation that changes no file changes locks at most. -/
theorem Op.onDisk_quiet (h : o.mutates = false) (ok : Bool) (g : Progress) (d : Disk) :
    ∃ l, o.onDisk me ok g d = d.withLocks l := by
  have hfs : ∃ l, o.effect me d.fs g = d.fs.withLocks l := by
    have hd : Op.Does d.fs o (o.effect me d.fs g) := o.effect_does me d.fs g
    generalize o.effect me d.fs g = t at hd
    cases hd with
    | nothing => exact ⟨d.fs.locks, rfl⟩
    | locks l => exact ⟨l, rfl⟩
    | content b hw => exact absurd (Op.mutates_of_written hw) (by rw [h]; exact Bool.false_ne_true)
    | _ => cases h
  obtain ⟨l, hl⟩ := hfs
  refine ⟨l, Disk.ext hl (funext fun i => ?_) (funext fun n => ?_)⟩
  · show o.heldAfter me ok g d i = d.held i
    cases o with
    | openWritable m createNew app => cases h; rfl
    | sync | setLen | write | append => cases h
    | _ => rfl
  · show o.boundAfter me ok g d n = d.bound n
    cases o with
    | openWritable m createNew app => cases h; rfl
    | syncDir | mkdir | rename | remove => cases h
    | _ => rfl

/-- A run on a disk is a run on its visible files whose mutations lead to the disk. -/
theorem Prog.Steps.onHist {α : Type} {allow : OpError → Prop} {p q : Prog Op.Res α} {d₀ d d' : Disk}
    (h : Prog.Steps (Op.DiskStep me allow) p d q d') {done : List Event}
    (hd : d = (follow (Event.onDisk me) done d₀).withLocks d.fs.locks) :
    ∃ done', Prog.Steps (Op.Step me allow) p ⟨d.fs, done⟩ q ⟨d'.fs, done'⟩ ∧
      d' = (follow (Event.onDisk me) done' d₀).withLocks d'.fs.locks := by
  induction h generalizing done with
  | refl => exact ⟨done, .refl, hd⟩
  | @head o k d d₁ d' r q hs _ ih =>
    obtain ⟨g, hout, rfl⟩ := hs
    have hnext : o.onDisk me r.isOk g d = (follow (Event.onDisk me) (done ++ o.event r g) d₀).withLocks
        (o.onDisk me r.isOk g d).fs.locks := by
      by_cases hm : o.mutates = true
      · have he : follow (Event.onDisk me) (done ++ o.event r g) d₀ =
            o.onDisk me r.isOk g (follow (Event.onDisk me) done d₀) := by
          rw [Op.event, if_pos hm, follow, List.foldl_append]
          rfl
        refine Disk.eq_withLocks (l := d.fs.locks) ?_
        rw [he, ← Op.onDisk_withLocks hm, ← hd]
      · obtain ⟨l, hl⟩ : ∃ l, o.onDisk me r.isOk g d = d.withLocks l :=
          Op.onDisk_quiet (Bool.not_eq_true _ ▸ hm) r.isOk g d
        refine Disk.eq_withLocks (l := l) ?_
        rw [hl, Op.event, if_neg hm, List.append_nil]
        have hlocks : d.withLocks l = _ := congrArg (Disk.withLocks · l) hd
        exact hlocks
    obtain ⟨done', hsteps, hd'⟩ := ih hnext
    exact ⟨done', .head ⟨g, hout, rfl⟩ hsteps, hd'⟩

end

/-! ## What stays as it is -/

/-- `d'` leaves nothing possible that `d` excludes. -/
structure Disk.Narrows (d d' : Disk) : Prop where
  dir : d'.fs.dir = d.fs.dir
  bound : ∀ n, d'.bound n ⊆ d.bound n
  held : ∀ i, d'.held i ⊆ d.held i

theorem Disk.narrows_withLocks (d : Disk) (l : List Lock) : d.Narrows (d.withLocks l) :=
  ⟨rfl, fun _ => Set.Subset.refl _, fun _ => Set.Subset.refl _⟩

theorem Disk.PowerLoss.narrows {d d' : Disk} (h : d.PowerLoss d') : d.Narrows d' := by
  obtain ⟨names, contents, hn, hc, rfl⟩ := h
  refine ⟨rfl, fun n => ?_, fun i => ?_⟩
  · exact Set.singleton_subset_iff.mpr (hn n)
  · exact Set.singleton_subset_iff.mpr (hc i)

/-- From `d` to `d'` the names in `N` stay, and of the files that were there only `p` may hold more, all of it in `P`. -/
structure Disk.Gains (N : Name → Prop) (p : Nat) (P : Bytes → Prop) (d d' : Disk) : Prop where
  dir : d.fs.dir ≠ none → d'.fs.dir ≠ none
  next : (∀ n, N n) → d'.fs.next = d.fs.next
  entries : ∀ n, N n → d'.fs.entries n = d.fs.entries n
  bound : ∀ n, N n → d'.bound n ⊆ d.bound n
  held : ∀ i, i < d.fs.next → ∀ b ∈ d'.held i, b ∈ d.held i ∨ i = p ∧ P b

section
variable {me : Nat} {o : Op} {ok : Bool} {g : Progress} {d : Disk}

theorem Op.bound_cases {n : Name} {x : Option Nat} (h : x ∈ (o.onDisk me ok g d).bound n) :
    x ∈ d.bound n ∨ x = (o.effect me d.fs g).entries n := Op.boundAfter_cases h

/-- A name that `o` does not change stands for no more than before. -/
theorem Op.bound_subset {n : Name} (hn : ¬o.Renames n) : (o.onDisk me ok g d).bound n ⊆ d.bound n := by
  intro x hx
  rcases Op.bound_cases hx with hx | hx
  · exact hx
  · rw [hx, (o.effect_does me d.fs g).entries hn]
    exact d.named n

/-- A file that `o` does not write, and that was there before, holds no more than before. -/
theorem Op.held_subset {i : Nat} (hw : o.written ≠ some i) (hi : i < d.fs.next) :
    (o.onDisk me ok g d).held i ⊆ d.held i := by
  show o.heldAfter me ok g d i ⊆ d.held i
  cases o with
  | sync j =>
    rw [Op.heldAfter_sync]
    by_cases h : ok = true ∧ i = j
    · rw [if_pos h]
      exact Set.singleton_subset_iff.mpr (d.shown i)
    · rw [if_neg h]
  | openWritable m createNew app =>
    cases createNew with
    | false => exact Set.Subset.refl _
    | true =>
      unfold Op.heldAfter
      rw [if_neg (Nat.ne_of_lt hi)]
  | setLen j | write j | append j =>
    rw [Op.heldAfter_written me ok g d rfl, if_neg fun h => hw (congrArg some h.symm)]
  | _ => exact Set.Subset.refl _

theorem Op.gains {N : Name → Prop} {p : Nat} {P : Bytes → Prop} (hn : ∀ n, N n → ¬o.Renames n)
    (hw : ∀ i, o.written = some i → i = p)
    (hP : p < d.fs.next → ∀ b ∈ (o.onDisk me ok g d).held p, b ∈ d.held p ∨ P b) :
    Disk.Gains N p P d (o.onDisk me ok g d) where
  dir := (o.effect_does me d.fs g).dir
  next h := (o.effect_does me d.fs g).next_eq fun n => hn n (h n)
  entries n h := (o.effect_does me d.fs g).entries (hn n h)
  bound n h := Op.bound_subset (hn n h)
  held := by
    intro i hi b hb
    by_cases hip : i = p
    · rw [hip] at hb ⊢
      exact (hP (hip ▸ hi) b hb).imp_right fun h => ⟨rfl, h⟩
    · exact .inl (Op.held_subset (fun h => hip (hw i h)) hi hb)

/-- An operation that changes no file's content. -/
theorem Op.gains_nothing {N : Name → Prop} (hn : ∀ n, N n → ¬o.Renames n) (hw : o.written = none) (p : Nat)
    (P : Bytes → Prop) : Disk.Gains N p P d (o.onDisk me ok g d) := by
  refine Op.gains hn (fun i h => ?_) fun hp b hb => .inl (Op.held_subset ?_ hp hb)
  · rw [hw] at h
    cases h
  · rw [hw]
    exact (Option.some_ne_none p).symm

/-- What a write may leave in its file. -/
theorem Op.held_written {i : Nat} (hw : o.written = some i) {b : Bytes} (hb : b ∈ (o.onDisk me ok g d).held i) :
    b ∈ d.held i ∨ ∃ g', b = (o.effect me d.fs g').content i := by
  have hb : b ∈ o.heldAfter me ok g d i := hb
  rw [Op.heldAfter_written me ok g d hw, if_pos rfl] at hb
  exact hb

end

end Aizign
