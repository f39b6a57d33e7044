import Aizign.StoreOpen

/-!
# The files along a script

What each operation of a script does to the visible files, and from it the
images an append and an initialization pass through. `Orderly` is what the store
requires of the artifacts' metadata; a script keeps it.
-/

namespace Aizign

namespace Fs

variable (s : Fs)

@[simp] theorem setContent_entries (i : Nat) (b : Bytes) : (s.setContent i b).entries = s.entries := rfl
@[simp] theorem setContent_dir (i : Nat) (b : Bytes) : (s.setContent i b).dir = s.dir := rfl
@[simp] theorem setContent_next (i : Nat) (b : Bytes) : (s.setContent i b).next = s.next := rfl

theorem content_setContent (i : Nat) (b : Bytes) (k : Nat) :
    (s.setContent i b).content k = if k = i then b else s.content k := by
  by_cases h : k = i <;> simp [content, setContent, setInode, h]

@[simp] theorem content_setContent_same (i : Nat) (b : Bytes) : (s.setContent i b).content i = b := by
  rw [content_setContent, if_pos rfl]

theorem content_setContent_ne {i k : Nat} (b : Bytes) (h : k ≠ i) : (s.setContent i b).content k = s.content k := by
  rw [content_setContent, if_neg h]

@[simp] theorem setContent_setContent (i : Nat) (b b' : Bytes) :
    (s.setContent i b).setContent i b' = s.setContent i b' := by
  have : (fun j => if j = i then { (if j = i then { s.inodes j with content := b } else s.inodes j) with content := b' }
      else if j = i then { s.inodes j with content := b } else s.inodes j) =
      fun j => if j = i then { s.inodes j with content := b' } else s.inodes j := by
    funext j
    by_cases h : j = i <;> simp [h]
  simp only [setContent, setInode, this]

@[simp] theorem setContent_self (i : Nat) : s.setContent i (s.content i) = s := by
  have : (fun j => if j = i then { s.inodes j with content := s.content i } else s.inodes j) = s.inodes := by
    funext j
    by_cases h : j = i
    · subst h; simp [content]
    · simp [h]
  simp only [setContent, setInode, this]

theorem create_entries (n m : Name) : (s.create n).entries m = if m = n then some s.next else s.entries m := rfl
@[simp] theorem create_dir (n : Name) : (s.create n).dir = s.dir := rfl
@[simp] theorem create_next (n : Name) : (s.create n).next = s.next + 1 := rfl

theorem content_create (n : Name) (k : Nat) : (s.create n).content k = if k = s.next then [] else s.content k := by
  by_cases h : k = s.next <;> simp [content, create, h]

theorem rename_entries (a b m : Name) :
    (s.rename a b).entries m = if m = a then none else if m = b then s.entries a else s.entries m := rfl

theorem unlink_entries (n m : Name) : (s.unlink n).entries m = if m = n then none else s.entries m := rfl

def private_ (i : Nat) : Fs := s.setInode i fun x => { x with mode := 0o600 }

@[simp] theorem private_entries (i : Nat) : (s.private_ i).entries = s.entries := rfl
@[simp] theorem private_dir (i : Nat) : (s.private_ i).dir = s.dir := rfl
@[simp] theorem private_next (i : Nat) : (s.private_ i).next = s.next := rfl

@[simp] theorem private_content (i k : Nat) : (s.private_ i).content k = s.content k := by
  by_cases h : k = i <;> simp [content, private_, setInode, h]

end Fs

/-! ## Segments of a script -/

section
variable {me : Nat} {I F : Fs → Prop} {rest : List Op} {s : Fs}

/-- The first operation of a script. -/
theorem keeps_op {o : Op} {t : Fs} (h₀ : I s) (htorn : ∀ k, I (o.torn k s)) (hrun : (o.run me s).2 = t)
    (hr : Keeps (Event.onFs me) I F rest t) : Keeps (Event.onFs me) I F (o :: rest) s := by
  subst hrun
  refine ⟨h₀, ?_, hr⟩
  rintro (_ | k | _)
  · exact h₀
  · exact htorn k
  · exact hr.here

theorem keeps_noop {o : Op} (ho : (∃ i, o = .sync i) ∨ ∃ d, o = .syncDir d) (hr : Keeps (Event.onFs me) I F rest s) :
    Keeps (Event.onFs me) I F (o :: rest) s := by
  rcases ho with ⟨i, rfl⟩ | ⟨d, rfl⟩
  · exact keeps_op hr.here (fun _ => hr.here) rfl hr
  · exact keeps_op hr.here (fun _ => hr.here) rfl hr

/-- Writing to a file that is empty. -/
theorem keeps_write {i : Nat} {b : Bytes} (hi : s.content i = []) (h : ∀ k, I (s.setContent i (b.take k)))
    (hr : Keeps (Event.onFs me) I F rest (s.setContent i b)) : Keeps (Event.onFs me) I F (.write i b :: rest) s := by
  have h₀ : I s := by
    have := h 0
    rwa [List.take_zero, ← hi, Fs.setContent_self] at this
  refine keeps_op h₀ (fun k => ?_) ?_ hr
  · simpa [Op.torn, hi] using h k
  · simp [Op.run, hi]

theorem keeps_rewrite {i : Nat} {w : PublishWitness} (h₀ : I s) (h : ∀ k, I (s.setContent i (w.encode.take k)))
    (hr : Keeps (Event.onFs me) I F rest (s.setContent i w.encode)) :
    Keeps (Event.onFs me) I F (rewriteScript i w ++ rest) s := by
  refine keeps_op (t := s.setContent i []) h₀ (fun _ => h₀) rfl ?_
  refine keeps_write (by simp) (fun k => ?_) ?_
  · simpa using h k
  · rw [Fs.setContent_setContent]
    exact keeps_noop (Or.inl ⟨i, rfl⟩) hr

theorem keeps_append {j : Nat} {line : Bytes} (h₀ : I s) (h : ∀ k, I (s.setContent j (s.content j ++ line.take k)))
    (hr : Keeps (Event.onFs me) I F rest (s.setContent j (s.content j ++ line))) :
    Keeps (Event.onFs me) I F ([.append j line, .sync j] ++ rest) s :=
  keeps_op h₀ h rfl (keeps_noop (Or.inl ⟨j, rfl⟩) hr)

theorem keeps_create {n : Name} {app : Bool} (hn : s.entries n = none) (hd : s.dir.isSome = true) (h₀ : I s)
    (h₁ : I (s.create n)) (hr : Keeps (Event.onFs me) I F rest ((s.create n).private_ s.next)) :
    Keeps (Event.onFs me) I F (.openWritable n true app :: .chmod s.next 0o600 :: rest) s :=
  keeps_op h₀ (fun _ => h₀) (by simp [Op.run, hn, hd]) (keeps_op h₁ (fun _ => h₁) rfl hr)

def Fs.withoutTemp (s : Fs) : Fs := if (s.entries .commitTemp).isSome then s.unlink .commitTemp else s

theorem Fs.withoutTemp_entries (s : Fs) (n : Name) :
    s.withoutTemp.entries n = if n = .commitTemp then none else s.entries n := by
  unfold Fs.withoutTemp
  split
  · rfl
  · rename_i h
    by_cases hn : n = .commitTemp
    · rw [if_pos hn, hn]; simpa using h
    · rw [if_neg hn]

@[simp] theorem Fs.withoutTemp_next (s : Fs) : s.withoutTemp.next = s.next := by
  unfold Fs.withoutTemp; split <;> rfl

@[simp] theorem Fs.withoutTemp_dir (s : Fs) : s.withoutTemp.dir = s.dir := by
  unfold Fs.withoutTemp; split <;> rfl

@[simp] theorem Fs.withoutTemp_inodes (s : Fs) : s.withoutTemp.inodes = s.inodes := by
  unfold Fs.withoutTemp; split <;> rfl

@[simp] theorem Fs.withoutTemp_content (s : Fs) (i : Nat) : s.withoutTemp.content i = s.content i := by
  simp [Fs.content]

def Fs.withTemp (s : Fs) : Fs := (s.withoutTemp.create .commitTemp).private_ s.next

theorem keeps_commit {point : CommitPoint} (hd : s.dir.isSome = true) (h₀ : I s) (h₁ : I s.withoutTemp)
    (h₂ : I (s.withoutTemp.create .commitTemp)) (h₃ : ∀ k, I (s.withTemp.setContent s.next (point.encode.take k)))
    (hr : Keeps (Event.onFs me) I F rest ((s.withTemp.setContent s.next point.encode).rename .commitTemp .commit)) :
    Keeps (Event.onFs me) I F (commitScript (s.entries .commitTemp).isSome s.next point ++ rest) s := by
  have hempty : s.withTemp.content s.next = [] := by simp [Fs.withTemp, Fs.content_create]
  have hrename : ((Op.rename .commitTemp .commit).run me (s.withTemp.setContent s.next point.encode)).2 =
      (s.withTemp.setContent s.next point.encode).rename .commitTemp .commit := by
    simp [Op.run, Fs.withTemp, Fs.create_entries]
  have hfull : I (s.withTemp.setContent s.next point.encode) := by simpa using h₃ point.encode.length
  -- from here on there is no temporary name
  have hstale : Keeps (Event.onFs me) I F ([.openWritable .commitTemp true false, .chmod s.next 0o600,
      .write s.next point.encode, .sync s.next, .rename .commitTemp .commit, .syncDir .state] ++ rest) s.withoutTemp := by
    rw [← s.withoutTemp_next]
    refine keeps_create (by simp [Fs.withoutTemp_entries]) (by simpa using hd) h₁ h₂ ?_
    rw [s.withoutTemp_next]
    refine keeps_write hempty h₃ (keeps_noop (Or.inl ⟨_, rfl⟩) ?_)
    exact keeps_op hfull (fun _ => hfull) hrename (keeps_noop (Or.inr ⟨_, rfl⟩) hr)
  unfold commitScript
  cases hs : (s.entries .commitTemp).isSome with
  | false =>
    have : s.withoutTemp = s := by rw [Fs.withoutTemp, hs]; rfl
    rw [this] at hstale
    exact hstale
  | true =>
    refine keeps_op h₀ (fun _ => h₀) ?_ hstale
    obtain ⟨i, hi⟩ := Option.isSome_iff_exists.mp hs
    simp [Op.run, Fs.withoutTemp, hi]

end

/-! ## Names and contents -/

namespace Fs

def image (s : Fs) (n : Name) : Option Bytes := (s.entries n).map s.content

/-- No two names share a file. -/
def Tidy (s : Fs) : Prop := ∀ m n i, s.entries m = some i → s.entries n = some i → m = n

variable {s : Fs}

theorem image_eq {n : Name} {i : Nat} (h : s.entries n = some i) : s.image n = some (s.content i) := by
  rw [image, h]; rfl

theorem image_setContent_same {n : Name} {i : Nat} (h : s.entries n = some i) (b : Bytes) :
    (s.setContent i b).image n = some b := by
  rw [image, setContent_entries, h, Option.map_some, content_setContent_same]

theorem image_setContent_ne {n : Name} {i : Nat} (h : s.entries n ≠ some i) (b : Bytes) :
    (s.setContent i b).image n = s.image n := by
  rw [image, image, setContent_entries]
  cases hn : s.entries n with
  | none => rfl
  | some k =>
    have hk : k ≠ i := by rintro rfl; exact h hn
    rw [Option.map_some, Option.map_some, content_setContent_ne _ _ hk]

theorem image_create_ne {m n : Name} (h : n ≠ m) : (s.create m).image n = s.image n := by
  rw [image, image, create_entries, if_neg h]
  cases hn : s.entries n with
  | none => rfl
  | some k =>
    have hk : k ≠ s.next := Nat.ne_of_lt (s.fresh n k hn)
    rw [Option.map_some, Option.map_some, content_create, if_neg hk]

theorem image_create_same {n : Name} : (s.create n).image n = some [] := by
  rw [image, create_entries, if_pos rfl, Option.map_some, content_create, if_pos rfl]

@[simp] theorem image_private (i : Nat) (n : Name) : (s.private_ i).image n = s.image n := by
  rw [image, image, private_entries]
  cases s.entries n with
  | none => rfl
  | some k => rw [Option.map_some, Option.map_some, private_content]

theorem image_withoutTemp {n : Name} (h : n ≠ .commitTemp) : s.withoutTemp.image n = s.image n := by
  rw [image, image, withoutTemp_entries, if_neg h]
  cases s.entries n with
  | none => rfl
  | some k => rw [Option.map_some, Option.map_some, withoutTemp_content]

theorem image_withTemp {n : Name} (h : n ≠ .commitTemp) (b : Bytes) :
    (s.withTemp.setContent s.next b).image n = s.image n := by
  have hne : s.withTemp.entries n ≠ some s.next := by
    rw [withTemp, private_entries, create_entries, if_neg h, withoutTemp_entries, if_neg h]
    intro hn
    exact absurd (s.fresh n _ hn) (Nat.lt_irrefl _)
  rw [image_setContent_ne hne, withTemp, image_private, image_create_ne h, image_withoutTemp h]

theorem image_rename {a b n : Name} (ha : n ≠ a) :
    (s.rename a b).image n = if n = b then s.image a else s.image n := by
  rw [image, rename_entries, if_neg ha]
  by_cases hb : n = b
  · rw [if_pos hb, if_pos hb]; rfl
  · rw [if_neg hb, if_neg hb]; rfl

@[simp] theorem image_withLocks (l : List Lock) (n : Name) : (s.withLocks l).image n = s.image n := rfl

theorem Tidy.ne (h : s.Tidy) {m n : Name} {i : Nat} (hn : s.entries n = some i) (hmn : m ≠ n) : s.entries m ≠ some i :=
  fun hm => hmn (h m n i hm hn)

theorem Tidy.setContent (h : s.Tidy) (i : Nat) (b : Bytes) : (s.setContent i b).Tidy := h

theorem Tidy.private_ (h : s.Tidy) (i : Nat) : (s.private_ i).Tidy := h

theorem Tidy.create (h : s.Tidy) (n : Name) : (s.create n).Tidy := by
  intro a b i ha hb
  rw [create_entries] at ha hb
  have hlt : ∀ m, s.entries m = some i → i ≠ s.next := fun m hm => Nat.ne_of_lt (s.fresh m i hm)
  by_cases han : a = n
  · rw [if_pos han] at ha
    have hi : i = s.next := (Option.some.inj ha).symm
    by_cases hbn : b = n
    · rw [han, hbn]
    · rw [if_neg hbn] at hb
      exact absurd hi (hlt b hb)
  · rw [if_neg han] at ha
    by_cases hbn : b = n
    · rw [if_pos hbn] at hb
      exact absurd (Option.some.inj hb).symm (hlt a ha)
    · rw [if_neg hbn] at hb
      exact h a b i ha hb

theorem Tidy.withoutTemp (h : s.Tidy) : s.withoutTemp.Tidy := by
  intro a b i ha hb
  rw [withoutTemp_entries] at ha hb
  split at ha
  · cases ha
  · split at hb
    · cases hb
    · exact h a b i ha hb

theorem Tidy.rename (h : s.Tidy) (src dst : Name) : (s.rename src dst).Tidy := by
  intro m n i hm hn
  rw [rename_entries] at hm hn
  split at hm
  · cases hm
  · split at hn
    · cases hn
    · split at hm
      · split at hn
        · rename_i hmd hnd
          rw [hmd, hnd]
        · rename_i hns _ _
          exact absurd (h _ _ i hn hm) hns
      · split at hn
        · rename_i hms _ _ _
          exact absurd (h _ _ i hm hn) hms
        · exact h m n i hm hn

theorem Tidy.withTemp (h : s.Tidy) (b : Bytes) : (s.withTemp.setContent s.next b).Tidy :=
  ((h.withoutTemp.create .commitTemp).private_ s.next).setContent s.next b

end Fs

/-! ## Private files are not shared -/

theorem Fs.one_name {s : Fs} {i : Nat} {m n : Name} (hl : s.nlink i = 1) (hm : s.entries m = some i)
    (hn : s.entries n = some i) : m = n := by
  have hmem : ∀ k, s.entries k = some i → k ∈ Name.all.filter fun k => s.entries k = some i := fun k hk =>
    List.mem_filter.mpr ⟨Name.mem_all k, by simpa using hk⟩
  have hle : (Name.all.filter fun k => s.entries k = some i).length ≤ 1 := by
    rw [Fs.nlink] at hl; omega
  have := hmem m hm
  have := hmem n hn
  match hf : Name.all.filter fun k => s.entries k = some i with
  | [] => simp_all
  | [k] => simp_all
  | _ :: _ :: _ => rw [hf] at hle; simp at hle

theorem PrivateFile.nlink {s : Fs} {n : Name} {i : Nat} (h : PrivateFile s n i) : s.nlink i = 1 := by
  obtain ⟨_, _, _, hi⟩ := h
  exact hi.nlink

theorem tidy_of_private {s : Fs} {l j c p : Nat} (hl : PrivateFile s .lock l) (hj : PrivateFile s .journal j)
    (hc : PrivateFile s .commit c) (hp : PrivateFile s .publish p) : s.Tidy := by
  have hone : ∀ n i, n ≠ .commitTemp → s.entries n = some i → s.nlink i = 1 := by
    intro n i hn hi
    cases n with
    | lock => rw [Option.some.inj (hi.symm.trans hl.entry)]; exact hl.nlink
    | journal => rw [Option.some.inj (hi.symm.trans hj.entry)]; exact hj.nlink
    | commit => rw [Option.some.inj (hi.symm.trans hc.entry)]; exact hc.nlink
    | publish => rw [Option.some.inj (hi.symm.trans hp.entry)]; exact hp.nlink
    | commitTemp => exact absurd rfl hn
  intro m n i hm hn
  by_cases hmt : m = .commitTemp
  · by_cases hnt : n = .commitTemp
    · rw [hmt, hnt]
    · exact Fs.one_name (hone n i hnt hn) hm hn
  · exact Fs.one_name (hone m i hmt hm) hm hn

/-! ## The images of an append -/

structure Shows (s : Fs) (journal commit publish : Bytes) : Prop where
  journal : s.image .journal = some journal
  commit : s.image .commit = some commit
  publish : s.image .publish = some publish

theorem Shows.withLocks {s : Fs} {J C W : Bytes} (h : Shows s J C W) (l : List Lock) : Shows (s.withLocks l) J C W :=
  ⟨h.journal, h.commit, h.publish⟩

/-- The images an append of `line` passes through, from the image (`J`, `C`, `W`) at generation `G` to the commit point
`point`. -/
inductive AppendImage (J C W line : Bytes) (G : Nat) (point : CommitPoint) : Bytes → Bytes → Bytes → Prop
  | before : AppendImage J C W line G point J C W
  | preparing (k : Nat) : AppendImage J C W line G point J C ((PublishWitness.prepared (G + 1)).encode.take k)
  | writing (k : Nat) : AppendImage J C W line G point (J ++ line.take k) C (PublishWitness.prepared (G + 1)).encode
  | committed : AppendImage J C W line G point (J ++ line) point.encode (PublishWitness.prepared (G + 1)).encode
  | cleaning (k : Nat) :
      AppendImage J C W line G point (J ++ line) point.encode ((PublishWitness.clean (G + 1)).encode.take k)

section
variable {J C W line : Bytes} {G : Nat} {point : CommitPoint}

theorem AppendImage.prepared :
    AppendImage J C W line G point J C (PublishWitness.prepared (G + 1)).encode := by
  have h : AppendImage J C W line G point _ _ _ := .writing 0
  rwa [List.take_zero, List.append_nil] at h

theorem AppendImage.written :
    AppendImage J C W line G point (J ++ line) C (PublishWitness.prepared (G + 1)).encode := by
  have h : AppendImage J C W line G point _ _ _ := .writing line.length
  rwa [List.take_length] at h

theorem AppendImage.cleaned :
    AppendImage J C W line G point (J ++ line) point.encode (PublishWitness.clean (G + 1)).encode := by
  have h : AppendImage J C W line G point _ _ _ := .cleaning (PublishWitness.clean (G + 1)).encode.length
  rwa [List.take_length] at h

end

namespace AppendPlan

variable [SerdeJson] {s : Fs} {event : WorkflowEvent} {time : BoundedTimestamp} (plan : AppendPlan s event time)

include plan in
theorem tidy : s.Tidy := by
  obtain ⟨l, hl⟩ := plan.hlock
  exact tidy_of_private hl plan.hjournal plan.hcommit plan.hpublish

include plan in
theorem dir : s.dir.isSome = true := by
  obtain ⟨_, owner, ⟨d, hd, _⟩, _⟩ := plan.hjournal
  rw [hd]; rfl

def Image (s' : Fs) : Prop :=
  ∃ J C W, Shows s' J C W ∧ AppendImage (s.content plan.journal) (s.content plan.commit) (s.content plan.publish)
    plan.lineBytes plan.generation plan.point J C W

def Finished (s' : Fs) : Prop :=
  Shows s' (s.content plan.journal ++ plan.lineBytes) plan.point.encode (PublishWitness.clean (plan.generation + 1)).encode

theorem shows : Shows s (s.content plan.journal) (s.content plan.commit) (s.content plan.publish) :=
  ⟨Fs.image_eq plan.hjournal.entry, Fs.image_eq plan.hcommit.entry, Fs.image_eq plan.hpublish.entry⟩

end AppendPlan

section
variable {s : Fs} {J C W : Bytes}

theorem Shows.publish_set {p : Nat} (h : Shows s J C W) (ht : s.Tidy) (hp : s.entries .publish = some p) (b : Bytes) :
    Shows (s.setContent p b) J C b := by
  refine ⟨?_, ?_, Fs.image_setContent_same hp b⟩
  · rw [Fs.image_setContent_ne (ht.ne hp (by decide))]; exact h.journal
  · rw [Fs.image_setContent_ne (ht.ne hp (by decide))]; exact h.commit

theorem Shows.journal_set {j : Nat} (h : Shows s J C W) (ht : s.Tidy) (hj : s.entries .journal = some j) (b : Bytes) :
    Shows (s.setContent j b) b C W := by
  refine ⟨Fs.image_setContent_same hj b, ?_, ?_⟩
  · rw [Fs.image_setContent_ne (ht.ne hj (by decide))]; exact h.commit
  · rw [Fs.image_setContent_ne (ht.ne hj (by decide))]; exact h.publish

theorem Shows.withoutTemp (h : Shows s J C W) : Shows s.withoutTemp J C W :=
  ⟨(Fs.image_withoutTemp (by decide)).trans h.journal, (Fs.image_withoutTemp (by decide)).trans h.commit,
    (Fs.image_withoutTemp (by decide)).trans h.publish⟩

theorem Shows.create_temp (h : Shows s J C W) : Shows (s.create .commitTemp) J C W :=
  ⟨(Fs.image_create_ne (by decide)).trans h.journal, (Fs.image_create_ne (by decide)).trans h.commit,
    (Fs.image_create_ne (by decide)).trans h.publish⟩

theorem Shows.withTemp (h : Shows s J C W) (b : Bytes) : Shows (s.withTemp.setContent s.next b) J C W :=
  ⟨(Fs.image_withTemp (by decide) b).trans h.journal, (Fs.image_withTemp (by decide) b).trans h.commit,
    (Fs.image_withTemp (by decide) b).trans h.publish⟩

theorem Shows.renamed (h : Shows s J C W) (b : Bytes) :
    Shows ((s.withTemp.setContent s.next b).rename .commitTemp .commit) J b W := by
  have hw := h.withTemp b
  refine ⟨?_, ?_, ?_⟩
  · rw [Fs.image_rename (by decide), if_neg (by decide)]; exact hw.journal
  · rw [Fs.image_rename (by decide), if_pos rfl, Fs.image_setContent_same]
    simp [Fs.withTemp, Fs.create_entries]
  · rw [Fs.image_rename (by decide), if_neg (by decide)]; exact hw.publish

theorem Fs.renamed_entries {n : Name} (b : Bytes) (ht : n ≠ .commitTemp) (hc : n ≠ .commit) :
    ((s.withTemp.setContent s.next b).rename .commitTemp .commit).entries n = s.entries n := by
  rw [Fs.rename_entries, if_neg ht, if_neg hc, Fs.setContent_entries, Fs.withTemp, Fs.private_entries,
    Fs.create_entries, if_neg ht, Fs.withoutTemp_entries, if_neg ht]

end

/-- Every state along an append's script shows one of its images. -/
theorem AppendPlan.keeps_image [SerdeJson] {me : Nat} {s : Fs} {event : WorkflowEvent} {time : BoundedTimestamp}
    (plan : AppendPlan s event time) : Keeps (Event.onFs me) plan.Image plan.Finished plan.script s := by
  have ht := plan.tidy
  have hp := plan.hpublish.entry
  have hj := plan.hjournal.entry
  have himage : ∀ {s' J C W}, Shows s' J C W → AppendImage (s.content plan.journal) (s.content plan.commit)
    (s.content plan.publish) plan.lineBytes plan.generation plan.point J C W → plan.Image s' :=
    fun hs hi => ⟨_, _, _, hs, hi⟩
  have h₀ := plan.shows
  have h₁ := fun b => h₀.publish_set ht hp b
  have hjp : plan.journal ≠ plan.publish := by
    intro he
    rw [he] at hj
    exact ht.ne hp (by decide) hj
  have hcj : (s.setContent plan.publish (PublishWitness.prepared (plan.generation + 1)).encode).content plan.journal =
    s.content plan.journal := Fs.content_setContent_ne _ _ hjp
  have h₂ := fun b => (h₁ (PublishWitness.prepared (plan.generation + 1)).encode).journal_set (ht.setContent _ _) hj b
  refine keeps_rewrite (himage h₀ .before) (fun k => himage (h₁ _) (.preparing k)) ?_
  refine keeps_append (himage (h₁ _) .prepared) (fun k => ?_) ?_
  · rw [hcj]
    exact himage (h₂ _) (.writing k)
  rw [hcj]
  refine keeps_commit (s := (s.setContent plan.publish _).setContent plan.journal _) plan.dir (himage (h₂ _) .written)
    (himage (h₂ _).withoutTemp .written) (himage (h₂ _).withoutTemp.create_temp .written)
    (fun k => himage ((h₂ _).withTemp _) .written) ?_
  have ht₃ := fun (s : Fs) (ht : s.Tidy) (b : Bytes) => (ht.withTemp b).rename .commitTemp .commit
  have h₃ := (h₂ (s.content plan.journal ++ plan.lineBytes)).renamed plan.point.encode
  have h₄ := fun b => h₃.publish_set (ht₃ _ ((ht.setContent _ _).setContent _ _) _)
    ((Fs.renamed_entries _ (by decide) (by decide)).trans hp) b
  rw [← List.append_nil (rewriteScript _ _)]
  refine keeps_rewrite (himage h₃ .committed) (fun k => himage (h₄ _) (.cleaning k)) ⟨himage (h₄ _) .cleaned, h₄ _⟩

/-! ## Metadata along a script -/

structure Plain (s : Fs) (owner i : Nat) : Prop where
  kind : (s.inodes i).kind = .file
  uid : (s.inodes i).uid = owner
  mode : (s.inodes i).mode &&& 0o7777 = 0o600
  links : (s.inodes i).outsideLinks = 0

/-- The state directory and its artifacts as the store requires them; a stale temporary file may be anything. -/
structure Orderly (s : Fs) (owner : Nat) : Prop where
  dir : PrivateDir s owner
  tidy : s.Tidy
  plain : ∀ n i, n ≠ .commitTemp → s.entries n = some i → Plain s owner i

theorem Fs.nlink_tidy {s : Fs} {n : Name} {i : Nat} (ht : s.Tidy) (hn : s.entries n = some i) :
    s.nlink i = 1 + (s.inodes i).outsideLinks := by
  have hf : (Name.all.filter fun k => s.entries k = some i) = Name.all.filter fun k => k = n := by
    refine List.filter_congr fun k _ => ?_
    rw [decide_eq_decide]
    exact ⟨fun hk => ht k n i hk hn, fun hk => hk ▸ hn⟩
  rw [Fs.nlink, hf]
  cases n <;> rfl

theorem Orderly.privateFile {s : Fs} {owner : Nat} (h : Orderly s owner) {n : Name} {i : Nat} (hn : n ≠ .commitTemp)
    (hi : s.entries n = some i) : PrivateFile s n i := by
  have hp := h.plain n i hn hi
  exact ⟨hi, owner, h.dir, hp.kind, hp.uid, by rw [Fs.nlink_tidy h.tidy hi, hp.links], hp.mode⟩

theorem PrivateDir.unique {s : Fs} {a b : Nat} (ha : PrivateDir s a) (hb : PrivateDir s b) : a = b := by
  obtain ⟨d, hd, -, -, rfl⟩ := ha.dir
  obtain ⟨d', hd', -, -, rfl⟩ := hb.dir
  rw [hd] at hd'
  rw [Option.some.inj hd']

theorem PrivateFile.plain {s : Fs} {owner : Nat} {n : Name} {i : Nat} (hd : PrivateDir s owner) (h : PrivateFile s n i)
    (ht : s.Tidy) : Plain s owner i := by
  obtain ⟨hn, o, ho, hi⟩ := h
  refine ⟨hi.kind, hi.uid.trans (ho.unique hd), hi.mode, ?_⟩
  have := hi.nlink
  rw [Fs.nlink_tidy ht hn] at this
  omega

namespace Orderly

variable {s : Fs} {owner : Nat} (h : Orderly s owner)

include h

theorem withLocks (l : List Lock) : Orderly (s.withLocks l) owner :=
  ⟨⟨h.dir.dir⟩, h.tidy, fun n i hn hi => ⟨(h.plain n i hn hi).kind, (h.plain n i hn hi).uid, (h.plain n i hn hi).mode,
    (h.plain n i hn hi).links⟩⟩

theorem setContent (i : Nat) (b : Bytes) : Orderly (s.setContent i b) owner := by
  refine ⟨⟨h.dir.dir⟩, h.tidy.setContent i b, fun n k hn hk => ?_⟩
  have hp := h.plain n k hn hk
  by_cases hki : k = i
  · constructor <;> simp only [Fs.setContent, Fs.setInode, hki, ite_true]
    · rw [← hki]; exact hp.kind
    · rw [← hki]; exact hp.uid
    · rw [← hki]; exact hp.mode
    · rw [← hki]; exact hp.links
  · constructor <;> simp only [Fs.setContent, Fs.setInode, hki, ite_false]
    · exact hp.kind
    · exact hp.uid
    · exact hp.mode
    · exact hp.links

theorem withoutTemp : Orderly s.withoutTemp owner := by
  refine ⟨⟨by rw [Fs.withoutTemp_dir]; exact h.dir.dir⟩, h.tidy.withoutTemp, fun n i hn hi => ?_⟩
  rw [Fs.withoutTemp_entries, if_neg hn] at hi
  have hp := h.plain n i hn hi
  constructor <;> rw [Fs.withoutTemp_inodes]
  · exact hp.kind
  · exact hp.uid
  · exact hp.mode
  · exact hp.links

/-- A file at a new inode does not touch the artifacts. -/
theorem create_temp : Orderly (s.create .commitTemp) owner := by
  refine ⟨⟨h.dir.dir⟩, h.tidy.create _, fun n i hn hi => ?_⟩
  rw [Fs.create_entries, if_neg hn] at hi
  have hp := h.plain n i hn hi
  have hne : i ≠ s.next := Nat.ne_of_lt (s.fresh n i hi)
  constructor <;> simp only [Fs.create, hne, ite_false]
  · exact hp.kind
  · exact hp.uid
  · exact hp.mode
  · exact hp.links

theorem private_ (i : Nat) : Orderly (s.private_ i) owner := by
  refine ⟨⟨h.dir.dir⟩, h.tidy.private_ i, fun n k hn hk => ?_⟩
  have hp := h.plain n k hn hk
  by_cases hki : k = i
  · constructor <;> simp only [Fs.private_, Fs.setInode, hki, ite_true]
    · rw [← hki]; exact hp.kind
    · rw [← hki]; exact hp.uid
    · rfl
    · rw [← hki]; exact hp.links
  · constructor <;> simp only [Fs.private_, Fs.setInode, hki, ite_false]
    · exact hp.kind
    · exact hp.uid
    · exact hp.mode
    · exact hp.links

theorem withTemp : Orderly s.withTemp owner := h.withoutTemp.create_temp.private_ s.next

theorem renamed {i : Nat} (hi : s.entries .commitTemp = some i) (hp : Plain s owner i) :
    Orderly (s.rename .commitTemp .commit) owner := by
  refine ⟨⟨h.dir.dir⟩, h.tidy.rename _ _, fun n k hn hk => ?_⟩
  rw [Fs.rename_entries, if_neg hn] at hk
  by_cases hc : n = .commit
  · rw [if_pos hc, hi] at hk
    rw [← Option.some.inj hk]
    exact ⟨hp.kind, hp.uid, hp.mode, hp.links⟩
  · rw [if_neg hc] at hk
    have hp := h.plain n k hn hk
    exact ⟨hp.kind, hp.uid, hp.mode, hp.links⟩

end Orderly

theorem plain_withTemp {s : Fs} {owner : Nat} (hu : s.uid = owner) (b : Bytes) :
    Plain (s.withTemp.setContent s.next b) owner s.next := by
  have hi : (s.withTemp.setContent s.next b).inodes s.next = ⟨.file, b, s.withoutTemp.uid, 0o600, 0⟩ := by
    simp [Fs.withTemp, Fs.setContent, Fs.setInode, Fs.private_, Fs.create]
  have hw : s.withoutTemp.uid = s.uid := by unfold Fs.withoutTemp; split <;> rfl
  constructor <;> rw [hi]
  · exact hw.trans hu
  · show 0o600 &&& 0o7777 = 0o600
    decide

theorem Orderly.withTemp_renamed {s : Fs} {owner : Nat} (h : Orderly s owner) (hu : s.uid = owner) (b : Bytes) :
    Orderly ((s.withTemp.setContent s.next b).rename .commitTemp .commit) owner := by
  refine (h.withTemp.setContent s.next b).renamed ?_ (plain_withTemp hu b)
  simp [Fs.withTemp, Fs.create_entries]

end Aizign
