import Aizign.Disk
import Aizign.StoreClassify

/-!
# Scripts on a disk

What the parts of a script leave durable when all their operations succeed, and
what they may leave when one of them fails: the rewrite of a witness, the line
of an append, the commit metadata through its temporary file.
-/

namespace Aizign

namespace Disk

/-- The name `n` stands for the file `i`, also after a power loss. -/
def Names (d : Disk) (n : Name) (i : Nat) : Prop := ∀ x ∈ d.bound n, x = some i

def Holds (d : Disk) (i : Nat) (P : Bytes → Prop) : Prop := ∀ b ∈ d.held i, P b

section
variable {d d' : Disk} {N : Name → Prop} {n : Name} {i p : Nat} {P Q : Bytes → Prop}

theorem Names.entry (h : d.Names n i) : d.fs.entries n = some i := h _ (d.named n)

theorem Names.lt (h : d.Names n i) : i < d.fs.next := d.fs.fresh n i h.entry

theorem Holds.content (h : d.Holds i P) : P (d.fs.content i) := h _ (d.shown i)

theorem Names.narrow (h : d.Names n i) (hd : d.Narrows d') : d'.Names n i := fun x hx => h x (hd.bound n hx)

theorem Holds.narrow (h : d.Holds i P) (hd : d.Narrows d') : d'.Holds i P := fun b hb => h b (hd.held i hb)

theorem Names.gain (h : d.Names n i) (hd : Gains N p P d d') (hn : N n) : d'.Names n i :=
  fun x hx => h x (hd.bound n hn hx)

theorem Holds.gain (h : d.Holds i Q) (hd : Gains N p P d d') (hi : i < d.fs.next) (hP : i = p → ∀ b, P b → Q b) :
    d'.Holds i Q := by
  intro b hb
  rcases hd.held i hi b hb with hb | ⟨hip, hb⟩
  · exact h b hb
  · exact hP hip b hb

end

end Disk

/-! ## Parts of a script -/

section
variable {me : Nat} {I F : Disk → Prop} {d : Disk}

theorem keeps_step {o : Op} {rest : List Op} (h₀ : I d) (hI : ∀ ok g, I (o.onDisk me ok g d))
    (hr : Keeps (Event.onDisk me) I F rest (o.onDisk me true .full d)) :
    Keeps (Event.onDisk me) I F (o :: rest) d :=
  ⟨h₀, hI false, hr⟩

theorem content_effect_write {s : Fs} {i : Nat} (hi : s.content i = []) (b : Bytes) (g : Progress) :
    ∃ k, ((Op.write i b).effect me s g).content i = b.take k := by
  cases g with
  | nothing => exact ⟨0, hi⟩
  | torn k =>
    refine ⟨k, (s.content_setContent_same i _).trans ?_⟩
    rw [hi, List.drop_nil, List.append_nil]
  | full =>
    refine ⟨b.length, (s.content_setContent_same i _).trans ?_⟩
    rw [hi, List.drop_nil, List.append_nil, List.take_length]

theorem content_write {i : Nat} (hi : d.fs.content i = []) (b : Bytes) :
    ((Op.write i b).onDisk me true .full d).fs.content i = b := by
  refine (d.fs.content_setContent_same i _).trans ?_
  rw [hi, List.drop_nil, List.append_nil]

/-- A file holds what a successful barrier finds. -/
theorem holds_sync (i : Nat) : ((Op.sync i).onDisk me true .full d).Holds i (· = d.fs.content i) := by
  intro b hb
  have hb : b ∈ (Op.sync i).heldAfter me true .full d i := hb
  rw [Op.heldAfter_sync, if_pos ⟨rfl, rfl⟩] at hb
  exact hb

/-- The rewrite of a witness: the file may hold any prefix of it, and at the end it holds all of it. -/
theorem keeps_rewriteDisk {p : Nat} {w : PublishWitness} (h₀ : I d)
    (hI : ∀ d d', I d → Disk.Gains (fun _ => True) p (fun b => ∃ k, b = w.encode.take k) d d' → I d') :
    Keeps (Event.onDisk me) I (fun d' => d'.Holds p (· = w.encode)) (rewriteScript p w) d := by
  have hcut (ok : Bool) (g : Progress) : I ((Op.setLen p).onDisk me ok g d) := by
    refine hI d _ h₀ (Op.gains (fun _ _ => id) (fun i hi => (Option.some.inj hi).symm) fun _ b hb => ?_)
    rcases Op.held_written rfl hb with hb | ⟨g', rfl⟩
    · exact .inl hb
    · cases g' with
      | nothing | torn => exact .inl (d.shown p)
      | full => exact .inr ⟨0, d.fs.content_setContent_same p []⟩
  refine keeps_step h₀ hcut ?_
  have h₁ := hcut true .full
  have hempty : ((Op.setLen p).onDisk me true .full d).fs.content p = [] := d.fs.content_setContent_same p []
  generalize (Op.setLen p).onDisk me true .full d = d₁ at h₁ hempty
  have hwrite (ok : Bool) (g : Progress) : I ((Op.write p w.encode).onDisk me ok g d₁) := by
    refine hI d₁ _ h₁ (Op.gains (fun _ _ => id) (fun i hi => (Option.some.inj hi).symm) fun _ b hb => ?_)
    rcases Op.held_written rfl hb with hb | ⟨g', rfl⟩
    · exact .inl hb
    · exact .inr (content_effect_write hempty w.encode g')
  refine keeps_step h₁ hwrite ?_
  have h₂ := hwrite true .full
  have hfull : ((Op.write p w.encode).onDisk me true .full d₁).fs.content p = w.encode := content_write hempty w.encode
  generalize (Op.write p w.encode).onDisk me true .full d₁ = d₂ at h₂ hfull
  have hsync (ok : Bool) (g : Progress) : I ((Op.sync p).onDisk me ok g d₂) :=
    hI d₂ _ h₂ (Op.gains_nothing (fun _ _ => id) rfl p _)
  refine keeps_step h₂ hsync ⟨hsync true .full, ?_⟩
  rw [← hfull]
  exact holds_sync p

theorem keeps_lineDisk {j : Nat} {line : Bytes} (h₀ : I d)
    (hI : ∀ d d', I d → Disk.Gains (fun _ => True) j (fun _ => True) d d' → I d') :
    Keeps (Event.onDisk me) I (fun d' => d'.Holds j (· = d.fs.content j ++ line)) [.append j line, .sync j] d := by
  have hline (ok : Bool) (g : Progress) : I ((Op.append j line).onDisk me ok g d) :=
    hI d _ h₀ (Op.gains (fun _ _ => id) (fun i hi => (Option.some.inj hi).symm) fun _ _ _ => .inr trivial)
  refine keeps_step h₀ hline ?_
  have h₁ := hline true .full
  have hfull : ((Op.append j line).onDisk me true .full d).fs.content j = d.fs.content j ++ line :=
    d.fs.content_setContent_same j _
  generalize (Op.append j line).onDisk me true .full d = d₁ at h₁ hfull
  have hsync (ok : Bool) (g : Progress) : I ((Op.sync j).onDisk me ok g d₁) :=
    hI d₁ _ h₁ (Op.gains_nothing (fun _ _ => id) rfl j _)
  refine keeps_step h₁ hsync ⟨hsync true .full, ?_⟩
  rw [← hfull]
  exact holds_sync j

def Disk.AllNamed (d : Disk) : Prop := ∀ n, d.bound n = {d.fs.entries n}

theorem allNamed_syncDir : ((Op.syncDir .state).onDisk me true .full d).AllNamed := fun _ => rfl

/-- The commit metadata is the new file `t` with these bytes, and all names are durable. -/
structure Disk.Committed (t : Nat) (b : Bytes) (d : Disk) : Prop where
  entry : d.fs.entries .commit = some t
  holds : d.Holds t (· = b)
  names : d.AllNamed
  next : d.fs.next = t + 1

theorem effect_create {s : Fs} {n : Name} {app : Bool} (hn : s.entries n = none) (hd : s.dir.isSome = true) :
    (Op.openWritable n true app).effect me s .full = s.create n := by
  simp [Op.effect, Op.run, hn, hd]

/-- The name of the commit metadata goes over to the file `t` only once that holds `b`. -/
def Disk.CommitMoves (t : Nat) (b : Bytes) (d d' : Disk) : Prop :=
  ∀ i, some i ∈ d'.bound .commit → some i ∈ d.bound .commit ∧ i ≠ t ∨ i = t ∧ d'.Holds t (· = b)

/-- The commit metadata, from a disk without its temporary name. -/
theorem keeps_newCommit {point : CommitPoint} (h₀ : I d) (hdir : d.fs.dir.isSome = true)
    (htemp : d.fs.entries .commitTemp = none)
    (hI : ∀ d' d'', I d' → Disk.Gains (fun n => n ≠ .commitTemp ∧ n ≠ .commit) d.fs.next (fun _ => True) d' d'' →
      d'.CommitMoves d.fs.next point.encode d'' → I d'') :
    Keeps (Event.onDisk me) I (Disk.Committed d.fs.next point.encode) (commitScript false d.fs.next point) d := by
  have hnew : some d.fs.next ∉ d.bound .commit := fun hi => absurd (d.used _ _ hi) (Nat.lt_irrefl _)
  generalize ht : d.fs.next = t at hI hnew
  have hgains (o : Op) (d : Disk) (hn : ∀ n, n ≠ .commitTemp ∧ n ≠ .commit → ¬o.Renames n)
      (hw : ∀ i, o.written = some i → i = t) (ok : Bool) (g : Progress) :
      Disk.Gains (fun n => n ≠ .commitTemp ∧ n ≠ .commit) t (fun _ => True) d (o.onDisk me ok g d) :=
    Op.gains hn hw fun _ _ _ => .inr trivial
  -- until the rename nothing about the name `commit` changes
  have hstays (o : Op) (d : Disk) (hd : some t ∉ d.bound .commit) (hc : ¬o.Renames .commit) (ok : Bool) (g : Progress) :
      d.CommitMoves t point.encode (o.onDisk me ok g d) ∧ some t ∉ (o.onDisk me ok g d).bound .commit :=
    ⟨fun i hi => .inl ⟨Op.bound_subset hc hi, fun hit => hd (Op.bound_subset hc (hit ▸ hi))⟩,
      fun hi => hd (Op.bound_subset hc hi)⟩
  have hquiet (o : Op) (d : Disk) (hd : I d) (hb : some t ∉ d.bound .commit)
      (hn : ∀ n, n ≠ .commitTemp ∧ n ≠ .commit → ¬o.Renames n) (hc : ¬o.Renames .commit)
      (hw : ∀ i, o.written = some i → i = t) (ok : Bool) (g : Progress) : I (o.onDisk me ok g d) :=
    hI d _ hd (hgains o d hn hw ok g) (hstays o d hb hc ok g).1
  have hnone (i : Nat) (h : (none : Option Nat) = some i) : i = t := nomatch h
  -- the new file is empty and has the temporary name
  have hc := hquiet (.openWritable .commitTemp true false) d h₀ hnew (fun n hn => hn.1) (by simp [Op.Renames]) hnone
  refine keeps_step h₀ hc ?_
  have h₁ := hc true .full
  have hnew₁ := (hstays (.openWritable .commitTemp true false) d hnew (by simp [Op.Renames]) true .full).2
  have hfs₁ : ((Op.openWritable .commitTemp true false).onDisk me true .full d).fs = d.fs.create .commitTemp :=
    effect_create htemp hdir
  generalize (Op.openWritable .commitTemp true false).onDisk me true .full d = d₁ at h₁ hnew₁ hfs₁
  have hm := hquiet (.chmod t 0o600) d₁ h₁ hnew₁ (fun n _ => id) id hnone
  refine keeps_step h₁ hm ?_
  have h₂ := hm true .full
  have hnew₂ := (hstays (.chmod t 0o600) d₁ hnew₁ id true .full).2
  have hfs₂ : ((Op.chmod t 0o600).onDisk me true .full d₁).fs = (d.fs.create .commitTemp).private_ t := by
    rw [← hfs₁]
    rfl
  generalize (Op.chmod t 0o600).onDisk me true .full d₁ = d₂ at h₂ hnew₂ hfs₂
  have hempty : d₂.fs.content t = [] := by
    rw [hfs₂, Fs.private_content, Fs.content_create, if_pos ht.symm]
  have hw := hquiet (.write t point.encode) d₂ h₂ hnew₂ (fun n _ => id) id fun i hi => (Option.some.inj hi).symm
  refine keeps_step h₂ hw ?_
  have h₃ := hw true .full
  have hnew₃ := (hstays (.write t point.encode) d₂ hnew₂ id true .full).2
  have hfull : ((Op.write t point.encode).onDisk me true .full d₂).fs.content t = point.encode :=
    content_write hempty point.encode
  have hname₃ : ((Op.write t point.encode).onDisk me true .full d₂).fs.entries .commitTemp = some t := by
    show d₂.fs.entries .commitTemp = some t
    rw [hfs₂, Fs.private_entries, Fs.create_entries, if_pos rfl, ht]
  have hnext₃ : ((Op.write t point.encode).onDisk me true .full d₂).fs.next = t + 1 := by
    show d₂.fs.next = t + 1
    rw [hfs₂, Fs.private_next, Fs.create_next, ht]
  generalize (Op.write t point.encode).onDisk me true .full d₂ = d₃ at h₃ hnew₃ hfull hname₃ hnext₃
  have hs := hquiet (.sync t) d₃ h₃ hnew₃ (fun n _ => id) id hnone
  refine keeps_step h₃ hs ?_
  have h₄ := hs true .full
  have hholds : ((Op.sync t).onDisk me true .full d₃).Holds t (· = point.encode) := by
    rw [← hfull]
    exact holds_sync t
  have hname₄ : ((Op.sync t).onDisk me true .full d₃).fs.entries .commitTemp = some t := hname₃
  have hnext₄ : ((Op.sync t).onDisk me true .full d₃).fs.next = t + 1 := hnext₃
  generalize (Op.sync t).onDisk me true .full d₃ = d₄ at h₄ hholds hname₄ hnext₄
  -- the name goes over to a file that holds the new bytes
  have hmoves (o : Op) (d : Disk) (hd : d.Holds t (· = point.encode)) (ok : Bool) (g : Progress)
      (hh : (o.onDisk me ok g d).held t = d.held t)
      (hb : ∀ i, some i ∈ (o.onDisk me ok g d).bound .commit → some i ∈ d.bound .commit ∨ i = t) :
      d.CommitMoves t point.encode (o.onDisk me ok g d) := by
    intro i hi
    have hd' : (o.onDisk me ok g d).Holds t (· = point.encode) := fun b hb => hd b (hh ▸ hb)
    by_cases hit : i = t
    · exact .inr ⟨hit, hd'⟩
    · exact .inl ⟨(hb i hi).resolve_right hit, hit⟩
  have hr (ok : Bool) (g : Progress) : I ((Op.rename .commitTemp .commit).onDisk me ok g d₄) := by
    refine hI d₄ _ h₄ (hgains (.rename .commitTemp .commit) d₄ (fun n hn h => h.elim hn.1 hn.2) hnone ok g) ?_
    refine hmoves _ d₄ hholds ok g rfl fun i hi => ?_
    rcases Op.bound_cases hi with hi | hi
    · exact .inl hi
    · cases g with
      | nothing | torn => exact .inl (hi ▸ d₄.named .commit)
      | full =>
        have hfs : (Op.rename .commitTemp .commit).effect me d₄.fs .full = d₄.fs.rename .commitTemp .commit := by
          simp [Op.effect, Op.run, hname₄]
        rw [hfs, Fs.rename_entries, if_neg (by decide), if_pos rfl, hname₄] at hi
        exact .inr (Option.some.inj hi)
  refine keeps_step h₄ hr ?_
  have h₅ := hr true .full
  have hfs₅ : ((Op.rename .commitTemp .commit).onDisk me true .full d₄).fs = d₄.fs.rename .commitTemp .commit := by
    simp [Op.onDisk, Op.effect, Op.run, hname₄]
  have hholds₅ : ((Op.rename .commitTemp .commit).onDisk me true .full d₄).Holds t (· = point.encode) := hholds
  generalize (Op.rename .commitTemp .commit).onDisk me true .full d₄ = d₅ at h₅ hfs₅ hholds₅
  have hd (ok : Bool) (g : Progress) : I ((Op.syncDir .state).onDisk me ok g d₅) := by
    refine hI d₅ _ h₅ (hgains (.syncDir .state) d₅ (fun n _ => id) hnone ok g) ?_
    exact hmoves _ d₅ hholds₅ ok g rfl fun i hi => .inl (Op.bound_subset (o := .syncDir .state) id hi)
  refine keeps_step h₅ hd ⟨hd true .full, ?_, hholds₅, allNamed_syncDir, ?_⟩
  · show d₅.fs.entries .commit = some t
    rw [hfs₅, Fs.rename_entries, if_neg (by decide), if_pos rfl, hname₄]
  · show d₅.fs.next = t + 1
    rw [hfs₅]
    exact hnext₄

/-- The commit metadata through its temporary file: no name but these two changes, and no file that was there. -/
theorem keeps_commitDisk {t : Nat} {point : CommitPoint} (h₀ : I d) (hdir : d.fs.dir.isSome = true) (ht : d.fs.next = t)
    (hI : ∀ d d', I d → Disk.Gains (fun n => n ≠ .commitTemp ∧ n ≠ .commit) t (fun _ => True) d d' →
      d.CommitMoves t point.encode d' → I d') :
    Keeps (Event.onDisk me) I (Disk.Committed t point.encode)
      (commitScript (d.fs.entries .commitTemp).isSome t point) d := by
  subst ht
  cases htemp : d.fs.entries .commitTemp with
  | none => exact keeps_newCommit h₀ hdir htemp hI
  | some i =>
    have hremove (ok : Bool) (g : Progress) : I ((Op.remove .commitTemp).onDisk me ok g d) := by
      refine hI d _ h₀ (Op.gains_nothing (fun n hn => hn.1) rfl _ _) fun i hi => .inl ?_
      have hi : some i ∈ d.bound .commit := Op.bound_subset (o := .remove .commitTemp) (by simp [Op.Renames]) hi
      exact ⟨hi, Nat.ne_of_lt (d.used _ _ hi)⟩
    refine keeps_step h₀ hremove ?_
    have h₁ := hremove true .full
    have hfs₁ : ((Op.remove .commitTemp).onDisk me true .full d).fs = d.fs.unlink .commitTemp := by
      simp [Op.onDisk, Op.effect, Op.run, htemp]
    have hnext : ((Op.remove .commitTemp).onDisk me true .full d).fs.next = d.fs.next := by rw [hfs₁]; rfl
    rw [← hnext] at hI ⊢
    refine keeps_newCommit h₁ ?_ ?_ hI
    · rw [hfs₁]
      exact hdir
    · rw [hfs₁, Fs.unlink_entries, if_pos rfl]

end

end Aizign
