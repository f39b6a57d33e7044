import Aizign.StateEntry

/-!
# The states of an initialization

Before the first append, whatever a name may stand for, the journal is empty,
the commit metadata is that of the empty store, and the witness is a part of
(1,0) or of (1,1). Every script of an open keeps this; it ends with the rewrite
of the witness to (1,1), and when it gets there everything else is durable.
-/

namespace Aizign

open Store

variable [SerdeJson]

/-- The image of generation 1: no record, the empty commit point, the witness (1,1). -/
def Fs.Initialized (s : Fs) : Prop := Shows s [] CommitPoint.empty.encode (PublishWitness.clean 1).encode

/-- The images a writer open completes. -/
structure Fs.Completable (s : Fs) : Prop where
  journal : s.image .journal = some []
  commit : s.image .commit = some CommitPoint.empty.encode
  publish : s.image .publish = none ∨ s.image .publish = some PublishWitness.initializing.encode

/-- Everything before the bytes of (1,1) is durable, and the witness `p` was emptied for them. -/
structure Disk.Barriered (d : Disk) (p : Nat) : Prop where
  journal : ∃ j, d.Names .journal j ∧ d.Holds j (· = [])
  commit : ∃ c, d.Names .commit c ∧ d.Holds c (· = CommitPoint.empty.encode)
  publish : d.Names .publish p
  witness : d.held p = {PublishWitness.initializing.encode, []}

/-! ## The invariant -/

/-- What the witness may hold before the first append. -/
def WitnessPart (b : Bytes) : Prop := b <+: PublishWitness.initializing.encode ∨ b <+: (PublishWitness.clean 1).encode

/-- No append has begun. -/
structure Disk.Initial (d : Disk) : Prop where
  absent : d.fs.dir = none → ∀ n, ∀ x ∈ d.bound n, x = none
  journal : ∀ i, some i ∈ d.bound .journal → d.Holds i (· = [])
  commit : ∀ i, some i ∈ d.bound .commit → d.Holds i (· = CommitPoint.empty.encode)
  publish : ∀ i, some i ∈ d.bound .publish → d.Holds i WitnessPart
  temp : ∀ i, some i ∈ d.bound .commitTemp → none ∉ d.bound .lock

section
variable {me : Nat} {d d' : Disk} {N : Name → Prop} {P : Bytes → Prop} {j c p : Nat}

omit [SerdeJson] in
theorem Disk.Bare.initial (h : d.Bare) : d.Initial := by
  have hno (n : Name) (i : Nat) : some i ∉ d.bound n := fun hi => Option.some_ne_none i (h n _ hi)
  exact ⟨fun _ => h, fun i hi => absurd hi (hno _ i), fun i hi => absurd hi (hno _ i), fun i hi => absurd hi (hno _ i),
    fun i hi => absurd hi (hno _ i)⟩

omit [SerdeJson] in
theorem Disk.Initial.narrow (h : d.Initial) (hd : d.Narrows d') : d'.Initial where
  absent hdir n x hx := h.absent (hd.dir ▸ hdir) n x (hd.bound n hx)
  journal i hi := (h.journal i (hd.bound _ hi)).narrow hd
  commit i hi := (h.commit i (hd.bound _ hi)).narrow hd
  publish i hi := (h.publish i (hd.bound _ hi)).narrow hd
  temp i hi hn := h.temp i (hd.bound _ hi) (hd.bound _ hn)

omit [SerdeJson] in
theorem Disk.Initial.gain (h : d.Initial) (hd : Disk.Gains (fun _ => True) p P d d') (hj : some p ∉ d.bound .journal)
    (hc : some p ∉ d.bound .commit) (hp : some p ∈ d.bound .publish → ∀ b, P b → WitnessPart b) : d'.Initial where
  absent hdir n x hx := h.absent (not_not.mp fun hn => hd.dir hn hdir) n x (hd.bound n trivial hx)
  journal i hi := by
    have hi := hd.bound _ trivial hi
    exact (h.journal i hi).gain hd (d.used _ i hi) fun hip => absurd (hip ▸ hi) hj
  commit i hi := by
    have hi := hd.bound _ trivial hi
    exact (h.commit i hi).gain hd (d.used _ i hi) fun hip => absurd (hip ▸ hi) hc
  publish i hi := by
    have hi := hd.bound _ trivial hi
    exact (h.publish i hi).gain hd (d.used _ i hi) fun hip => hp (hip ▸ hi)
  temp i hi hn := h.temp i (hd.bound _ trivial hi) (hd.bound _ trivial hn)

omit [SerdeJson] in
theorem Disk.Initial.quiet (h : d.Initial) {o : Op} (hn : ∀ n, ¬o.Renames n) (hw : o.written = none) (ok : Bool)
    (g : Progress) : (o.onDisk me ok g d).Initial := by
  have hfresh (n : Name) : some d.fs.next ∉ d.bound n := fun hi => absurd (d.used _ _ hi) (Nat.lt_irrefl _)
  have hg : Disk.Gains (fun _ => True) d.fs.next (fun _ => False) d (o.onDisk me ok g d) :=
    Op.gains_nothing (fun n _ => hn n) hw _ _
  exact h.gain hg (hfresh _) (hfresh _) fun hi => absurd hi (hfresh _)

omit [SerdeJson] in
theorem WitnessPart.nil : WitnessPart [] := .inl List.nil_prefix

omit [SerdeJson] in
/-- Creating the lock, the journal or the witness. -/
theorem Disk.Initial.create (h : d.Initial) {n : Name} (hc : n ≠ .commit) (ht : n ≠ .commitTemp)
    (hl : n = .lock → ∀ i, some i ∉ d.bound .commitTemp) (app ok : Bool) (g : Progress) :
    ((Op.openWritable n true app).onDisk me ok g d).Initial := by
  have hold {m : Name} (hm : m ≠ n) : ((Op.openWritable n true app).onDisk me ok g d).bound m ⊆ d.bound m :=
    Op.bound_subset (o := .openWritable n true app) hm
  have hbound (m : Name) {i : Nat} (hi : some i ∈ ((Op.openWritable n true app).onDisk me ok g d).bound m) :
      some i ∈ d.bound m ∨ ((Op.openWritable n true app).onDisk me ok g d).Holds i (· = []) := by
    by_cases hm : m = n
    · subst hm
      exact (bound_create hi).imp_right And.right
    · exact .inl (hold hm hi)
  have hheld {m : Name} {i : Nat} (hi : some i ∈ d.bound m) {P : Bytes → Prop} (hP : d.Holds i P) :
      ((Op.openWritable n true app).onDisk me ok g d).Holds i P :=
    fun b hb => hP b (Op.held_subset (o := .openWritable n true app) (Option.some_ne_none i).symm (d.used m i hi) hb)
  refine ⟨fun hdir => ?_, fun i hi => ?_, fun i hi => ?_, fun i hi => ?_, fun i hi hnone => ?_⟩
  · have hd : Op.Does d.fs (.openWritable n true app) _ := Op.effect_does me _ d.fs g
    have hdir₀ : d.fs.dir = none := not_not.mp fun hn => hd.dir hn hdir
    intro m x hx
    rcases Op.bound_cases hx with hx | hx
    · exact h.absent hdir₀ m x hx
    · rw [hx]
      generalize (Op.openWritable n true app).effect me d.fs g = t at hd
      cases hd with
      | create m app hn hsome =>
        rw [hdir₀] at hsome
        cases hsome
      | nothing => exact h.absent hdir₀ m _ (d.named m)
      | locks => exact h.absent hdir₀ m _ (d.named m)
      | content b hw => cases hw
  · rcases hbound .journal hi with hi | hnew
    · exact hheld hi (h.journal i hi)
    · exact hnew
  · have hi := hold hc.symm hi
    exact hheld hi (h.commit i hi)
  · rcases hbound .publish hi with hi | hnew
    · exact hheld hi (h.publish i hi)
    · intro b hb
      rw [hnew b hb]
      exact .nil
  · have hi := hold ht.symm hi
    by_cases hm : n = .lock
    · exact hl hm i hi
    · exact h.temp i hi (hold (Ne.symm hm) hnone)

/-- The three files before the witness gets (1,1). -/
structure Disk.Founded (d : Disk) (j c p : Nat) : Prop where
  initial : d.Initial
  dir : d.fs.dir ≠ none
  journal : d.Names .journal j
  commit : d.Names .commit c
  publish : d.Names .publish p
  journal_ne : j ≠ p
  commit_ne : c ≠ p

def Disk.Ready (d : Disk) (p : Nat) : Prop :=
  (∃ j c, d.Founded j c p) ∧ d.Holds p (· = PublishWitness.initializing.encode)

def Disk.Finished (d : Disk) : Prop :=
  ∃ j c p, d.Founded j c p ∧ d.Holds p (· = (PublishWitness.clean 1).encode)

omit [SerdeJson] in
theorem Disk.Founded.gain (h : d.Founded j c p) (hd : Disk.Gains (fun _ => True) p P d d')
    (hP : ∀ b, P b → WitnessPart b) : d'.Founded j c p where
  initial := h.initial.gain hd (fun hp => h.journal_ne (Option.some.inj (h.journal _ hp)).symm)
    (fun hp => h.commit_ne (Option.some.inj (h.commit _ hp)).symm) fun _ => hP
  dir := hd.dir h.dir
  journal := h.journal.gain hd trivial
  commit := h.commit.gain hd trivial
  publish := h.publish.gain hd trivial
  journal_ne := h.journal_ne
  commit_ne := h.commit_ne

omit [SerdeJson] in
theorem keeps_finish (h : d.Ready p) :
    Keeps (Event.onDisk me) Disk.Initial Disk.Finished (rewriteScript p (.clean 1)) d := by
  obtain ⟨⟨j, c, hf⟩, hw⟩ := h
  refine (keeps_rewriteDisk (I := fun d => d.Founded j c p) hf fun d d' h hd => h.gain hd ?_).mono
    (fun _ h => h.initial) fun _ h hw => ⟨j, c, p, h, hw⟩
  rintro b ⟨k, rfl⟩
  exact .inr (List.take_prefix _ _)

omit [SerdeJson] in
variable (me) in
theorem Disk.Ready.emptied (h : d.Ready p) : ((Op.setLen p).onDisk me true .full d).Barriered p := by
  obtain ⟨⟨j, c, hf⟩, hw⟩ := h
  have hd : Disk.Gains (fun _ => True) p (· = []) d ((Op.setLen p).onDisk me true .full d) := by
    refine Op.gains (fun _ _ => id) (fun i hi => (Option.some.inj hi).symm) fun _ b hb => ?_
    rcases Op.held_written rfl hb with hb | ⟨g', rfl⟩
    · exact .inl hb
    · cases g' with
      | nothing | torn => exact .inl (d.shown p)
      | full => exact .inr (d.fs.content_setContent_same p [])
  have hf' := hf.gain hd fun b hb => hb ▸ .nil
  refine ⟨⟨j, hf'.journal, hf'.initial.journal j ?_⟩, ⟨c, hf'.commit, hf'.initial.commit c ?_⟩, hf'.publish, ?_⟩
  · rw [← hf'.journal.entry]
    exact Disk.named _ _
  · rw [← hf'.commit.entry]
    exact Disk.named _ _
  · have hheld : d.held p = {PublishWitness.initializing.encode} :=
      Set.Subset.antisymm hw (Set.singleton_subset_iff.mpr (hw.content ▸ d.shown p))
    show (Op.setLen p).heldAfter me true .full d p = _
    rw [Op.heldAfter_written me true .full d rfl, if_pos rfl, hheld]
    ext b
    constructor
    · rintro (hb | ⟨g', rfl⟩)
      · exact .inl hb
      · cases g' with
        | nothing | torn => exact .inl hw.content
        | full => exact .inr (d.fs.content_setContent_same p [])
    · rintro (hb | hb)
      · exact .inl hb
      · exact .inr ⟨.full, hb.trans (d.fs.content_setContent_same p []).symm⟩

/-! ## Scripts up to the last rewrite -/

omit [SerdeJson] in
theorem Disk.Initial.ready (h : d.Initial) (hdir : d.fs.dir ≠ none) (hj : d.fs.entries .journal = some j)
    (hc : d.fs.entries .commit = some c) (hp : d.fs.entries .publish = some p) (hjp : j ≠ p) (hcp : c ≠ p)
    (hw : d.Holds p (· = PublishWitness.initializing.encode)) :
    ((Op.syncDir .state).onDisk me true .full d).Ready p := by
  have hnames {n : Name} {i : Nat} (hi : d.fs.entries n = some i) :
      ((Op.syncDir .state).onDisk me true .full d).Names n i := by
    intro x hx
    have hx : x = d.fs.entries n := hx
    rw [hx, hi]
  exact ⟨⟨j, c, h.quiet (fun _ => id) rfl _ _, hdir, hnames hj, hnames hc, hnames hp, hjp, hcp⟩, hw⟩

/-- The script of a store whose witness was never created, up to the rewrite to (1,1). -/
def witnessStart (p : Nat) : List Op :=
  [.openWritable .publish true false, .chmod p 0o600] ++ (rewriteScript p .initializing ++ [.syncDir .state])

omit [SerdeJson] in
theorem keeps_witnessStart (h : d.Initial) (hdir : d.fs.dir ≠ none) (hj : d.fs.entries .journal = some j)
    (hc : d.fs.entries .commit = some c) (hp : d.fs.entries .publish = none) :
    Keeps (Event.onDisk me) Disk.Initial (Disk.Ready · d.fs.next) (witnessStart d.fs.next) d := by
  have hjp : j ≠ d.fs.next := Nat.ne_of_lt (d.fs.fresh _ _ hj)
  have hcp : c ≠ d.fs.next := Nat.ne_of_lt (d.fs.fresh _ _ hc)
  have hnot (n : Name) : some d.fs.next ∉ d.bound n := fun hi => absurd (d.used _ _ hi) (Nat.lt_irrefl _)
  generalize hnext : d.fs.next = p at hjp hcp hnot
  have hcreate (ok : Bool) (g : Progress) : ((Op.openWritable .publish true false).onDisk me ok g d).Initial :=
    h.create (n := .publish) (by decide) (by decide) (fun hl => nomatch hl) false ok g
  refine keeps_step h hcreate ?_
  have h₁ := hcreate true .full
  have hfs₁ : ((Op.openWritable .publish true false).onDisk me true .full d).fs = d.fs.create .publish :=
    effect_create hp (Option.isSome_iff_ne_none.mpr hdir)
  have hsub₁ (n : Name) (hn : n ≠ .publish) :
      ((Op.openWritable .publish true false).onDisk me true .full d).bound n ⊆ d.bound n :=
    Op.bound_subset (o := .openWritable .publish true false) hn
  generalize (Op.openWritable .publish true false).onDisk me true .full d = d₁ at h₁ hfs₁ hsub₁
  refine keeps_step h₁ (fun ok g => h₁.quiet (fun _ => id) rfl ok g) ?_
  let I (d : Disk) : Prop := d.Initial ∧ d.fs.dir ≠ none ∧ d.fs.entries .journal = some j ∧ d.fs.entries .commit = some c ∧
    d.fs.entries .publish = some p ∧ some p ∉ d.bound .journal ∧ some p ∉ d.bound .commit
  have hI₂ : I ((Op.chmod p 0o600).onDisk me true .full d₁) := by
    have hentries : ((Op.chmod p 0o600).onDisk me true .full d₁).fs.entries = (d.fs.create .publish).entries := by
      rw [← hfs₁]
      rfl
    refine ⟨h₁.quiet (fun _ => id) rfl _ _, ?_, ?_, ?_, ?_, fun hi => ?_, fun hi => ?_⟩
    · refine ((Op.chmod p 0o600).effect_does me d₁.fs .full).dir ?_
      rw [hfs₁]
      exact hdir
    · rw [hentries, Fs.create_entries, if_neg (by decide), hj]
    · rw [hentries, Fs.create_entries, if_neg (by decide), hc]
    · rw [hentries, Fs.create_entries, if_pos rfl, hnext]
    · exact hnot _ (hsub₁ _ (by decide) (Op.bound_subset (o := .chmod p 0o600) id hi))
    · exact hnot _ (hsub₁ _ (by decide) (Op.bound_subset (o := .chmod p 0o600) id hi))
  have hI (d d' : Disk) (h : I d)
      (hd : Disk.Gains (fun _ => True) p (fun b => ∃ k, b = PublishWitness.initializing.encode.take k) d d') : I d' := by
    obtain ⟨hi, hdir, hj, hc, hp, hnj, hnc⟩ := h
    refine ⟨hi.gain hd hnj hnc ?_, hd.dir hdir, (hd.entries _ trivial).trans hj, (hd.entries _ trivial).trans hc,
      (hd.entries _ trivial).trans hp, fun hx => hnj (hd.bound _ trivial hx), fun hx => hnc (hd.bound _ trivial hx)⟩
    rintro - b ⟨k, rfl⟩
    exact .inl (List.take_prefix _ _)
  refine ((keeps_rewriteDisk hI₂ hI).mono (G := fun d => I d ∧ d.Holds p (· = PublishWitness.initializing.encode))
    (fun _ h => h.1) fun _ h hw => ⟨h, hw⟩).append ?_
  rintro d₃ - ⟨⟨hi, hdir, hj, hc, hp, -⟩, hw⟩
  exact keeps_step hi (fun ok g => hi.quiet (fun _ => id) rfl ok g)
    ⟨hi.quiet (fun _ => id) rfl _ _, hi.ready hdir hj hc hp hjp hcp hw⟩

/-- The script of a new store, up to the rewrite to (1,1); `n` is the next inode. -/
def storeStart (n : Nat) : List Op :=
  [.openWritable .lock true false, .chmod n 0o600, .openWritable .journal true true, .chmod (n + 1) 0o600, .sync n,
    .sync (n + 1), .syncDir .state] ++ (commitScript false (n + 2) CommitPoint.empty ++ witnessStart (n + 3))

omit [SerdeJson] in
/-- One operation that is neither a write nor about a name. -/
theorem keeps_quiet {o : Op} {rest : List Op} {F : Disk → Prop} (h : d.Initial) (hn : ∀ n, ¬o.Renames n)
    (hw : o.written = none)
    (hr : ∀ d', d'.Initial → d'.fs = (o.run me d.fs).2 → (∀ n, d'.bound n ⊆ d.bound n) →
      Keeps (Event.onDisk me) Disk.Initial F rest d') :
    Keeps (Event.onDisk me) Disk.Initial F (o :: rest) d :=
  keeps_step h (fun ok g => h.quiet hn hw ok g) (hr _ (h.quiet hn hw _ _) rfl fun n => Op.bound_subset (hn n))

omit [SerdeJson] in
theorem keeps_storeStart (h : d.Initial) (hdir : d.fs.dir ≠ none) (hnone : ∀ n, d.fs.entries n = none)
    (ht : ∀ i, some i ∉ d.bound .commitTemp) :
    Keeps (Event.onDisk me) Disk.Initial (Disk.Ready · (d.fs.next + 3)) (storeStart d.fs.next) d := by
  have hsome : d.fs.dir.isSome = true := Option.isSome_iff_ne_none.mpr hdir
  generalize hn : d.fs.next = n
  -- the lock
  have hlock (ok : Bool) (g : Progress) : ((Op.openWritable .lock true false).onDisk me ok g d).Initial :=
    h.create (n := .lock) (by decide) (by decide) (fun _ => ht) false ok g
  refine keeps_step h hlock ?_
  have h₁ := hlock true .full
  have hfs₁ : ((Op.openWritable .lock true false).onDisk me true .full d).fs = d.fs.create .lock :=
    effect_create (hnone .lock) hsome
  generalize (Op.openWritable .lock true false).onDisk me true .full d = d₁ at h₁ hfs₁
  refine keeps_quiet h₁ (fun _ => id) rfl fun d₂ h₂ hfs₂ _ => ?_
  replace hfs₂ : d₂.fs = (d.fs.create .lock).private_ n := by
    rw [hfs₂, hfs₁]
    rfl
  -- the journal
  have hjournal (ok : Bool) (g : Progress) : ((Op.openWritable .journal true true).onDisk me ok g d₂).Initial :=
    h₂.create (n := .journal) (by decide) (by decide) (fun hl => nomatch hl) true ok g
  refine keeps_step h₂ hjournal ?_
  have h₃ := hjournal true .full
  have hfs₃ : ((Op.openWritable .journal true true).onDisk me true .full d₂).fs = d₂.fs.create .journal := by
    refine effect_create ?_ ?_
    · rw [hfs₂]
      exact hnone .journal
    · rw [hfs₂]
      exact hsome
  generalize (Op.openWritable .journal true true).onDisk me true .full d₂ = d₃ at h₃ hfs₃
  refine keeps_quiet h₃ (fun _ => id) rfl fun d₄ h₄ hfs₄ _ => ?_
  refine keeps_quiet h₄ (fun _ => id) rfl fun d₅ h₅ hfs₅ _ => ?_
  refine keeps_quiet h₅ (fun _ => id) rfl fun d₆ h₆ hfs₆ _ => ?_
  replace hfs₆ : d₆.fs = (d₂.fs.create .journal).private_ (n + 1) := by
    rw [show d₆.fs = d₅.fs from hfs₆, show d₅.fs = d₄.fs from hfs₅, hfs₄, hfs₃]
    rfl
  -- the names of both are durable
  refine keeps_step h₆ (fun ok g => h₆.quiet (fun _ => id) rfl ok g) ?_
  have h₇ : ((Op.syncDir .state).onDisk me true .full d₆).Initial := h₆.quiet (fun _ => id) rfl _ _
  have hnamed₇ : ((Op.syncDir .state).onDisk me true .full d₆).AllNamed := allNamed_syncDir
  have hfs₇ : ((Op.syncDir .state).onDisk me true .full d₆).fs = (d₂.fs.create .journal).private_ (n + 1) := hfs₆
  generalize (Op.syncDir .state).onDisk me true .full d₆ = d₇ at h₇ hnamed₇ hfs₇
  have hentries : d₇.fs.entries = ((d.fs.create .lock).create .journal).entries := by
    rw [hfs₇, hfs₂]
    rfl
  have hnames {m : Name} {x : Option Nat} (hm : d₇.fs.entries m = x) : ∀ y ∈ d₇.bound m, y = x := by
    intro y hy
    rw [hnamed₇ m, hm] at hy
    exact hy
  have hnext : d₇.fs.next = n + 2 := by
    rw [hfs₇, hfs₂, ← hn]
    rfl
  have htemp : d₇.fs.entries .commitTemp = none := by
    rw [hentries]
    exact hnone .commitTemp
  have hlock₇ : d₇.Names .lock n := hnames (by
    rw [hentries, ← hn]
    rfl)
  have hjournal₇ : d₇.Names .journal (n + 1) := hnames (by
    rw [hentries, ← hn]
    rfl)
  have hpublish₇ : ∀ x ∈ d₇.bound .publish, x = none := hnames (by
    rw [hentries]
    exact hnone .publish)
  have hdir₇ : d₇.fs.dir ≠ none := by
    rw [hfs₇, hfs₂]
    exact hdir
  -- the commit metadata
  let I (e : Disk) : Prop := e.Initial ∧ e.fs.dir ≠ none ∧ e.Names .lock n ∧ e.Names .journal (n + 1) ∧
    ∀ x ∈ e.bound .publish, x = none
  have hcommit : Keeps (Event.onDisk me) I (Disk.Committed (n + 2) CommitPoint.empty.encode)
      (commitScript (d₇.fs.entries .commitTemp).isSome (n + 2) CommitPoint.empty) d₇ := by
    refine keeps_commitDisk ⟨h₇, hdir₇, hlock₇, hjournal₇, hpublish₇⟩ (Option.isSome_iff_ne_none.mpr hdir₇) hnext ?_
    rintro e e' ⟨hi, hdir, hl, hj, hp⟩ hg hmoves
    have hl' : e'.Names .lock n := hl.gain hg (by decide)
    have hj' : e'.Names .journal (n + 1) := hj.gain hg (by decide)
    have hp' : ∀ x ∈ e'.bound .publish, x = none := fun x hx => hp x (hg.bound _ (by decide) hx)
    refine ⟨⟨fun hno => absurd hno (hg.dir hdir), fun i hx => ?_, fun i hx => ?_, fun i hx => ?_, fun i _ hx => ?_⟩,
      hg.dir hdir, hl', hj', hp'⟩
    · obtain rfl : i = n + 1 := Option.some.inj (hj' _ hx)
      have hx := hg.bound _ (by decide) hx
      exact (hi.journal _ hx).gain hg (e.used _ _ hx) fun ht => absurd ht (by omega)
    · rcases hmoves i hx with ⟨hx, hne⟩ | ⟨rfl, hnew⟩
      · exact (hi.commit i hx).gain hg (e.used _ _ hx) fun ht => absurd ht hne
      · exact hnew
    · exact absurd (hp' _ hx) (Option.some_ne_none i)
    · cases hl' _ hx
  rw [htemp] at hcommit
  refine (hcommit.mono (G := fun e => I e ∧ e.Committed (n + 2) CommitPoint.empty.encode) (fun _ h => h.1)
    fun _ h hc => ⟨h, hc⟩).append ?_
  rintro e - ⟨⟨hi, hdir, hl, hj, hp⟩, hc⟩
  have hw : Keeps (Event.onDisk me) Disk.Initial (Disk.Ready · e.fs.next) (witnessStart e.fs.next) e :=
    keeps_witnessStart hi hdir hj.entry hc.entry (hp _ (e.named _))
  rwa [hc.next] at hw

omit [SerdeJson] in
theorem storeScript_eq (n : Nat) : storeScript false n = storeStart n ++ rewriteScript (n + 3) (.clean 1) := rfl

omit [SerdeJson] in
theorem witnessScript_eq (p : Nat) : witnessScript p = witnessStart p ++ rewriteScript p (.clean 1) := rfl

omit [SerdeJson] in
theorem encode_ne_clean : PublishWitness.initializing.encode ≠ (PublishWitness.clean 1).encode ∧
    CommitPoint.empty.encode ≠ (PublishWitness.clean 1).encode := by
  refine ⟨by decide, fun h => ?_⟩
  -- the second members have different names
  have h₁ : CommitPoint.empty.encode[20]? = (PublishWitness.clean 1).encode[20]? := congrArg (·[20]?) h
  revert h₁
  decide

omit [SerdeJson] in
theorem not_mem_witnessStart (p i : Nat) : Op.write i (PublishWitness.clean 1).encode ∉ witnessStart p := by
  simp [witnessStart, rewriteScript, encode_ne_clean.1.symm]

omit [SerdeJson] in
theorem not_mem_storeStart (n i : Nat) : Op.write i (PublishWitness.clean 1).encode ∉ storeStart n := by
  simp [storeStart, commitScript, not_mem_witnessStart, encode_ne_clean.2.symm]

/-- A script of an open of `d` up to the rewrite of the witness `p` to (1,1): it keeps the invariant, does not write
(1,1), and leaves everything ready for it. -/
structure Disk.Starts (me : Nat) (d : Disk) (p : Nat) (start : List Op) : Prop where
  other : ∀ i, Op.write i (PublishWitness.clean 1).encode ∉ start
  keeps : Keeps (Event.onDisk me) Disk.Initial (fun d => d.fs.dir ≠ none → d.Ready p) start d

omit [SerdeJson] in
theorem Disk.Initial.temp_none (h : d.Initial) (hl : d.fs.entries .lock = none) (i : Nat) : some i ∉ d.bound .commitTemp :=
  fun hi => h.temp i hi (hl ▸ d.named .lock)

omit [SerdeJson] in
variable (me) in
theorem Disk.Initial.store_starts (h : d.Initial) (hdir : d.fs.dir ≠ none) (hnone : ∀ n, n ≠ .commitTemp → d.fs.entries n = none) :
    d.fs.entries .commitTemp = none ∧ d.Starts me (d.fs.next + 3) (storeStart d.fs.next) := by
  have htemp := h.temp_none (hnone .lock (by decide))
  have hno : d.fs.entries .commitTemp = none :=
    Option.eq_none_iff_forall_ne_some.mpr fun i hi => htemp i (hi ▸ d.named .commitTemp)
  have hall (n : Name) : d.fs.entries n = none := by
    by_cases hn : n = .commitTemp
    · rw [hn, hno]
    · exact hnone n hn
  exact ⟨hno, not_mem_storeStart _, (keeps_storeStart h hdir hall htemp).mono (fun _ h => h) fun _ _ h _ => h⟩

/-- The making of the state directory, and the new store in it. -/
theorem Disk.Initial.dir_starts (h : d.Initial) (hdir : d.fs.dir = none) (k : Nat) :
    d.Starts me (d.fs.next + 4) (dirScript k ++ storeStart (d.fs.next + 1)) := by
  have ha : d.Absent := ⟨hdir, h.absent hdir⟩
  have hrest (i : Nat) : Op.write i (PublishWitness.clean 1).encode ∉ dirScript k ++ storeStart (d.fs.next + 1) := by
    simp [dirScript, not_mem_storeStart]
  refine ⟨hrest, keeps_step h (fun ok g => (ha.mkdir_bare ok g).initial) ?_⟩
  have hbare₁ : (Op.mkdir.onDisk me true .full d).Bare := ha.mkdir_bare true .full
  have hmade : (Op.mkdir.onDisk me true .full d).Absent ∨ _ := ha.mkdir true .full
  rcases hmade with h₁ | ⟨h₁, hf₁⟩
  · -- no directory was made
    refine (keeps_absent h₁ ?_).mono (fun _ h => Disk.Bare.initial h.names) fun _ h _ hd => absurd h.dir hd
    simp [storeStart, witnessStart, commitScript, rewriteScript]
  replace hf₁ : (Op.mkdir.onDisk me true .full d).fs = d.fs.mkdir := hf₁
  clear h₁
  generalize Op.mkdir.onDisk me true .full d = d₁ at hbare₁ hf₁
  refine keeps_quiet hbare₁.initial (fun _ => id) rfl fun d₂ h₂ hf₂ hb₂ => ?_
  refine keeps_quiet h₂ (fun _ => id) rfl fun d₃ h₃ hf₃ hb₃ => ?_
  refine keeps_quiet h₃ (fun _ => id) rfl fun d₄ h₄ hf₄ hb₄ => ?_
  replace hf₄ : d₄.fs = ((Op.chmodDir 0o700).run me d.fs.mkdir).2 := by
    rw [show d₄.fs = d₃.fs from hf₄, show d₃.fs = d₂.fs from hf₃, hf₂, hf₁]
  have hbare₄ : d₄.Bare := fun n x hx => hbare₁ n x (hb₂ n (hb₃ n (hb₄ n hx)))
  have hdir₄ : d₄.fs.dir ≠ none := by
    rw [hf₄]
    exact Option.some_ne_none _
  have hs := (h₄.store_starts me hdir₄ fun n _ => hbare₄.entries n).2.keeps
  rw [show d₄.fs.next = d.fs.next + 1 by rw [hf₄]; rfl] at hs
  exact hs

theorem Disk.Initial.completable (h : d.Initial) (he : EmptyCommit d.fs j) :
    d.fs.image .journal = some [] ∧ d.fs.image .commit = some CommitPoint.empty.encode := by
  obtain ⟨c, hc, -⟩ := he.commit
  refine ⟨?_, ?_⟩
  · rw [Fs.image_eq he.journal.entry, he.empty]
  · rw [Fs.image_eq hc.entry]
    exact congrArg some ((h.commit c (hc.entry ▸ d.named .commit)).content)

/-- A witness that can be read is the whole of (1,0) or of (1,1). -/
theorem Disk.Initial.witness (h : d.Initial) (hp : d.fs.entries .publish = some p) {w : PublishWitness}
    (hw : PublishWitness.decode (d.fs.content p) = .ok w) :
    w = .initializing ∧ d.fs.content p = PublishWitness.initializing.encode ∨
      w = .clean 1 ∧ d.fs.content p = (PublishWitness.clean 1).encode := by
  have hpart : WitnessPart (d.fs.content p) := (h.publish p (hp ▸ d.named .publish)).content
  have hwhole {v : PublishWitness} (hv : v.Valid) (hb : d.fs.content p <+: v.encode) :
      w = v ∧ d.fs.content p = v.encode := by
    by_cases he : d.fs.content p = v.encode
    · rw [he, PublishWitness.decode_encode hv] at hw
      exact ⟨(Except.ok.inj hw).symm, he⟩
    · obtain ⟨_, herr⟩ := PublishWitness.decode_torn hb he
      rw [herr] at hw
      cases hw
  rcases hpart with hb | hb
  · exact .inl (hwhole PublishWitness.initializing_valid hb)
  · exact .inr (hwhole (PublishWitness.clean_valid (by decide) (by decide)) hb)

variable (me) in
/-- A script of an open starts from a path without artifacts or from a completable image. -/
theorem Disk.Initial.openScript (h : d.Initial) {script : List Op} (hs : OpenScript d.fs script) :
    ((∀ n, d.fs.entries n = none) ∨ d.fs.Completable) ∧
      ∃ start p, script = start ++ rewriteScript p (.clean 1) ∧ d.Starts me p start := by
  cases hs with
  | create k hd _ =>
    refine ⟨.inl fun n => h.absent hd n _ (d.named n), _, _, ?_, h.dir_starts hd k⟩
    rw [storeScript_eq, List.append_assoc]
  | fresh hd hnone =>
    obtain ⟨htemp, hstarts⟩ := h.store_starts me hd hnone
    refine ⟨.inl fun n => ?_, _, _, ?_, hstarts⟩
    · by_cases hn : n = .commitTemp
      · rw [hn, htemp]
      · exact hnone n hn
    · rw [htemp]
      exact storeScript_eq _
  | existing _ hr =>
    cases hr with
    | @bare j he hp =>
      obtain ⟨hj, hc⟩ := h.completable he
      obtain ⟨c, hcommit, -⟩ := he.commit
      refine ⟨.inr ⟨hj, hc, .inl ?_⟩, _, _, witnessScript_eq _, not_mem_witnessStart _, ?_⟩
      · rw [Fs.image, hp]
        rfl
      · exact (keeps_witnessStart h he.journal.dir he.journal.entry hcommit.entry hp).mono (fun _ h => h) fun _ _ h _ => h
    | @resume j p he hp hw =>
      obtain ⟨hj, hc⟩ := h.completable he
      obtain ⟨c, hcommit, -⟩ := he.commit
      have hW : d.fs.content p = PublishWitness.initializing.encode := by
        rcases h.witness hp.entry hw with ⟨-, hW⟩ | ⟨hw, -⟩
        · exact hW
        · exact absurd hw (PublishWitness.initializing_ne_clean 1)
      refine ⟨.inr ⟨hj, hc, .inr ?_⟩, [.sync p, .syncDir .state], p, rfl, by simp, ?_⟩
      · rw [Fs.image_eq hp.entry, hW]
      -- no other name stands for the witness
      have hne {n : Name} {i : Nat} (hn : n ≠ .publish) (hi : d.fs.entries n = some i) : i ≠ p :=
        fun he => hn (Fs.one_name hp.nlink (he ▸ hi) hp.entry)
      have hjp : j ≠ p := hne (by decide) he.journal.entry
      have hcp : c ≠ p := hne (by decide) hcommit.entry
      refine keeps_step h (fun ok g => h.quiet (fun _ => id) rfl ok g) ?_
      have h₁ : ((Op.sync p).onDisk me true .full d).Initial := h.quiet (fun _ => id) rfl _ _
      have hw₁ : ((Op.sync p).onDisk me true .full d).Holds p (· = PublishWitness.initializing.encode) := by
        rw [← hW]
        exact holds_sync p
      refine keeps_step h₁ (fun ok g => h₁.quiet (fun _ => id) rfl ok g) ⟨h₁.quiet (fun _ => id) rfl _ _, fun _ => ?_⟩
      exact h₁.ready he.journal.dir he.journal.entry hcommit.entry hp.entry hjp hcp hw₁

omit [SerdeJson] in
/-- A whole script keeps the invariant, and at its end everything is durable. -/
theorem Disk.Starts.script {start : List Op} (h : d.Starts me p start) :
    Keeps (Event.onDisk me) Disk.Initial (fun d => d.fs.dir ≠ none → d.Finished)
      (start ++ rewriteScript p (.clean 1)) d := by
  refine h.keeps.append fun e hi hr => ?_
  by_cases hdir : e.fs.dir = none
  · refine (keeps_absent ⟨hdir, hi.absent hdir⟩ ?_).mono (fun _ h => Disk.Bare.initial h.names) fun _ h _ hd => absurd h.dir hd
    simp [rewriteScript]
  · exact (keeps_finish (hr hdir)).mono (fun _ h => h) fun _ _ h _ => h

/-- What a known snapshot is before the first append. -/
theorem Disk.Initial.reads (h : d.Initial) {snap : Snapshot} (hr : Reads d.fs snap) :
    snap.entries = [] ∧ d.fs.Initialized := by
  obtain ⟨j, c, p, hj, hc, hp, himage⟩ := hr
  have hclean := readImage_eq_ok.mp himage
  have hJ : d.fs.content j = [] := (h.journal j (hj.entry ▸ d.named .journal)).content
  have hC : d.fs.content c = CommitPoint.empty.encode := (h.commit c (hc.entry ▸ d.named .commit)).content
  have hW : d.fs.content p = (PublishWitness.clean 1).encode := by
    rcases h.witness hp.entry hclean.witness with ⟨hw, -⟩ | ⟨-, hW⟩
    · exact absurd hw.symm (PublishWitness.initializing_ne_clean _)
    · exact hW
  refine ⟨?_, ?_, ?_, ?_⟩
  · obtain ⟨t, ht, hes⟩ := hclean.text
    rw [hJ] at ht
    obtain rfl : [] = t := utf8_inj ht
    exact (Except.ok.inj hes).symm
  · rw [Fs.image_eq hj.entry, hJ]
  · rw [Fs.image_eq hc.entry, hC]
  · rw [Fs.image_eq hp.entry, hW]

/-- No open finds a publication without a known result. -/
theorem Disk.Initial.known (h : d.Initial) {allow : OpError → Prop} (hp : ∀ e, allow (.profile e) → e.isOutcomeUnknown = false)
    {e : JournalError} (he : OpenError allow d.fs e) : e.isOutcomeUnknown = false := by
  rcases he with hs | hk | ha
  · cases hs with
    | read hr =>
      rcases hr with ⟨_, rfl⟩ | ha
      · rfl
      · exact hp e ha
    | commit _ he => exact CommitPoint.decode_known he
    | publish _ he => exact PublishWitness.decode_known he
    | @image j c p hj hc hpub he =>
      rw [(h.journal j (hj.entry ▸ d.named .journal)).content, (h.commit c (hc.entry ▸ d.named .commit)).content] at he
      cases hw : PublishWitness.decode (d.fs.content p) with
      | error e' =>
        simp only [readImage, CommitPoint.decode_empty, hw, bind, Except.bind] at he
        cases he
        exact PublishWitness.decode_known hw
      | ok w =>
        rcases h.witness hpub.entry hw with ⟨rfl, -⟩ | ⟨-, hW⟩
        · rw [readImage_of_decoded CommitPoint.decode_empty hw, readDecoded, if_pos (by decide), if_neg (by simp),
            if_neg (by simp)] at he
          cases he
          rfl
        · rw [hW, cleanImage_empty.reads] at he
          cases he
    | prepared hpub hw hsucc _ =>
      rcases h.witness hpub.entry hw with ⟨rfl, -⟩ | ⟨rfl, -⟩
      · exact absurd hsucc (by decide)
      · rw [PublishWitness.clean_isPreparedSuccessor] at hsucc
        cases hsucc
  · exact hk
  · exact hp e ha

end

end Aizign
