import Aizign.Durable
import Aizign.StoreCommitted

/-!
# The phases of a store on a disk

A store is absent without its directory. It is young until the journal's name is
durable: until then no file that may be its witness is CLEAN, so nothing is
known and no append starts. Then its journal is durable with the lines of the
committed entries. It is stuck while PREPARED is the only witness a power loss
can leave. The scripts of an open and of an append lead from phase to phase and
never back to fewer entries, wherever they stop.
-/

namespace Aizign

open Store

variable [SerdeJson]

namespace Disk

structure Absent (d : Disk) : Prop where
  dir : d.fs.dir = none
  names : ∀ n, ∀ x ∈ d.bound n, x = none

/-- No append has begun: the journal has no lines, and no witness is CLEAN. -/
structure Young (d : Disk) : Prop where
  dir : d.fs.dir ≠ none
  journal : ∀ i, some i ∈ d.bound .journal → d.Holds i (· = [])
  publish : ∀ i, some i ∈ d.bound .publish → d.Holds i fun W => ∀ g, PublishWitness.decode W ≠ .ok (.clean g)

/-- The journal `j` is durable and has the lines of `es`; the name of the witness `p` is durable. -/
structure Kept (d : Disk) (es : List JournalEntry) (j p : Nat) (J : Bytes) : Prop where
  dir : d.fs.dir ≠ none
  journal : d.Names .journal j
  publish : d.Names .publish p
  lines : d.Holds j (· = J)
  text : ∃ t, J = utf8 t ∧ decodeContents t = .ok es

structure Stuck (d : Disk) (p : Nat) : Prop where
  dir : d.fs.dir ≠ none
  publish : d.Names .publish p
  witness : d.Holds p fun W => ∃ w, PublishWitness.decode W = .ok w ∧ w.isPreparedSuccessor = true

/-- The phases in which what is known, if anything is, is `es`. -/
inductive Phase (es : List JournalEntry) (d : Disk) : Prop
  | absent (h : d.Absent) (he : es = [])
  | young (h : d.Young) (he : es = [])
  | kept {j p : Nat} {J : Bytes} (h : d.Kept es j p J)
  | stuck {p : Nat} (h : d.Stuck p)

section
variable {d d' : Disk} {es : List JournalEntry} {N : Name → Prop} {i j p q : Nat} {J : Bytes} {P : Bytes → Prop}

omit [SerdeJson] in
theorem Absent.narrow (h : d.Absent) (hd : d.Narrows d') : d'.Absent :=
  ⟨hd.dir.trans h.dir, fun n x hx => h.names n x (hd.bound n hx)⟩

omit [SerdeJson] in
theorem Absent.entries (h : d.Absent) (n : Name) : d.fs.entries n = none := h.names n _ (d.named n)

theorem Young.narrow (h : d.Young) (hd : d.Narrows d') : d'.Young where
  dir := hd.dir ▸ h.dir
  journal i hi := (h.journal i (hd.bound _ hi)).narrow hd
  publish i hi := (h.publish i (hd.bound _ hi)).narrow hd

theorem Kept.narrow (h : d.Kept es j p J) (hd : d.Narrows d') : d'.Kept es j p J :=
  ⟨hd.dir ▸ h.dir, h.journal.narrow hd, h.publish.narrow hd, h.lines.narrow hd, h.text⟩

theorem Stuck.narrow (h : d.Stuck p) (hd : d.Narrows d') : d'.Stuck p :=
  ⟨hd.dir ▸ h.dir, h.publish.narrow hd, h.witness.narrow hd⟩

theorem Phase.narrow (h : d.Phase es) (hd : d.Narrows d') : d'.Phase es := by
  cases h with
  | absent h he => exact .absent (h.narrow hd) he
  | young h he => exact .young (h.narrow hd) he
  | kept h => exact .kept (h.narrow hd)
  | stuck h => exact .stuck (h.narrow hd)

theorem Young.gain (h : d.Young) (hd : Gains N p P d d') (hN : N .journal ∧ N .publish)
    (hj : some p ∉ d.bound .journal)
    (hp : some p ∈ d.bound .publish → ∀ b, P b → ∀ g, PublishWitness.decode b ≠ .ok (.clean g)) : d'.Young where
  dir := hd.dir h.dir
  journal i hi := by
    have hi := hd.bound _ hN.1 hi
    refine (h.journal i hi).gain hd (d.used _ i hi) fun hip => ?_
    exact absurd (hip ▸ hi) hj
  publish i hi := by
    have hi := hd.bound _ hN.2 hi
    exact (h.publish i hi).gain hd (d.used _ i hi) fun hip => hp (hip ▸ hi)

theorem Kept.gain (h : d.Kept es j q J) (hd : Gains N p P d d') (hN : N .journal ∧ N .publish) (hj : j ≠ p) :
    d'.Kept es j q J :=
  ⟨hd.dir h.dir, h.journal.gain hd hN.1, h.publish.gain hd hN.2, h.lines.gain hd h.journal.lt fun hip => absurd hip hj, h.text⟩

theorem Stuck.gain (h : d.Stuck q) (hd : Gains N p P d d') (hN : N .publish) (hq : q ≠ p) : d'.Stuck q :=
  ⟨hd.dir h.dir, h.publish.gain hd hN, h.witness.gain hd h.publish.lt fun hip => absurd hip hq⟩

end

end Disk

theorem PublishWitness.prefix_ne_clean {w : PublishWitness} (hv : w.Valid) (hne : ∀ g, w ≠ .clean g) (k g : Nat) :
    PublishWitness.decode (w.encode.take k) ≠ .ok (.clean g) := by
  intro h
  by_cases hk : w.encode.take k = w.encode
  · rw [hk, PublishWitness.decode_encode hv] at h
    exact hne g (Except.ok.inj h)
  · obtain ⟨_, he⟩ := PublishWitness.decode_torn (List.take_prefix k w.encode) hk
    rw [he] at h
    cases h

omit [SerdeJson] in
theorem PublishWitness.initializing_ne_clean (g : Nat) : PublishWitness.initializing ≠ .clean g := by
  simp only [PublishWitness.initializing, PublishWitness.clean, ne_eq, PublishWitness.mk.injEq]
  omega

/-! ## Initialization -/

section
variable {me : Nat} {d : Disk}

theorem Disk.Young.quiet (h : d.Young) {o : Op} (hj : ¬o.Renames .journal) (hp : ¬o.Renames .publish)
    (hw : o.written = none) (ok : Bool) (g : Progress) : (o.onDisk me ok g d).Young := by
  have hd : Disk.Gains (fun n => n = .journal ∨ n = .publish) d.fs.next (fun _ => False) d (o.onDisk me ok g d) := by
    refine Op.gains_nothing (fun n hn => ?_) hw _ _
    rcases hn with rfl | rfl
    · exact hj
    · exact hp
  refine h.gain hd ⟨.inl rfl, .inr rfl⟩ (fun hi => ?_) fun _ b hb => hb.elim
  exact absurd (d.used _ _ hi) (Nat.lt_irrefl _)

omit [SerdeJson] in
/-- What the name of a new file may stand for: what it did before, or the new file, which is empty. -/
theorem bound_create {n : Name} {app ok : Bool} {g : Progress} {i : Nat}
    (h : some i ∈ ((Op.openWritable n true app).onDisk me ok g d).bound n) :
    some i ∈ d.bound n ∨ i = d.fs.next ∧ ((Op.openWritable n true app).onDisk me ok g d).Holds i (· = []) := by
  have hd : Op.Does d.fs (.openWritable n true app) _ := Op.effect_does me _ d.fs g
  rcases Op.bound_cases h with h | h
  · exact .inl h
  · generalize ht : (Op.openWritable n true app).effect me d.fs g = t at hd h
    cases hd with
    | nothing => exact .inl (h ▸ d.named n)
    | locks l hm => cases hm
    | content b hw => cases hw
    | create =>
      rw [Fs.create_entries, if_pos rfl] at h
      have hi : i = d.fs.next := Option.some.inj h
      refine .inr ⟨hi, fun b hb => ?_⟩
      have hb : b ∈ (Op.openWritable n true app).heldAfter me ok g d i := hb
      unfold Op.heldAfter at hb
      rw [if_pos hi, ht] at hb
      have hb : b = (d.fs.create n).content i := hb
      rw [hb, Fs.content_create, if_pos hi]

/-- Creating a file, under any name, keeps a store young. -/
theorem Disk.Young.create (h : d.Young) (n : Name) (app ok : Bool) (g : Progress) :
    ((Op.openWritable n true app).onDisk me ok g d).Young := by
  have hold (m : Name) {i : Nat} (hi : some i ∈ ((Op.openWritable n true app).onDisk me ok g d).bound m) :
      some i ∈ d.bound m ∨ ((Op.openWritable n true app).onDisk me ok g d).Holds i (· = []) := by
    by_cases hm : m = n
    · subst hm
      exact (bound_create hi).imp_right And.right
    · exact .inl (Op.bound_subset (o := .openWritable n true app) hm hi)
  have hheld (m : Name) {i : Nat} (hi : some i ∈ d.bound m) :
      ((Op.openWritable n true app).onDisk me ok g d).held i ⊆ d.held i :=
    Op.held_subset (Option.some_ne_none i).symm (d.used m i hi)
  refine ⟨(Op.effect_does me _ d.fs g).dir h.dir, fun i hi => ?_, fun i hi => ?_⟩
  · rcases hold .journal hi with hi | hnew
    · exact fun b hb => h.journal i hi b (hheld _ hi hb)
    · exact hnew
  · rcases hold .publish hi with hi | hnew
    · exact fun b hb => h.publish i hi b (hheld _ hi hb)
    · intro b hb g hg
      rw [hnew b hb] at hg
      exact PublishWitness.prefix_ne_clean PublishWitness.initializing_valid PublishWitness.initializing_ne_clean 0 g hg

/-- From the barrier of the directory on, the journal is durable. -/
theorem keeps_completeDisk {j p : Nat} (h : d.Young) (hj : d.fs.entries .journal = some j)
    (hp : d.fs.entries .publish = some p) (hjp : j ≠ p) : Keeps (Event.onDisk me) (Disk.Phase []) (fun _ => True) (completeScript p) d := by
  refine keeps_step (.young h rfl) (fun ok g => .young (h.quiet id id rfl ok g) rfl) ?_
  have hnames {n : Name} {i : Nat} (hi : d.fs.entries n = some i) :
      ((Op.syncDir .state).onDisk me true .full d).Names n i := by
    intro x hx
    have hx : x = d.fs.entries n := hx
    rw [hx, hi]
  have hkept : ((Op.syncDir .state).onDisk me true .full d).Kept [] j p [] := by
    refine ⟨h.dir, hnames hj, hnames hp, h.journal j ?_, [], rfl, rfl⟩
    rw [← hj]
    exact d.named .journal
  refine (keeps_rewriteDisk (I := fun d => d.Kept [] j p []) hkept fun d d' h hd => ?_).mono (fun d h => .kept h)
    fun _ _ _ => trivial
  exact h.gain hd ⟨trivial, trivial⟩ hjp

theorem keeps_witnessDisk {j : Nat} (h : d.Young) (hj : d.fs.entries .journal = some j)
    (hp : d.fs.entries .publish = none) :
    Keeps (Event.onDisk me) (Disk.Phase []) (fun _ => True) (witnessScript d.fs.next) d := by
  have hjp : j ≠ d.fs.next := Nat.ne_of_lt (d.fs.fresh _ _ hj)
  have hnot : some d.fs.next ∉ d.bound .journal := fun hi => absurd (d.used _ _ hi) (Nat.lt_irrefl _)
  generalize hnext : d.fs.next = p at hjp hnot
  refine keeps_step (.young h rfl) (fun ok g => .young (h.create _ _ ok g) rfl) ?_
  have h₁ : ((Op.openWritable .publish true false).onDisk me true .full d).Young := h.create _ _ _ _
  have hg₁ : Disk.Gains (· = .journal) p (fun _ => True) d ((Op.openWritable .publish true false).onDisk me true .full d) :=
    Op.gains_nothing (by rintro n rfl; exact fun hr => nomatch hr) rfl _ _
  have hp₁ : ((Op.openWritable .publish true false).onDisk me true .full d).fs.entries .publish = some p := by
    show ((Op.openWritable .publish true false).effect me d.fs .full).entries .publish = some p
    rw [effect_create hp (Option.isSome_iff_ne_none.mpr h.dir), Fs.create_entries, if_pos rfl, hnext]
  generalize (Op.openWritable .publish true false).onDisk me true .full d = d₁ at h₁ hg₁ hp₁
  refine keeps_step (.young h₁ rfl) (fun ok g => .young (h₁.quiet id id rfl ok g) rfl) ?_
  have h₂ : ((Op.chmod p 0o600).onDisk me true .full d₁).Young := h₁.quiet id id rfl _ _
  have hg₂ : Disk.Gains (· = .journal) p (fun _ => True) d₁ ((Op.chmod p 0o600).onDisk me true .full d₁) :=
    Op.gains_nothing (fun _ _ => id) rfl _ _
  have hp₂ : ((Op.chmod p 0o600).onDisk me true .full d₁).fs.entries .publish = some p := hp₁
  generalize (Op.chmod p 0o600).onDisk me true .full d₁ = d₂ at h₂ hg₂ hp₂
  let I (d : Disk) : Prop := d.Young ∧ d.fs.entries .journal = some j ∧ d.fs.entries .publish = some p ∧
    some p ∉ d.bound .journal
  have hI₂ : I d₂ := by
    refine ⟨h₂, ?_, hp₂, fun hi => hnot (hg₁.bound _ rfl (hg₂.bound _ rfl hi))⟩
    rw [hg₂.entries _ rfl, hg₁.entries _ rfl, hj]
  have hI (d d' : Disk) (h : I d)
      (hd : Disk.Gains (fun _ => True) p (fun b => ∃ k, b = PublishWitness.initializing.encode.take k) d d') : I d' := by
    obtain ⟨hy, hj, hp, hnot⟩ := h
    refine ⟨hy.gain hd ⟨trivial, trivial⟩ hnot ?_, (hd.entries _ trivial).trans hj, (hd.entries _ trivial).trans hp,
      fun hi => hnot (hd.bound _ trivial hi)⟩
    rintro - b ⟨k, rfl⟩
    exact PublishWitness.prefix_ne_clean PublishWitness.initializing_valid PublishWitness.initializing_ne_clean k
  refine ((keeps_rewriteDisk hI₂ hI).mono (G := I) (fun d h => .young h.1 rfl) fun d h _ => h).append fun d _ h => ?_
  exact keeps_completeDisk h.1 h.2.1 h.2.2.1 hjp

theorem keeps_young {o : Op} {rest : List Op} {F : Disk → Prop} (h : d.Young) (hj : ¬o.Renames .journal)
    (hp : ¬o.Renames .publish) (hw : o.written = none)
    (hr : ∀ d', d'.Young → d'.fs = (o.run me d.fs).2 → Keeps (Event.onDisk me) (Disk.Phase []) F rest d') :
    Keeps (Event.onDisk me) (Disk.Phase []) F (o :: rest) d :=
  keeps_step (.young h rfl) (fun ok g => .young (h.quiet hj hp hw ok g) rfl) (hr _ (h.quiet hj hp hw _ _) rfl)

theorem keeps_youngCreate {n : Name} {app : Bool} {rest : List Op} {F : Disk → Prop} (h : d.Young)
    (hn : d.fs.entries n = none) (hdir : d.fs.dir.isSome = true)
    (hr : ∀ d', d'.Young → d'.fs = d.fs.create n → Keeps (Event.onDisk me) (Disk.Phase []) F rest d') :
    Keeps (Event.onDisk me) (Disk.Phase []) F (.openWritable n true app :: rest) d :=
  keeps_step (.young h rfl) (fun ok g => .young (h.create n app ok g) rfl)
    (hr _ (h.create n app _ _) (effect_create hn hdir))

theorem keeps_storeDisk (h : d.Young) (hl : d.fs.entries .lock = none) (hj : d.fs.entries .journal = none)
    (hp : d.fs.entries .publish = none) :
    Keeps (Event.onDisk me) (Disk.Phase []) (fun _ => True)
      (storeScript (d.fs.entries .commitTemp).isSome d.fs.next) d := by
  have hdir := Option.isSome_iff_ne_none.mpr h.dir
  refine keeps_youngCreate h hl hdir fun d₁ h₁ hf₁ => ?_
  refine keeps_young h₁ id id rfl fun d₂ h₂ hf₂ => ?_
  have hf₂ : d₂.fs = (d.fs.create .lock).private_ d.fs.next := by rw [hf₂, hf₁]; rfl
  refine keeps_youngCreate h₂ (by rw [hf₂]; exact hj) (by rw [hf₂]; exact hdir) fun d₃ h₃ hf₃ => ?_
  refine keeps_young h₃ id id rfl fun d₄ h₄ hf₄ => ?_
  refine keeps_young h₄ id id rfl fun d₅ h₅ hf₅ => ?_
  refine keeps_young h₅ id id rfl fun d₆ h₆ hf₆ => ?_
  refine keeps_young h₆ id id rfl fun d₇ h₇ hf₇ => ?_
  have hf₇ : d₇.fs = (d₂.fs.create .journal).private_ (d.fs.next + 1) := by
    rw [hf₇, show _ = d₅.fs from hf₆, show _ = d₄.fs from hf₅, hf₄, hf₃]
    rfl
  have hnext : d₇.fs.next = d.fs.next + 2 := by rw [hf₇, hf₂]; rfl
  have hstale : d₇.fs.entries .commitTemp = d.fs.entries .commitTemp := by rw [hf₇, hf₂]; rfl
  have hentry : d₇.fs.entries .journal = some (d.fs.next + 1) := by rw [hf₇, hf₂]; rfl
  have hpublish : d₇.fs.entries .publish = none := by rw [hf₇, hf₂]; exact hp
  rw [← hstale]
  let I (e : Disk) : Prop := e.Young ∧ e.fs.entries .journal = some (d.fs.next + 1) ∧ e.fs.entries .publish = none ∧
    some (d.fs.next + 2) ∉ e.bound .journal ∧ some (d.fs.next + 2) ∉ e.bound .publish
  have hI₇ : I d₇ := by
    refine ⟨h₇, hentry, hpublish, fun hi => ?_, fun hi => ?_⟩
    · exact absurd (d₇.used _ _ hi) (by omega)
    · exact absurd (d₇.used _ _ hi) (by omega)
  have hcommit : Keeps (Event.onDisk me) I (Disk.Committed (d.fs.next + 2) CommitPoint.empty.encode)
      (commitScript (d₇.fs.entries .commitTemp).isSome (d.fs.next + 2) CommitPoint.empty) d₇ := by
    refine keeps_commitDisk hI₇ (Option.isSome_iff_ne_none.mpr h₇.dir) hnext ?_
    rintro e e' ⟨hy, hej, hep, hn₁, hn₂⟩ hg -
    exact ⟨hy.gain hg ⟨by decide, by decide⟩ hn₁ fun hi => absurd hi hn₂, (hg.entries _ (by decide)).trans hej,
      (hg.entries _ (by decide)).trans hep, fun hi => hn₁ (hg.bound _ (by decide) hi), fun hi => hn₂ (hg.bound _ (by decide) hi)⟩
  refine (hcommit.mono (G := fun e => I e ∧ e.fs.next = d.fs.next + 3) (fun e he => .young he.1 rfl)
    fun e he hc => ⟨he, hc.next⟩).append ?_
  rintro e - ⟨⟨hy, hej, hep, -⟩, hen⟩
  have hw : Keeps (Event.onDisk me) (Disk.Phase []) (fun _ => True) (witnessScript e.fs.next) e :=
    keeps_witnessDisk hy hej hep
  rwa [hen] at hw

/-! ## Opens -/

omit [SerdeJson] in
/-- Without a state directory there is nothing to change, but for making one. -/
theorem Disk.Absent.step (h : d.Absent) {o : Op} (ho : o ≠ .mkdir) (ok : Bool) (g : Progress) :
    (o.onDisk me ok g d).Absent := by
  have hd : Op.Does d.fs o (o.effect me d.fs g) := o.effect_does me d.fs g
  have hfs : (o.effect me d.fs g).dir = none ∧ ∀ n, (o.effect me d.fs g).entries n = none := by
    generalize o.effect me d.fs g = t at hd
    cases hd with
    | mkdir => exact absurd rfl ho
    | chmodDir m hdir =>
      rw [h.dir] at hdir
      cases hdir
    | create n app hn hdir =>
      rw [h.dir] at hdir
      cases hdir
    | rename a b =>
      refine ⟨h.dir, fun n => ?_⟩
      rw [Fs.rename_entries, h.entries a, h.entries n]
      simp
    | remove m =>
      refine ⟨h.dir, fun n => ?_⟩
      rw [Fs.unlink_entries, h.entries n]
      simp
    | _ => exact ⟨h.dir, h.entries⟩
  refine ⟨hfs.1, fun n x hx => ?_⟩
  rcases Op.bound_cases hx with hx | hx
  · exact h.names n x hx
  · exact hx.trans (hfs.2 n)

omit [SerdeJson] in
theorem keeps_absent (h : d.Absent) {script : List Op} (hs : .mkdir ∉ script) :
    Keeps (Event.onDisk me) Disk.Absent (fun _ => True) script d := by
  induction script generalizing d with
  | nil => exact ⟨h, trivial⟩
  | cons o rest ih =>
    have hstep (ok : Bool) (g : Progress) : (o.onDisk me ok g d).Absent :=
      h.step (fun ho => hs (ho ▸ List.mem_cons_self)) ok g
    exact keeps_step h hstep (ih (hstep _ _) fun hm => hs (List.mem_cons_of_mem _ hm))

theorem keeps_kept {es : List JournalEntry} {j p : Nat} {J : Bytes} (h : d.Kept es j p J) {script : List Op}
    (hs : ∀ o ∈ script, (∀ n, ¬o.Renames n) ∧ o.written ≠ some j) :
    Keeps (Event.onDisk me) (fun d => d.Kept es j p J) (fun _ => True) script d := by
  induction script generalizing d with
  | nil => exact ⟨h, trivial⟩
  | cons o rest ih =>
    obtain ⟨hn, hw⟩ := hs o List.mem_cons_self
    have hstep (ok : Bool) (g : Progress) : (o.onDisk me ok g d).Kept es j p J := by
      refine ⟨(o.effect_does me d.fs g).dir h.dir, fun x hx => h.journal x (Op.bound_subset (hn _) hx),
        fun x hx => h.publish x (Op.bound_subset (hn _) hx), fun b hb => ?_, h.text⟩
      exact h.lines b (Op.held_subset hw h.journal.lt hb)
    exact keeps_step h hstep (ih (hstep _ _) fun o ho => hs o (List.mem_cons_of_mem _ ho))

theorem Disk.Absent.mkdir (h : d.Absent) (ok : Bool) (g : Progress) :
    (Op.mkdir.onDisk me ok g d).Absent ∨ (Op.mkdir.onDisk me ok g d).Young ∧ Op.mkdir.effect me d.fs g = d.fs.mkdir := by
  have hd : Op.Does d.fs .mkdir (Op.mkdir.effect me d.fs g) := Op.effect_does me .mkdir d.fs g
  have hnone (t : Fs) (ht : Op.mkdir.effect me d.fs g = t) (hn : ∀ n, t.entries n = none) (n : Name) (x : Option Nat)
      (hx : x ∈ (Op.mkdir.onDisk me ok g d).bound n) : x = none := by
    rcases Op.bound_cases hx with hx | hx
    · exact h.names n x hx
    · rw [hx, ht, hn n]
  generalize ht : Op.mkdir.effect me d.fs g = t at hd
  cases hd with
  | nothing => exact .inl ⟨(congrArg Fs.dir ht).trans h.dir, hnone _ ht h.entries⟩
  | locks l hm => cases hm
  | content b hw => cases hw
  | mkdir =>
    have hb := hnone _ ht fun _ => rfl
    have hno (n : Name) (i : Nat) : some i ∉ (Op.mkdir.onDisk me ok g d).bound n :=
      fun hi => Option.some_ne_none i (hb n _ hi)
    refine .inr ⟨⟨?_, fun i hi => absurd hi (hno _ i), fun i hi => absurd hi (hno _ i)⟩, rfl⟩
    show (Op.mkdir.effect me d.fs g).dir ≠ none
    rw [ht]
    exact Option.some_ne_none _

theorem keeps_dirDisk (h : d.Absent) (k : Nat) :
    Keeps (Event.onDisk me) (Disk.Phase []) (fun _ => True) (dirScript k ++ storeScript false (d.fs.next + 1)) d := by
  refine keeps_step (.absent h rfl) (fun ok g => ?_) ?_
  · rcases h.mkdir ok g with h | ⟨h, -⟩
    · exact .absent h rfl
    · exact .young h rfl
  have hmade : (Op.mkdir.onDisk me true .full d).Absent ∨ _ := h.mkdir true .full
  rcases hmade with h₁ | ⟨h₁, hf₁⟩
  · refine (keeps_absent h₁ ?_).mono (fun _ h => .absent h rfl) fun _ _ _ => trivial
    simp [storeScript, freshScript, witnessScript, commitScript, completeScript, rewriteScript]
  have hf₁ : (Op.mkdir.onDisk me true .full d).fs = d.fs.mkdir := hf₁
  generalize Op.mkdir.onDisk me true .full d = d₁ at h₁ hf₁
  refine keeps_young h₁ id id rfl fun d₂ h₂ hf₂ => ?_
  refine keeps_young h₂ id id rfl fun d₃ h₃ hf₃ => ?_
  refine keeps_young h₃ id id rfl fun d₄ h₄ hf₄ => ?_
  have hf₄ : d₄.fs.entries = d.fs.mkdir.entries ∧ d₄.fs.next = d.fs.mkdir.next := by
    rw [show d₄.fs = d₃.fs from hf₄, show d₃.fs = d₂.fs from hf₃, hf₂, hf₁]
    exact ⟨rfl, rfl⟩
  have hs : Keeps (Event.onDisk me) (Disk.Phase []) (fun _ => True)
      (storeScript (d₄.fs.entries .commitTemp).isSome d₄.fs.next) d₄ :=
    keeps_storeDisk h₄ (by rw [hf₄.1]; rfl) (by rw [hf₄.1]; rfl) (by rw [hf₄.1]; rfl)
  rw [hf₄.1, hf₄.2] at hs
  exact hs

omit [SerdeJson] in
theorem PrivateFile.dir {s : Fs} {n : Name} {i : Nat} (h : PrivateFile s n i) : s.dir ≠ none := by
  obtain ⟨-, owner, ⟨info, hd, -⟩, -⟩ := h
  rw [hd]
  exact Option.some_ne_none info

/-- Completing a store that has no line changes nothing that is known. -/
theorem Disk.Phase.resumeScript {es : List JournalEntry} (h : d.Phase es) {script : List Op}
    (hs : ResumeScript d.fs script) : Keeps (Event.onDisk me) (Disk.Phase es) (fun _ => True) script d := by
  cases hs with
  | @bare j he hp =>
    cases h with
    | absent h => exact absurd h.dir he.journal.dir
    | young h hes =>
      subst hes
      exact keeps_witnessDisk h he.journal.entry hp
    | kept h =>
      rw [h.publish.entry] at hp
      cases hp
    | stuck h =>
      rw [h.publish.entry] at hp
      cases hp
  | @resume j p he hp hw =>
    have hjp : j ≠ p := by
      intro h
      have hname : Name.journal = .publish := Fs.one_name hp.nlink (h ▸ he.journal.entry) hp.entry
      cases hname
    cases h with
    | absent h => exact absurd h.dir he.journal.dir
    | young h hes =>
      subst hes
      refine keeps_young h id id rfl fun d₁ h₁ hf₁ => keeps_completeDisk h₁ ?_ ?_ hjp
      · rw [hf₁]
        exact he.journal.entry
      · rw [hf₁]
        exact hp.entry
    | @kept j' _ _ h =>
      obtain rfl : j' = j := Option.some.inj (h.journal.entry.symm.trans he.journal.entry)
      refine (keeps_kept h fun o ho => ?_).mono (fun _ h => .kept h) fun _ _ _ => trivial
      simp only [completeScript, rewriteScript, List.mem_cons, List.not_mem_nil, or_false] at ho
      rcases ho with rfl | rfl | rfl | rfl | rfl <;> simp [Op.Renames, Op.written, hjp.symm]
    | @stuck q h =>
      obtain rfl : q = p := Option.some.inj (h.publish.entry.symm.trans hp.entry)
      obtain ⟨w, hd, hs⟩ := h.witness.content
      rw [hw] at hd
      rw [← Except.ok.inj hd] at hs
      exact absurd hs (by decide)

/-- An open keeps what is known. -/
theorem Disk.Phase.openScript {es : List JournalEntry} (h : d.Phase es) {script : List Op}
    (hs : OpenScript d.fs script) : Keeps (Event.onDisk me) (Disk.Phase es) (fun _ => True) script d := by
  cases hs with
  | create k hd _ =>
    cases h with
    | absent h he =>
      subst he
      exact keeps_dirDisk h k
    | young h => exact absurd hd h.dir
    | kept h => exact absurd hd h.dir
    | stuck h => exact absurd hd h.dir
  | fresh hd hnone =>
    cases h with
    | absent h => exact absurd h.dir hd
    | young h he =>
      subst he
      exact keeps_storeDisk h (hnone _ (by decide)) (hnone _ (by decide)) (hnone _ (by decide))
    | kept h => exact absurd (hnone .journal (by decide)) (by rw [h.journal.entry]; exact Option.some_ne_none _)
    | stuck h => exact absurd (hnone .publish (by decide)) (by rw [h.publish.entry]; exact Option.some_ne_none _)
  | existing _ hr => exact h.resumeScript hr

/-! ## Reads and appends -/

/-- A known snapshot has the entries of the phase. -/
theorem Disk.Phase.reads {es : List JournalEntry} (h : d.Phase es) {snap : Snapshot} (hr : Reads d.fs snap) :
    snap.entries = es ∧ ∃ j p J, d.Kept es j p J := by
  obtain ⟨j, c, p, hj, hc, hp, himage⟩ := hr
  have hclean := readImage_eq_ok.mp himage
  cases h with
  | absent h => exact absurd h.dir hj.dir
  | young h =>
    have hw := h.publish p (hp.entry ▸ d.named .publish) _ (d.shown p)
    exact absurd hclean.witness (hw _)
  | @kept j' p' J h =>
    obtain rfl : j' = j := Option.some.inj (h.journal.entry.symm.trans hj.entry)
    obtain ⟨t, ht, hes⟩ := hclean.text
    obtain ⟨t', ht', hes'⟩ := h.text
    obtain rfl : t = t' := utf8_inj ((ht.symm.trans h.lines.content).trans ht')
    rw [hes] at hes'
    exact ⟨Except.ok.inj hes', j', p', J, h⟩
  | @stuck q h =>
    obtain rfl : q = p := Option.some.inj (h.publish.entry.symm.trans hp.entry)
    obtain ⟨w, hd, hs⟩ := h.witness.content
    rw [hclean.witness] at hd
    rw [← Except.ok.inj hd, PublishWitness.clean_isPreparedSuccessor] at hs
    cases hs

structure Disk.Prepared (d : Disk) (j p : Nat) (W : Bytes) : Prop where
  dir : d.fs.dir ≠ none
  journal : d.Names .journal j
  publish : d.Names .publish p
  witness : d.Holds p (· = W)

omit [SerdeJson] in
theorem Disk.Prepared.gain {N : Name → Prop} {P : Bytes → Prop} {d' : Disk} {j p q : Nat} {W : Bytes}
    (h : d.Prepared j p W) (hd : Disk.Gains N q P d d') (hN : N .journal ∧ N .publish) (hp : p ≠ q) :
    d'.Prepared j p W :=
  ⟨hd.dir h.dir, h.journal.gain hd hN.1, h.publish.gain hd hN.2,
    h.witness.gain hd h.publish.lt fun hip => absurd hip hp⟩

omit [SerdeJson] in
theorem Disk.AllNamed.gain {p : Nat} {P : Bytes → Prop} {d' : Disk} (h : d.AllNamed)
    (hd : Disk.Gains (fun _ => True) p P d d') : d'.AllNamed := by
  intro n
  refine Set.Subset.antisymm ?_ (Set.singleton_subset_iff.mpr (d'.named n))
  rw [hd.entries n trivial, ← h n]
  exact hd.bound n trivial

/-- Everything that a reader looks at is durable. -/
structure Disk.Settled (d : Disk) (j c p : Nat) (J C W : Bytes) : Prop where
  names : d.AllNamed
  journal : d.fs.entries .journal = some j
  commit : d.fs.entries .commit = some c
  publish : d.fs.entries .publish = some p
  lines : d.Holds j (· = J)
  point : d.Holds c (· = C)
  witness : d.Holds p (· = W)

section
variable {event : WorkflowEvent} {time : BoundedTimestamp} (plan : AppendPlan d.fs event time)
include plan

theorem AppendPlan.generation_le : plan.generation ≤ maxJournalEntries := by
  have hclean := readImage_eq_ok.mp plan.image
  have h₁ := hclean.generation
  have h₂ := hclean.entries_le
  have h₃ := plan.bound
  unfold AppendPlan.generation
  omega

theorem AppendPlan.generation_pos : 0 < plan.generation := by
  have h := (readImage_eq_ok.mp plan.image).generation
  unfold AppendPlan.generation
  omega

theorem AppendPlan.journal_ne_publish : plan.journal ≠ plan.publish := by
  intro h
  have hname : Name.journal = .publish := plan.tidy _ _ _ plan.hjournal.entry (h ▸ plan.hpublish.entry)
  cases hname

/-- An append over a durable journal adds its entry or leaves what is known, and in the end everything is durable. -/
theorem AppendPlan.keeps_disk {es : List JournalEntry} {J : Bytes} (hes : plan.snap.entries = es)
    (hk : d.Kept es plan.journal plan.publish J) :
    Keeps (Event.onDisk me) (fun d' => d'.Phase es ∨ d'.Phase (es ++ [plan.entry]))
      (fun d' => d'.Phase (es ++ [plan.entry]) ∧ d'.Settled plan.journal d.fs.next plan.publish (J ++ plan.lineBytes)
        plan.point.encode (PublishWitness.clean (plan.generation + 1)).encode) plan.script d := by
  have hjp := plan.journal_ne_publish
  have hjt : plan.journal ≠ d.fs.next := Nat.ne_of_lt hk.journal.lt
  have hpt : plan.publish ≠ d.fs.next := Nat.ne_of_lt hk.publish.lt
  have hJ : d.fs.content plan.journal = J := hk.lines.content
  have htext : ∃ t, J ++ plan.lineBytes = utf8 t ∧ decodeContents t = .ok (es ++ [plan.entry]) := by
    have := (readImage_eq_ok.mp plan.image).decode_snoc plan.generation_le (rfl : plan.entry.seq = _)
    rwa [hJ, hes, ← plan.lineBytes_eq] at this
  have hdir : d.fs.dir.isSome = true := Option.isSome_iff_ne_none.mpr hk.dir
  generalize hprep : (PublishWitness.prepared (plan.generation + 1)).encode = W at *
  have hstuck (e : Disk) (h : e.Prepared plan.journal plan.publish W) : e.Phase es := by
    refine .stuck ⟨h.dir, h.publish, fun b hb => ⟨_, ?_, PublishWitness.prepared_isPreparedSuccessor plan.generation_pos⟩⟩
    rw [h.witness b hb, ← hprep]
    exact PublishWitness.decode_encode (PublishWitness.prepared_valid plan.generation_pos plan.generation_le)
  -- PREPARED
  let Same (e : Disk) : Prop := e.fs.entries .commitTemp = d.fs.entries .commitTemp ∧ e.fs.next = d.fs.next
  have hsame {p : Nat} {P : Bytes → Prop} {e e' : Disk} (h : Same e) (hd : Disk.Gains (fun _ => True) p P e e') : Same e' :=
    ⟨(hd.entries _ trivial).trans h.1, (hd.next fun _ => trivial).trans h.2⟩
  have h₁ : Keeps (Event.onDisk me) (fun e => e.Kept es plan.journal plan.publish J ∧ Same e)
      (fun e => e.Holds plan.publish (· = W)) (rewriteScript plan.publish (.prepared (plan.generation + 1))) d := by
    rw [← hprep]
    exact keeps_rewriteDisk ⟨hk, rfl, rfl⟩ fun e e' h hd => ⟨h.1.gain hd ⟨trivial, trivial⟩ hjp, hsame h.2 hd⟩
  refine (h₁.mono (fun e h => .inl (.kept h.1)) fun e h hw => (⟨h, hw⟩ : _ ∧ _)).append ?_
  rintro e₁ - ⟨⟨hk₁, hs₁⟩, hw₁⟩
  -- the line
  have h₂ : Keeps (Event.onDisk me) (fun e => e.Prepared plan.journal plan.publish W ∧ Same e)
      (fun e => e.Holds plan.journal (· = e₁.fs.content plan.journal ++ plan.lineBytes))
      [.append plan.journal plan.lineBytes, .sync plan.journal] e₁ :=
    keeps_lineDisk ⟨⟨hk₁.dir, hk₁.journal, hk₁.publish, hw₁⟩, hs₁⟩ fun e e' h hd =>
      ⟨h.1.gain hd ⟨trivial, trivial⟩ hjp.symm, hsame h.2 hd⟩
  rw [hk₁.lines.content] at h₂
  refine (h₂.mono (fun e h => .inl (hstuck e h.1)) fun e h hl => (⟨h, hl⟩ : _ ∧ _)).append ?_
  rintro e₂ - ⟨⟨hp₂, hs₂⟩, hl₂⟩
  -- the commit point
  have h₃ : Keeps (Event.onDisk me)
      (fun e => e.Prepared plan.journal plan.publish W ∧ e.Holds plan.journal (· = J ++ plan.lineBytes))
      (Disk.Committed d.fs.next plan.point.encode)
      (commitScript (e₂.fs.entries .commitTemp).isSome d.fs.next plan.point) e₂ := by
    refine keeps_commitDisk ⟨hp₂, hl₂⟩ (Option.isSome_iff_ne_none.mpr hp₂.dir) hs₂.2 fun e e' h hd _ => ?_
    exact ⟨h.1.gain hd ⟨by decide, by decide⟩ hpt, h.2.gain hd h.1.journal.lt fun hj => absurd hj hjt⟩
  rw [hs₂.1] at h₃
  refine (h₃.mono (fun e h => .inl (hstuck e h.1)) fun e h hc => (⟨h, hc⟩ : _ ∧ _)).append ?_
  rintro e₃ - ⟨⟨hp₃, hl₃⟩, hc₃⟩
  -- CLEAN
  let I (e : Disk) : Prop := e.Kept (es ++ [plan.entry]) plan.journal plan.publish (J ++ plan.lineBytes) ∧ e.AllNamed ∧
    e.Names .commit d.fs.next ∧ e.Holds d.fs.next (· = plan.point.encode)
  have hI₃ : I e₃ := by
    refine ⟨⟨hp₃.dir, hp₃.journal, hp₃.publish, hl₃, htext⟩, hc₃.names, fun x hx => ?_, hc₃.holds⟩
    rw [hc₃.names, hc₃.entry] at hx
    exact hx
  have h₄ : Keeps (Event.onDisk me) I
      (fun e => e.Holds plan.publish (· = (PublishWitness.clean (plan.generation + 1)).encode))
      (rewriteScript plan.publish (.clean (plan.generation + 1))) e₃ := by
    refine keeps_rewriteDisk hI₃ ?_
    rintro e e' ⟨hk, hn, hc, ht⟩ hd
    exact ⟨hk.gain hd ⟨trivial, trivial⟩ hjp, hn.gain hd, hc.gain hd trivial,
      ht.gain hd hc.lt fun h => absurd h.symm hpt⟩
  refine h₄.mono (fun e h => .inr (.kept h.1)) ?_
  rintro e ⟨hk, hn, hc, ht⟩ hw
  exact ⟨.kept hk, hn, hk.journal.entry, hc.entry, hk.publish.entry, hk.lines, ht, hw⟩

/-- An append adds its entry or leaves what is known. -/
theorem Disk.Phase.appendScript {es : List JournalEntry} (h : d.Phase es) :
    plan.entry.seq = es.length + 1 ∧
      Keeps (Event.onDisk me) (fun d' => d'.Phase es ∨ d'.Phase (es ++ [plan.entry]))
        (Disk.Phase (es ++ [plan.entry])) plan.script d := by
  obtain ⟨hes, j, p, J, hk⟩ := h.reads ⟨_, _, _, plan.hjournal, plan.hcommit, plan.hpublish, plan.image⟩
  obtain rfl : j = plan.journal := Option.some.inj (hk.journal.entry.symm.trans plan.hjournal.entry)
  obtain rfl : p = plan.publish := Option.some.inj (hk.publish.entry.symm.trans plan.hpublish.entry)
  exact ⟨congrArg (·.length + 1) hes, (plan.keeps_disk hes hk).mono (fun _ h => h) fun _ _ h => h.1⟩

end

end

end Aizign
