import Aizign.PowerLoss

/-!
# The entry of the state directory

The state directory is itself an entry of its parent, and that entry is durable
only once the parent was synchronized after the directory was made. Until then
a power loss may take the whole store. An open synchronizes the parent only when
it makes the directory, so what is known survives in every run in which no open
finds a directory whose entry is not durable.
-/

namespace Aizign

open Store

/-- A disk, and whether the entry of the state directory survives a power loss. -/
structure Rooted where
  disk : Disk
  kept : Bool

/-- Everything under the state path is gone. -/
def Fs.vanished (s : Fs) : Fs :=
  { s with
    dir := none
    entries := fun _ => none
    locks := []
    fresh := by simp }

inductive Rooted.PowerLoss (ρ : Rooted) : Rooted → Prop
  | stays {d : Disk} (h : ρ.disk.PowerLoss d) : PowerLoss ρ ⟨d, true⟩
  | vanishes (h : ρ.kept = false) : PowerLoss ρ ⟨.settled ρ.disk.fs.vanished, false⟩

def Op.keptAfter (o : Op) (ok : Bool) (ρ : Rooted) : Bool :=
  match o with
  | .mkdir => if ρ.disk.fs.dir = none then false else ρ.kept
  | .syncDir (.parent 0) => ok || ρ.kept
  | _ => ρ.kept

def Op.onRooted (me : Nat) (o : Op) (ok : Bool) (g : Progress) (ρ : Rooted) : Rooted :=
  ⟨o.onDisk me ok g ρ.disk, o.keptAfter ok ρ⟩

def Op.RootedStep (me : Nat) (allow : OpError → Prop) (o : Op) (ρ : Rooted) (r : o.Res) (ρ' : Rooted) : Prop :=
  ∃ g, o.Outcome me allow ρ.disk.fs r g ∧ ρ' = o.onRooted me r.isOk g ρ

/-- Runs of calls that fail and stop anywhere, ends of processes and power losses; `A` says when a call is made. -/
inductive Rooted.Run [SerdeJson] (A : Rooted → StoreCall → Prop) (ρ₀ : Rooted) : List Known → Rooted → Prop
  | start : Run A ρ₀ [] ρ₀
  | call {log : List Known} {ρ ρ' : Rooted} {q : Prog Op.Res (List Known)} (me : Nat) {c : StoreCall} (hc : A ρ c)
      (h : Run A ρ₀ log ρ) (hs : Prog.Steps (Op.RootedStep me fun _ => True) c.prog ρ q ρ') : Run A ρ₀ (log ++ told q) ρ'
  | exit {log : List Known} {ρ : Rooted} (me : Nat) (h : Run A ρ₀ log ρ) :
      Run A ρ₀ log ⟨ρ.disk.withLocks (ρ.disk.fs.release me).locks, ρ.kept⟩
  | powerLoss {log : List Known} {ρ ρ' : Rooted} (h : Run A ρ₀ log ρ) (hl : ρ.PowerLoss ρ') : Run A ρ₀ log ρ'

/-- No open finds a state directory whose entry is not durable. -/
def Rooted.Covered (ρ : Rooted) (c : StoreCall) : Prop := c = .openWriter → ρ.disk.fs.dir ≠ none → ρ.kept = true

/-! ## Steps -/

/-- No artifact has a name, nor will it after a power loss. -/
def Disk.Bare (d : Disk) : Prop := ∀ n, ∀ x ∈ d.bound n, x = none

/-- The state directory is there for good. -/
structure Rooted.Anchored (ρ : Rooted) : Prop where
  dir : ρ.disk.fs.dir ≠ none
  kept : ρ.kept = true

section
variable {me : Nat} {allow : OpError → Prop} {o : Op} {ok : Bool} {g : Progress} {d d' : Disk} {ρ ρ' : Rooted}

theorem Disk.Bare.entries (h : d.Bare) (n : Name) : d.fs.entries n = none := h n _ (d.named n)

theorem Disk.Bare.narrow (h : d.Bare) (hd : d.Narrows d') : d'.Bare := fun n x hx => h n x (hd.bound n hx)

theorem Rooted.Anchored.step (h : ρ.Anchored) : (o.onRooted me ok g ρ).Anchored := by
  refine ⟨(o.effect_does me ρ.disk.fs g).dir h.dir, ?_⟩
  show o.keptAfter ok ρ = true
  unfold Op.keptAfter
  split
  · rw [if_neg h.dir]
    exact h.kept
  · rw [h.kept, Bool.or_true]
  · exact h.kept

theorem Rooted.Anchored.run {α : Type} {p q : Prog Op.Res α} (h : ρ.Anchored)
    (hs : Prog.Steps (Op.RootedStep me allow) p ρ q ρ') : ρ'.Anchored := by
  induction hs with
  | refl => exact h
  | head hs _ ih =>
    obtain ⟨g, -, rfl⟩ := hs
    exact ih h.step

theorem Prog.Steps.onRootedDisk {α : Type} {p q : Prog Op.Res α}
    (hs : Prog.Steps (Op.RootedStep me allow) p ρ q ρ') : Prog.Steps (Op.DiskStep me allow) p ρ.disk q ρ'.disk := by
  induction hs with
  | refl => exact .refl
  | head hs _ ih =>
    obtain ⟨g, hout, rfl⟩ := hs
    exact .head ⟨g, hout, rfl⟩ ih

end

/-! ## Histories -/

def Event.onRooted (me : Nat) (e : Event) (ρ : Rooted) : Rooted := e.op.onRooted me e.ok e.progress ρ

def Rooted.withLocks (ρ : Rooted) (l : List Lock) : Rooted := ⟨ρ.disk.withLocks l, ρ.kept⟩

section
variable {me : Nat} {allow : OpError → Prop} {o : Op} {ρ₀ ρ ρ' : Rooted}

theorem Rooted.eq_withLocks {l : List Lock} (h : ρ' = ρ.withLocks l) : ρ' = ρ.withLocks ρ'.disk.fs.locks := by
  rw [h]
  rfl

theorem Op.onRooted_withLocks (h : o.mutates = true) (ok : Bool) (g : Progress) (ρ : Rooted) (l : List Lock) :
    o.onRooted me ok g (ρ.withLocks l) = (o.onRooted me ok g ρ).withLocks l := by
  show Rooted.mk (o.onDisk me ok g (ρ.disk.withLocks l)) _ = _
  rw [Op.onDisk_withLocks h]
  rfl

theorem Op.onRooted_quiet (h : o.mutates = false) (ok : Bool) (g : Progress) (ρ : Rooted) :
    ∃ l, o.onRooted me ok g ρ = ρ.withLocks l := by
  obtain ⟨l, hl⟩ : ∃ l, o.onDisk me ok g ρ.disk = ρ.disk.withLocks l := Op.onDisk_quiet h ok g ρ.disk
  have hk : o.keptAfter ok ρ = ρ.kept := by
    cases o with
    | mkdir | syncDir => cases h
    | _ => rfl
  refine ⟨l, ?_⟩
  show Rooted.mk (o.onDisk me ok g ρ.disk) (o.keptAfter ok ρ) = _
  rw [hl, hk]
  rfl

/-- A run is a run on the visible files whose mutations lead to the state it ends in. -/
theorem Prog.Steps.onRootedHist {α : Type} {p q : Prog Op.Res α} (h : Prog.Steps (Op.RootedStep me allow) p ρ q ρ')
    {done : List Event} (hd : ρ = (follow (Event.onRooted me) done ρ₀).withLocks ρ.disk.fs.locks) :
    ∃ done', Prog.Steps (Op.Step me allow) p ⟨ρ.disk.fs, done⟩ q ⟨ρ'.disk.fs, done'⟩ ∧
      ρ' = (follow (Event.onRooted me) done' ρ₀).withLocks ρ'.disk.fs.locks := by
  induction h generalizing done with
  | refl => exact ⟨done, .refl, hd⟩
  | @head o k ρ ρ₁ ρ' r q hs _ ih =>
    obtain ⟨g, hout, rfl⟩ := hs
    have hnext : o.onRooted me r.isOk g ρ = (follow (Event.onRooted me) (done ++ o.event r g) ρ₀).withLocks
        (o.onRooted me r.isOk g ρ).disk.fs.locks := by
      by_cases hm : o.mutates = true
      · have he : follow (Event.onRooted me) (done ++ o.event r g) ρ₀ =
            o.onRooted me r.isOk g (follow (Event.onRooted me) done ρ₀) := by
          rw [Op.event, if_pos hm, follow, List.foldl_append]
          rfl
        refine Rooted.eq_withLocks (l := ρ.disk.fs.locks) ?_
        rw [he, ← Op.onRooted_withLocks hm, ← hd]
      · obtain ⟨l, hl⟩ : ∃ l, o.onRooted me r.isOk g ρ = ρ.withLocks l :=
          Op.onRooted_quiet (Bool.not_eq_true _ ▸ hm) r.isOk g ρ
        refine Rooted.eq_withLocks (l := l) ?_
        rw [hl, Op.event, if_neg hm, List.append_nil]
        have hlocks : ρ.withLocks l = _ := congrArg (Rooted.withLocks · l) hd
        exact hlocks
    obtain ⟨done', hsteps, hd'⟩ := ih hnext
    exact ⟨done', .head ⟨g, hout, rfl⟩ hsteps, hd'⟩

/-- What a precondition says of the history of a call that is left somewhere. -/
theorem Prog.wp_onRooted {α : Type} {C : Hist → Prop} {Q : α → Hist → Prop} {p q : Prog Op.Res α}
    (hw : p.wp (Op.Step me allow) C Q ⟨ρ.disk.fs, []⟩) (hs : Prog.Steps (Op.RootedStep me allow) p ρ q ρ') :
    ∃ done, C ⟨ρ'.disk.fs, done⟩ ∧ ρ' = (follow (Event.onRooted me) done ρ).withLocks ρ'.disk.fs.locks := by
  have hstart : ρ = (follow (Event.onRooted me) [] ρ).withLocks ρ.disk.fs.locks := rfl
  obtain ⟨done, hsteps, hd⟩ := hs.onRootedHist hstart
  exact ⟨done, Prog.wp_between hw hsteps, hd⟩

end

/-! ## Calls -/

section
variable [SerdeJson] {me : Nat} {allow : OpError → Prop} {ρ ρ' : Rooted} {es : List JournalEntry}

/-- The directory is there for good, or it has no artifacts. -/
def Rooted.Safe (ρ : Rooted) : Prop := ρ.Anchored ∨ ρ.disk.Bare

omit [SerdeJson] in
theorem Rooted.Safe.withLocks (h : ρ.Safe) (l : List Lock) : (ρ.withLocks l).Safe := by
  rcases h with ha | hb
  · exact .inl ⟨ha.dir, ha.kept⟩
  · exact .inr hb

omit [SerdeJson] in
theorem keeps_anchored (h : ρ.Anchored) (script : List Op) :
    Keeps (Event.onRooted me) Rooted.Safe (fun _ => True) script ρ := by
  induction script generalizing ρ with
  | nil => exact ⟨.inl h, trivial⟩
  | cons o rest ih => exact ⟨.inl h, fun g => .inl h.step, ih h.step⟩

omit [SerdeJson] in
theorem keeps_absentRooted (h : ρ.disk.Absent) {script : List Op} (hs : .mkdir ∉ script) :
    Keeps (Event.onRooted me) Rooted.Safe (fun _ => True) script ρ := by
  induction script generalizing ρ with
  | nil => exact ⟨.inr h.names, trivial⟩
  | cons o rest ih =>
    have hstep (ok : Bool) (g : Progress) : (o.onDisk me ok g ρ.disk).Absent :=
      h.step (fun ho => hs (ho ▸ List.mem_cons_self)) ok g
    exact ⟨.inr h.names, fun g => .inr (hstep false g).names, ih (hstep _ _) fun hm => hs (List.mem_cons_of_mem _ hm)⟩

omit [SerdeJson] in
theorem Disk.Bare.quiet {d : Disk} (h : d.Bare) {o : Op} (hn : ∀ n, ¬o.Renames n) (ok : Bool) (g : Progress) :
    (o.onDisk me ok g d).Bare := fun n x hx => h n x (Op.bound_subset (hn n) hx)

theorem Disk.Absent.mkdir_bare {d : Disk} (h : d.Absent) (ok : Bool) (g : Progress) : (Op.mkdir.onDisk me ok g d).Bare := by
  rcases h.mkdir ok g with ha | ⟨-, he⟩
  · exact ha.names
  · intro n x hx
    rcases Op.bound_cases hx with hx | hx
    · exact h.names n x hx
    · rw [hx, he]
      rfl

omit [SerdeJson] in
/-- A directory can only be made in a parent that is there. -/
theorem Op.parent_of_mkdir {s : Fs} (hd : s.dir = none) (h : Op.mkdir.effect me s .full = s.mkdir) :
    s.dirInfo (.parent 0) ≠ none := by
  intro hp
  have hrun : Op.mkdir.effect me s .full = s := by simp [Op.effect, Op.run, hd, hp]
  rw [hrun] at h
  have hdir := congrArg Fs.dir h
  rw [hd] at hdir
  cases hdir

/-- The making of the state directory: nothing has a name in it before its own entry is durable. -/
theorem keeps_dirRooted (h : ρ.disk.Absent) {k : Nat} (hk : ∀ i < k, ρ.disk.fs.dirInfo (.parent i) = none)
    {rest : List Op} (hr : .mkdir ∉ rest) :
    Keeps (Event.onRooted me) Rooted.Safe (fun _ => True) (dirScript k ++ rest) ρ := by
  refine ⟨.inr h.names, fun g => .inr (h.mkdir_bare false g), ?_⟩
  rcases h.mkdir true .full with ha | ⟨hy, he⟩
  · refine keeps_absentRooted (ρ := Op.mkdir.onRooted me true .full ρ) ha ?_
    simpa using hr
  · obtain rfl : k = 0 := by
      rcases Nat.eq_zero_or_pos k with h₀ | hpos
      · exact h₀
      · exact absurd (hk 0 hpos) (Op.parent_of_mkdir h.dir he)
    have hbare₁ : (Op.mkdir.onRooted me true .full ρ).disk.Bare := h.mkdir_bare true .full
    have hdir₁ : (Op.mkdir.onRooted me true .full ρ).disk.fs.dir ≠ none := hy.dir
    show Keeps _ _ _ _ (Op.mkdir.onRooted me true .full ρ)
    generalize Op.mkdir.onRooted me true .full ρ = ρ₁ at hbare₁ hdir₁
    have hbare₂ (ok : Bool) (g : Progress) : ((Op.chmodDir 0o700).onRooted me ok g ρ₁).disk.Bare :=
      hbare₁.quiet (fun _ => id) ok g
    have hdir₂ : ((Op.chmodDir 0o700).onRooted me true .full ρ₁).disk.fs.dir ≠ none :=
      ((Op.chmodDir 0o700).effect_does me ρ₁.disk.fs .full).dir hdir₁
    refine ⟨.inr hbare₁, fun g => .inr (hbare₂ false g), ?_⟩
    have hbare₂ := hbare₂ true .full
    show Keeps _ _ _ _ ((Op.chmodDir 0o700).onRooted me true .full ρ₁)
    generalize (Op.chmodDir 0o700).onRooted me true .full ρ₁ = ρ₂ at hbare₂ hdir₂
    have hbare₃ (ok : Bool) (g : Progress) : ((Op.syncDir .state).onRooted me ok g ρ₂).disk.Bare :=
      hbare₂.quiet (fun _ => id) ok g
    refine ⟨.inr hbare₂, fun g => .inr (hbare₃ false g), .inr (hbare₃ true .full), fun g => ?_, ?_⟩
    · exact .inr ((hbare₃ true .full).quiet (fun _ => id) false g)
    · have ha : ((Op.syncDir (.parent 0)).onRooted me true .full ((Op.syncDir .state).onRooted me true .full ρ₂)).Anchored :=
        ⟨hdir₂, rfl⟩
      exact keeps_anchored ha rest

theorem Rooted.Safe.opened (hb : ρ.disk.Bare) (hd : ρ.disk.fs.dir = none) {done : List Event}
    (ho : OpenHist me (OpenScript ρ.disk.fs) ρ.disk.fs ⟨ρ'.disk.fs, done⟩)
    (hρ : ρ' = (follow (Event.onRooted me) done ρ).withLocks ρ'.disk.fs.locks) : ρ'.Safe := by
  rcases ho with ⟨l, hl⟩ | ⟨script, hs, ha⟩
  · obtain rfl : done = [] := congrArg Hist.done hl
    rw [hρ]
    exact .inr hb
  · have hkeeps : Keeps (Event.onRooted me) Rooted.Safe (fun _ => True) script ρ := by
      cases hs with
      | create k _ hk =>
        refine keeps_dirRooted ⟨hd, hb⟩ hk ?_
        simp [storeScript, freshScript, witnessScript, commitScript, completeScript, rewriteScript]
      | fresh hdir => exact absurd hd hdir
      | existing hlock => exact absurd (hb.entries .lock) hlock
    rw [hρ]
    exact (hkeeps.along ha).withLocks _

/-- A call keeps the directory safe, if it is no open that finds it without a durable entry. -/
theorem Rooted.Safe.call (h : ρ.Safe) {c : StoreCall} (hc : ρ.Covered c) {q : Prog Op.Res (List Known)}
    (hs : Prog.Steps (Op.RootedStep me allow) c.prog ρ q ρ') : ρ'.Safe := by
  rcases h with ha | hb
  · exact .inl (ha.run hs)
  have huntouched {done : List Event} (hu : Untouched ρ.disk.fs ⟨ρ'.disk.fs, done⟩)
      (hρ : ρ' = (follow (Event.onRooted me) done ρ).withLocks ρ'.disk.fs.locks) : ρ'.Safe := by
    obtain ⟨l, hl⟩ := hu
    obtain rfl : done = [] := congrArg Hist.done hl
    rw [hρ]
    exact .inr hb
  cases c with
  | openWriter =>
    by_cases hd : ρ.disk.fs.dir = none
    · obtain ⟨done, ho, hρ⟩ := Prog.wp_onRooted (wp_openWriterCall ρ.disk.fs) hs
      exact .opened hb hd ho hρ
    · exact .inl (Anchored.run ⟨hd, hc rfl hd⟩ hs)
  | openReader =>
    obtain ⟨done, hu, hρ⟩ := Prog.wp_onRooted (wp_openReaderCall ρ.disk.fs) hs
    exact huntouched hu hρ
  | load lock =>
    obtain ⟨done, hu, hρ⟩ := Prog.wp_onRooted (wp_loadCall lock ρ.disk.fs) hs
    exact huntouched hu hρ
  | append lock event time =>
    obtain ⟨done, hu, hρ⟩ := Prog.wp_onRooted (wp_appendCall lock event time ρ.disk.fs) hs
    rcases hu with hu | ⟨plan, -⟩
    · exact huntouched ⟨ρ.disk.fs.locks, hu⟩ hρ
    · have hnone := hb.entries .journal
      rw [plan.hjournal.entry] at hnone
      cases hnone

theorem Disk.Phase.bare {d : Disk} (h : d.Phase es) (hb : d.Bare) : es = [] := by
  cases h with
  | absent _ he => exact he
  | young _ he => exact he
  | kept h =>
    have hnone := hb.entries .journal
    rw [h.journal.entry] at hnone
    cases hnone
  | stuck h =>
    have hnone := hb.entries .publish
    rw [h.publish.entry] at hnone
    cases hnone

theorem Rooted.Safe.powerLoss (h : ρ.Safe) (hp : ρ.disk.Phase es) (hl : ρ.PowerLoss ρ') :
    ρ'.disk.Phase es ∧ ρ'.Safe := by
  cases hl with
  | stays hl =>
    refine ⟨hp.narrow hl.narrows, ?_⟩
    rcases h with ha | hb
    · exact .inl ⟨hl.narrows.dir ▸ ha.dir, rfl⟩
    · exact .inr (hb.narrow hl.narrows)
  | vanishes hk =>
    rcases h with ha | hb
    · rw [ha.kept] at hk
      cases hk
    · have hbare : (Disk.settled ρ.disk.fs.vanished).Bare := fun n x hx => hx
      exact ⟨.absent ⟨rfl, hbare⟩ (hp.bare hb), .inr hbare⟩

/-- What is known of a covered run. -/
theorem Rooted.Run.known {ρ₀ : Rooted} (hp₀ : ρ₀.disk.Phase es) (hs₀ : ρ₀.Safe) {log : List Known}
    (h : Rooted.Run Rooted.Covered ρ₀ log ρ) :
    ρ.Safe ∧ (∃ es, ρ.disk.Phase es ∧ ∀ k ∈ log, k.Within es) ∧
      log.Pairwise fun k k' => ∀ es, k' = .read es → k.Within es := by
  induction h with
  | start => exact ⟨hs₀, ⟨es, hp₀, fun k hk => nomatch hk⟩, .nil⟩
  | call me hc h hs ih =>
    obtain ⟨hsafe, ⟨es, hp, hk⟩, hlog⟩ := ih
    obtain ⟨xs, hx, hp', hl⟩ := hp.call hs.onRootedDisk
    obtain ⟨hk', hlog'⟩ := hl.log hx hk hlog
    exact ⟨hsafe.call hc hs, ⟨xs, hp', hk'⟩, hlog'⟩
  | exit me h ih =>
    obtain ⟨hsafe, ⟨es, hp, hk⟩, hlog⟩ := ih
    exact ⟨hsafe.withLocks _, ⟨es, hp.narrow (Disk.narrows_withLocks _ _), hk⟩, hlog⟩
  | powerLoss h hl ih =>
    obtain ⟨hsafe, ⟨es, hp, hk⟩, hlog⟩ := ih
    obtain ⟨hp', hsafe'⟩ := hsafe.powerLoss hp hl
    exact ⟨hsafe', ⟨es, hp', hk⟩, hlog⟩

end

/-- On a path without artifacts, in any run in which no open finds a directory whose entry is not durable: once an
append was acknowledged the entry of the directory is durable, and what is known stays in every later load. -/
theorem acknowledged_entry_durable [SerdeJson] {s : Fs} {kept : Bool} (hn : ∀ n, s.entries n = none) {log : List Known}
    {ρ : Rooted} (h : Rooted.Run Rooted.Covered ⟨.settled s, kept⟩ log ρ) :
    (∀ e, .appended e ∈ log → ρ.disk.fs.dir ≠ none ∧ ρ.kept = true) ∧
      log.Pairwise fun k k' => ∀ es, k' = .read es → k.Within es := by
  have hbare : (Disk.settled s).Bare := fun n x hx => by rw [show x = s.entries n from hx, hn n]
  obtain ⟨hsafe, ⟨es, hp, hk⟩, hlog⟩ := h.known (.start hn) (.inr hbare)
  refine ⟨fun e he => ?_, hlog⟩
  rcases hsafe with ha | hb
  · exact ⟨ha.dir, ha.kept⟩
  · have hw := (hk _ he).2
    rw [hp.bare hb] at hw
    cases hw

/-! ## Two runs -/

section
variable [SerdeJson] {me : Nat} {ρ ρ' : Rooted}

omit [SerdeJson] in
theorem keeps_sameKept {script : List Op} {kept : Bool} (h : ρ.kept = kept)
    (hs : ∀ o ∈ script, o ≠ .mkdir ∧ o ≠ .syncDir (.parent 0)) :
    Keeps (Event.onRooted me) (fun ρ' => ρ'.kept = kept) (fun _ => True) script ρ := by
  induction script generalizing ρ with
  | nil => exact ⟨h, trivial⟩
  | cons o rest ih =>
    obtain ⟨hm, hp⟩ := hs o List.mem_cons_self
    have hstep (ok : Bool) (g : Progress) : (o.onRooted me ok g ρ).kept = kept := by
      show o.keptAfter ok ρ = kept
      unfold Op.keptAfter
      split
      · exact absurd rfl hm
      · exact absurd rfl hp
      · exact h
    exact ⟨h, hstep false, ih (hstep true .full) fun o ho => hs o (List.mem_cons_of_mem _ ho)⟩

/-- Where the directory is there already, no call makes its entry durable. -/
theorem Rooted.call_kept {c : StoreCall} {q : Prog Op.Res (List Known)} {allow : OpError → Prop}
    (hs : Prog.Steps (Op.RootedStep me allow) c.prog ρ q ρ') (hd : ρ.disk.fs.dir ≠ none) : ρ'.kept = ρ.kept := by
  have hscript {script : List Op} (hn : ∀ o ∈ script, o ≠ .mkdir ∧ o ≠ .syncDir (.parent 0)) {done : List Event}
      (ha : Along me script ρ.disk.fs ⟨ρ'.disk.fs, done⟩)
      (hρ : ρ' = (follow (Event.onRooted me) done ρ).withLocks ρ'.disk.fs.locks) : ρ'.kept = ρ.kept := by
    rw [hρ]
    exact (keeps_sameKept rfl hn).along ha
  have huntouched {done : List Event} (hu : Untouched ρ.disk.fs ⟨ρ'.disk.fs, done⟩)
      (hρ : ρ' = (follow (Event.onRooted me) done ρ).withLocks ρ'.disk.fs.locks) : ρ'.kept = ρ.kept := by
    obtain ⟨l, hl⟩ := hu
    obtain rfl : done = [] := congrArg Hist.done hl
    rw [hρ]
    rfl
  cases c with
  | openWriter =>
    obtain ⟨done, ho, hρ⟩ := Prog.wp_onRooted (wp_openWriterCall ρ.disk.fs) hs
    rcases ho with hu | ⟨script, ho, ha⟩
    · exact huntouched hu hρ
    · refine hscript ?_ ha hρ
      cases ho with
      | create k hnone => exact absurd hnone hd
      | fresh =>
        generalize (ρ.disk.fs.entries .commitTemp).isSome = stale
        cases stale <;>
          simp [storeScript, freshScript, witnessScript, commitScript, completeScript, rewriteScript]
      | existing _ hr =>
        cases hr <;> simp [witnessScript, completeScript, rewriteScript]
  | openReader =>
    obtain ⟨done, hu, hρ⟩ := Prog.wp_onRooted (wp_openReaderCall ρ.disk.fs) hs
    exact huntouched hu hρ
  | load lock =>
    obtain ⟨done, hu, hρ⟩ := Prog.wp_onRooted (wp_loadCall lock ρ.disk.fs) hs
    exact huntouched hu hρ
  | append lock event time =>
    obtain ⟨done, hu, hρ⟩ := Prog.wp_onRooted (wp_appendCall lock event time ρ.disk.fs) hs
    rcases hu with hu | ⟨plan, ha⟩
    · exact huntouched ⟨ρ.disk.fs.locks, hu⟩ hρ
    · refine hscript ?_ ha hρ
      unfold AppendPlan.script appendScript
      generalize (ρ.disk.fs.entries .commitTemp).isSome = stale
      cases stale <;> simp [commitScript, rewriteScript]

omit [SerdeJson] in
/-- What happens without failures happens on every disk that shows these files. -/
theorem Prog.Steps.onRooted {α : Type} {p q : Prog Op.Res α} {s t : Fs} (h : Prog.Steps (Normal me) p s q t)
    (hρ : ρ.disk.fs = s) : ∃ ρ', Prog.Steps (Op.RootedStep me fun _ => True) p ρ q ρ' ∧ ρ'.disk.fs = t := by
  induction h generalizing ρ with
  | refl => exact ⟨ρ, .refl, hρ⟩
  | @head o k s s₁ t r q hs _ ih =>
    have hrun : o.run me ρ.disk.fs = (r, s₁) := by
      rw [hρ]
      exact hs
    obtain ⟨ρ', hsteps, hρ'⟩ := ih (ρ := o.onRooted me r.isOk .full ρ) (congrArg Prod.snd hrun)
    refine ⟨ρ', .head ⟨.full, ?_, rfl⟩ hsteps, hρ'⟩
    have hr : (o.run me ρ.disk.fs).1 = r := congrArg Prod.fst hrun
    rw [← hr]
    exact .normal

/-- A call without failures extends a run. -/
theorem Rooted.Run.exec {A : Rooted → StoreCall → Prop} {ρ₀ : Rooted} {log ks : List Known} {c : StoreCall} {t : Fs}
    (h : Rooted.Run A ρ₀ log ρ) (hc : A ρ c) (me : Nat) (he : c.prog.exec (Op.run me) ρ.disk.fs = (ks, t)) :
    ∃ ρ', Rooted.Run A ρ₀ (log ++ ks) ρ' ∧ ρ'.disk.fs = t ∧ (ρ.disk.fs.dir ≠ none → ρ'.kept = ρ.kept) := by
  have hs : Prog.Steps (Normal me) c.prog ρ.disk.fs _ _ := Prog.steps_exec c.prog ρ.disk.fs
  rw [he] at hs
  obtain ⟨ρ', hsteps, hρ'⟩ := hs.onRooted rfl
  exact ⟨ρ', h.call me hc hsteps, hρ', Rooted.call_kept hsteps⟩

omit [SerdeJson] in
/-- A power loss may leave what is visible. -/
theorem Disk.visible_powerLoss (d : Disk) : ∃ d', d.PowerLoss d' ∧ d'.fs = d.fs.withLocks [] := by
  have hself : d.fs = d.fs.setContent 0 (d.fs.content 0) := (d.fs.setContent_self 0).symm
  exact ⟨_, ⟨d.fs.entries, d.fs.content, d.named, d.shown, rfl⟩, Fs.restart_same 0 hself _⟩

/-! ### What is around the state directory -/

/-- The parents and the profile of the file system stay. -/
def Fs.Beside (s t : Fs) : Prop := t.parents = s.parents ∧ t.profile = s.profile

omit [SerdeJson] in
theorem Op.Does.beside {o : Op} {s t : Fs} (h : Op.Does s o t) : s.Beside t := by
  cases h <;> exact ⟨rfl, rfl⟩

omit [SerdeJson] in
theorem Prog.Steps.beside {α : Type} {p q : Prog Op.Res α} {allow : OpError → Prop}
    (h : Prog.Steps (Op.RootedStep me allow) p ρ q ρ') : ρ.disk.fs.Beside ρ'.disk.fs := by
  induction h with
  | refl => exact ⟨rfl, rfl⟩
  | @head o k ρ ρ₁ ρ' r q hs _ ih =>
    obtain ⟨g, -, rfl⟩ := hs
    have hstep : ρ.disk.fs.Beside (o.effect me ρ.disk.fs g) := (o.effect_does me ρ.disk.fs g).beside
    exact ⟨ih.1.trans hstep.1, ih.2.trans hstep.2⟩

theorem Rooted.Run.beside {A : Rooted → StoreCall → Prop} {ρ₀ : Rooted} {log : List Known} (h : Rooted.Run A ρ₀ log ρ) :
    ρ₀.disk.fs.Beside ρ.disk.fs := by
  induction h with
  | start => exact ⟨rfl, rfl⟩
  | call me hc h hs ih => exact ⟨hs.beside.1.trans ih.1, hs.beside.2.trans ih.2⟩
  | exit me h ih => exact ih
  | powerLoss h hl ih =>
    cases hl with
    | stays hl =>
      obtain ⟨names, contents, hn, -, rfl⟩ := hl
      exact ih
    | vanishes => exact ih

omit [SerdeJson] in
theorem Vacant.vanished {s t : Fs} (h : Vacant s) (ht : s.Beside t) : Vacant t.vanished := by
  obtain ⟨p, hp, hk⟩ := h.parent
  refine ⟨rfl, ⟨p, ?_, hk⟩, ?_, rfl⟩
  · show (t.parents[0]?).join = some p
    rw [ht.1]
    exact hp
  · show validateObservation t.profile = .ok ()
    rw [ht.2]
    exact h.profile

/-! ### An open that is stopped -/

/-- The rest of an open of a missing path that has looked at the parents. -/
theorem leads_mkdir {s : Fs} (h : Vacant s) : ∃ q : Store Nat, Leads me openWriter s q s ∧
    ∃ k, q.run = .call .mkdir k ∧ ∃ k', k (.ok ()) = .call (.chmodDir 0o700) k' := by
  obtain ⟨p, hp, hk⟩ := h.parent
  have hnearest : Runs me (nearestExistingParent maxPathDepth 0) s (.ok (.parent 0)) := runs_nearestExistingParent hp hk
  have hlook : Leads me ensureStateDirectory s createStateDirectory s :=
    leads_bind (a := none) (exec_io_ok (by simp [Op.run, Fs.dirInfo, h.dir]))
  have hcreate : ∃ q : Store ProfileObservation, Leads me createStateDirectory s q s ∧
      ∃ k, q.run = .call .mkdir k ∧ ∃ k', k (.ok ()) = .call (.chmodDir 0o700) k' := by
    refine ⟨_, (leads_bind hnearest).trans ((leads_bind (runs_openDirectoryNoFollow hp hk)).trans
      (leads_bind (runs_qualifyDirectory h.profile _))), _, rfl, _, rfl⟩
  obtain ⟨q, hq, k, hrun, k', hnext⟩ := hcreate
  refine ⟨q >>= openArtifacts, (hlook.trans hq).bind openArtifacts, ?_⟩
  rw [run_bind, hrun]
  refine ⟨_, rfl, ?_⟩
  rw [hnext]
  exact ⟨_, rfl⟩

/-- An open that is stopped when it has made the directory: the entry is not durable. -/
theorem Rooted.stopped_open (h : Vacant ρ.disk.fs) (me : Nat) :
    ∃ q ρ', Prog.Steps (Op.RootedStep me fun _ => True) (StoreCall.prog .openWriter) ρ q ρ' ∧ told q = [] ∧
      ρ'.disk.fs = ρ.disk.fs.mkdir ∧ ρ'.kept = false := by
  obtain ⟨q, hleads, k, hrun, k', hnext⟩ : ∃ q : Store Nat, Leads me openWriter _ q _ ∧ _ := leads_mkdir h
  obtain ⟨ρ₁, hsteps, hρ₁⟩ := (Prog.Steps.bind hleads fun _ => .ret []).onRooted rfl
  obtain ⟨p, hp, hk⟩ := h.parent
  have hmade : Op.mkdir.run me ρ₁.disk.fs = (.ok (), ρ.disk.fs.mkdir) := by
    rw [hρ₁]
    simp [Op.run, h.dir, hp, hk]
  have hnormal : Op.mkdir.Outcome me (fun _ => True) ρ₁.disk.fs (.ok ()) .full := by
    have hr : (Op.mkdir.run me ρ₁.disk.fs).1 = .ok () := congrArg Prod.fst hmade
    rw [← hr]
    exact .normal
  rw [hrun] at hsteps
  refine ⟨_, Op.mkdir.onRooted me true .full ρ₁, hsteps.trans (.head (r := .ok ()) ⟨.full, hnormal, rfl⟩ .refl), ?_, ?_, ?_⟩
  · rw [hnext]
    rfl
  · exact congrArg Prod.snd hmade
  · show (if ρ₁.disk.fs.dir = none then false else _) = false
    rw [hρ₁]
    exact if_pos h.dir

end

open Sample in
/-- Without failures, up to a power loss after the acknowledgement. -/
theorem acknowledged_entry_durable_sample : ∃ ρ,
    Rooted.Run Rooted.Covered ⟨.settled emptyFs, false⟩ [.appended sampleEntry, .read [sampleEntry]] ρ ∧
    ρ.disk.fs.dir ≠ none ∧ ρ.kept = true := by
  have hfree (c : StoreCall) (hc : c ≠ .openWriter) (ρ : Rooted) : ρ.Covered c := fun h => absurd h hc
  obtain ⟨hm, -⟩ := emptyFs_vacant.opened 1
  have hrun₀ : Rooted.Run Rooted.Covered ⟨.settled emptyFs, false⟩ [] ⟨.settled emptyFs, false⟩ := .start
  obtain ⟨ρ₁, hrun₁, hρ₁, -⟩ := hrun₀.exec (fun _ hd => absurd rfl hd) 1 (exec_openCall (exec_openWriter_vacant emptyFs_vacant))
  have hm₁ : Mirrors (emptyFs.next + 1) ρ₁.disk.fs .new := by
    rw [hρ₁]
    exact hm
  obtain ⟨t, ht, -, hm₂⟩ := hm₁.exec_append 1 sampleEntry.event sampleTime
  obtain ⟨ρ₂, hrun₂, hρ₂, -⟩ := hrun₁.exec (hfree _ (by simp) _) 1 (exec_appendCall ht)
  obtain ⟨d, hloss, hd⟩ := ρ₂.disk.visible_powerLoss
  have hm₃ := hm₂.withLocks []
  rw [← hρ₂, ← hd] at hm₃
  have hrun₃ := hrun₂.powerLoss (.stays hloss)
  have hlocks : d.fs.locks = [] := by
    rw [hd]
    rfl
  obtain ⟨ρ₄, hrun₄, hρ₄, -⟩ := hrun₃.exec (fun _ _ => rfl) 2 (exec_openCall (hm₃.exec_openWriter hlocks))
  have hm₄ := hm₃.withLocks [⟨2, emptyFs.next + 1, true⟩]
  rw [← hρ₄] at hm₄
  obtain ⟨ρ₅, hrun₅, -⟩ := hrun₄.exec (hfree _ (by simp) _) 2 (exec_loadCall hm₄.runs_load)
  obtain ⟨hkept, -⟩ := acknowledged_entry_durable (fun _ => rfl) hrun₅
  exact ⟨ρ₅, hrun₅, hkept _ List.mem_cons_self⟩

open Sample in
/-- The first open is stopped when it has made the directory; the second finds the directory and goes on. After its
append was acknowledged a power loss takes the store, and the next open makes an empty one. -/
theorem acknowledged_entry_lost : ∃ ρ ρ' ρ'',
    Rooted.Run (fun _ _ => True) ⟨.settled emptyFs, false⟩ [.appended sampleEntry] ρ ∧ ρ.kept = false ∧
    ρ.PowerLoss ρ' ∧ ρ'.disk.fs.dir = none ∧
    Rooted.Run (fun _ _ => True) ⟨.settled emptyFs, false⟩ [.appended sampleEntry, .read []] ρ'' := by
  have hrun₀ : Rooted.Run (fun _ _ => True) ⟨.settled emptyFs, false⟩ [] ⟨.settled emptyFs, false⟩ := .start
  obtain ⟨q, ρ₁, hsteps, hq, hρ₁, hkept₁⟩ := Rooted.stopped_open (ρ := ⟨.settled emptyFs, false⟩) emptyFs_vacant 1
  have hrun₁ := hrun₀.call 1 trivial hsteps
  rw [hq] at hrun₁
  -- the directory that was made has its mode already
  have hmade : emptyFs.mkdir = emptyFs.withDirectory := rfl
  replace hρ₁ : ρ₁.disk.fs = emptyFs.withDirectory := hρ₁.trans hmade
  have hhealthy : Healthy ρ₁.disk.fs ρ₁.disk.fs.uid := by
    rw [hρ₁]
    exact emptyFs_vacant.healthy
  have hnone (n : Name) : ρ₁.disk.fs.entries n = none := by
    rw [hρ₁]
    rfl
  have hlocks : ρ₁.disk.fs.locks = [] := by
    rw [hρ₁]
    rfl
  obtain ⟨hm, -⟩ := hhealthy.opened hnone 2
  obtain ⟨ρ₂, hrun₂, hρ₂, hkept₂⟩ := hrun₁.exec trivial 2 (exec_openCall (exec_openWriter_bare hhealthy hnone hlocks))
  rw [← hρ₂] at hm
  obtain ⟨t, ht, -, hm₃⟩ := hm.exec_append 2 sampleEntry.event sampleTime
  obtain ⟨ρ₃, hrun₃, hρ₃, hkept₃⟩ := hrun₂.exec trivial 2 (exec_appendCall ht)
  have hdir₁ : ρ₁.disk.fs.dir ≠ none := by
    rw [hρ₁]
    exact Option.some_ne_none _
  have hdir₂ : ρ₂.disk.fs.dir ≠ none := by
    obtain ⟨owner, point, ⟨hready, -⟩, -⟩ := hm.store
    obtain ⟨info, hdir, -⟩ := hready.dir.dir
    rw [hdir]
    exact Option.some_ne_none _
  have hkept : ρ₃.kept = false := (hkept₃ hdir₂).trans ((hkept₂ hdir₁).trans hkept₁)
  -- the power loss
  have hvacant : Vacant ρ₃.disk.fs.vanished := emptyFs_vacant.vanished hrun₃.beside
  have hrun₄ := hrun₃.powerLoss (.vanishes hkept)
  obtain ⟨ρ₅, hrun₅, hρ₅, -⟩ := hrun₄.exec trivial 3 (exec_openCall (exec_openWriter_vacant hvacant))
  obtain ⟨hm₅, -⟩ := hvacant.opened 3
  have hm₅ : Mirrors (ρ₃.disk.fs.vanished.next + 1) ρ₅.disk.fs .new := by
    rw [hρ₅]
    exact hm₅
  obtain ⟨ρ₆, hrun₆, -⟩ := hrun₅.exec trivial 3 (exec_loadCall hm₅.runs_load)
  exact ⟨ρ₃, _, ρ₆, hrun₃, hkept, .vanishes hkept, rfl, hrun₆⟩

end Aizign
