import Aizign.StoreSections
import Mathlib.Logic.Relation

/-!
# Processes that share a store

Any number of one-shot processes work on one store. Their operations come in
any order, may fail in any way and with any part of their effect, and a process
may die between two of them; only the lock keeps them apart.
-/

namespace Aizign

open Store

variable [SerdeJson]

/-! ## Before the lock -/

/-- Every answer of `p` is an error or in `P`, whatever others do to a served store between its operations. -/
def Store.Roams (me : Nat) (allow : OpError → Prop) (l : Nat) {α : Type} (p : Store α) (P : α → Prop) : Prop :=
  p.run.Roams (Op.Act me allow) (Served l) fun r => ∀ a, r = .ok a → P a

section
variable {me l : Nat} {allow : OpError → Prop} {α β : Type} {P : α → Prop} {R : β → Prop}

theorem roams_bind {p : Store α} {f : α → Store β} (hp : Roams me allow l p P)
    (hf : ∀ a, P a → Roams me allow l (f a) R) : Roams me allow l (p >>= f) R := by
  rw [Roams, run_bind]
  refine Prog.roams_bind (Prog.roams_mono (fun r hr => ?_) hp)
  cases r with
  | ok a => exact hf a (hr a rfl)
  | error e => exact fun _ he => by cases he

theorem roams_any (p : Store α) : Roams me allow l p fun _ => True :=
  Prog.roams_mono (fun _ _ _ _ => trivial) (Prog.roams_true _)

theorem roams_pure {a : α} (h : P a) : Roams me allow l (pure a) P := fun _ he => Except.ok.inj he ▸ h

omit [SerdeJson] in
theorem Op.act_ok {o : Op} {s s' : Fs} {v : o.Val} (hobs : ∀ t, o ≠ .observe t) (h : o.Act me allow s (.ok v) s') :
    (o.run me s).1 = .ok v := by
  obtain ⟨g, hg, -⟩ := h
  generalize hr : (Except.ok v : o.Res) = r at hg ⊢
  cases hg with
  | normal => rfl
  | failed e g _ => cases hr
  | observed r ho _ =>
    obtain ⟨t, ht⟩ := ho
    exact absurd ht (hobs t)

theorem roams_io {o : Op} {wrap : Text → JournalError} {P : o.Val → Prop} (hobs : ∀ t, o ≠ .observe t)
    (h : ∀ s v, Served l s → (o.run me s).1 = .ok v → P v) : Roams me allow l (io o wrap) P := by
  intro s r s' hs hact
  cases r with
  | ok v => exact fun _ he => Except.ok.inj he ▸ h s v hs (Op.act_ok hobs hact)
  | error e => exact fun _ he => by cases he

theorem roams_lstatDir (wrap : Text → JournalError) :
    Roams me allow l (io (.lstatDir .state) wrap) fun d => d.isSome = true := by
  refine roams_io (by simp) fun s v hs hr => ?_
  have hv : s.dir = v := Except.ok.inj hr
  rw [← hv]
  exact hs.dir

theorem roams_pathEntryExists_lock : Roams me allow l (pathEntryExists .lock) fun found => found = true := by
  refine roams_bind (P := fun m : Option Metadata => m.isSome = true) (roams_io (by simp) fun s v hs hr => ?_)
    fun m hm => roams_pure hm
  obtain ⟨d, hd⟩ := Option.isSome_iff_exists.mp hs.dir
  simp only [Op.run, hd] at hr
  split at hr
  · have hv : (s.entries .lock).map s.metadata = v := Except.ok.inj hr
    rw [← hv, hs.lock]
    rfl
  · cases hr

theorem roams_seenArtifacts : Roams me allow l seenArtifacts fun seen => seen.lock = true := by
  refine roams_bind roams_pathEntryExists_lock fun lock hlock => ?_
  refine roams_bind (roams_any _) fun journal _ => roams_bind (roams_any _) fun commit _ => ?_
  exact roams_bind (roams_any _) fun publish _ => roams_pure hlock

theorem roams_openPrivateReadFile_lock : Roams me allow l (openPrivateReadFile .lock) fun i => i = l := by
  refine roams_bind (roams_any _) fun owner _ => roams_bind (roams_any _) fun expected _ => ?_
  refine roams_bind (P := fun i : Nat => i = l) (roams_io (by simp) fun s v hs hr => ?_) fun i hi =>
    roams_bind (roams_any _) fun _ _ => roams_pure hi
  simp only [Op.run, hs.lock] at hr
  split at hr
  · cases hr
  · exact (Except.ok.inj hr).symm

theorem roams_openPrivateUpdateFile_lock : Roams me allow l (openPrivateUpdateFile .lock false) fun i => i = l := by
  refine roams_bind (roams_any _) fun owner _ => roams_bind (roams_any _) fun expected _ => ?_
  refine roams_bind (P := fun i : Nat => i = l) (roams_io (by simp) fun s v hs hr => ?_) fun i hi =>
    roams_bind (roams_any _) fun _ _ => roams_pure hi
  simp only [Op.run, hs.lock] at hr
  split at hr
  · cases hr
  · split at hr
    · cases hr
    · split at hr
      · cases hr
      · exact (Except.ok.inj hr).symm

theorem roams_openReaderUnlocked : Roams me allow l openReaderUnlocked fun i => i = l := by
  refine roams_bind (roams_any _) fun _ _ => roams_bind (roams_any _) fun _ _ => ?_
  refine roams_bind (roams_any _) fun _ _ => roams_bind (roams_any _) fun _ _ => roams_bind (roams_any _) fun _ _ => ?_
  refine roams_bind roams_openPrivateReadFile_lock fun i hi => ?_
  refine roams_bind (roams_any _) fun _ _ => roams_bind (roams_any _) fun _ _ => roams_bind (roams_any _) fun _ _ => ?_
  refine roams_bind (roams_any _) fun _ _ => roams_bind (roams_any _) fun _ _ => roams_bind (roams_any _) fun _ _ => ?_
  refine roams_bind (roams_any _) fun _ _ => roams_bind (roams_any _) fun _ _ => roams_bind (roams_any _) fun _ _ => ?_
  exact roams_pure hi

theorem looks_openReaderUnlocked : Looks openReaderUnlocked := by
  refine looks_bind looks_openExistingPrivateDir fun _ => looks_bind (looks_qualifyDirectory _) fun profile => ?_
  refine looks_bind (looks_requireExistingPath _ _) fun _ => looks_bind (looks_requireExistingPath _ _) fun _ => ?_
  refine looks_bind (looks_requireExistingPath _ _) fun _ => ?_
  refine looks_bind (looks_openPrivateReadFile _) fun _ => looks_bind (looks_requireSameProfile _ _) fun _ => ?_
  refine looks_bind (looks_openPrivateReadFile _) fun _ => looks_bind (looks_requireSameProfile _ _) fun _ => ?_
  refine looks_bind (looks_openPrivateReadFile _) fun _ => looks_bind (looks_requireSameProfile _ _) fun _ => ?_
  refine looks_bind (looks_readCommitPoint _) fun _ => looks_bind (looks_requireExistingPath _ _) fun _ => ?_
  refine looks_bind (looks_openPrivateReadFile _) fun _ => looks_bind (looks_requireSameProfile _ _) fun _ => ?_
  exact looks_pure _

end

/-! ## Phases -/

section
variable (me l : Nat) (allow : OpError → Prop) (query : Query)

/-- The rest of a program that holds the lock since the committed entries were `es`: it answers truthfully, wherever it
stops at most its own entry is there, and without an exclusive lock it only looks. -/
inductive Inside (es : List JournalEntry) (exclusive : Bool) : Prog Op.Res Answer → Fs → Prop
  | done {a s} : Served l s → Truthful es s.committed query .died → Truthful es s.committed query a →
      Inside es exclusive (.ret a) s
  | op {o k s} : Served l s → Truthful es s.committed query .died → o.inner = true →
      (exclusive = false → o.looks = true) → (∀ r s', o.Act me allow s r s' → Inside es exclusive (k r) s') →
      Inside es exclusive (.call o k) s
  | leave {i k s} : Served l s → s.committed = es → (∀ r, ∃ a, k r = .ret a ∧ ∀ es, Truthful es es query a) →
      Inside es exclusive (.call (.unlock i) k) s

/-- The rest of a program that does not rely on the lock: it looks, or it takes the lock and is then inside. -/
inductive Outside : Prog Op.Res Answer → Prop
  | done {a} : (∀ es, Truthful es es query a) → Outside (.ret a)
  | look {o k} : o.looks = true → (∀ s r s', Served l s → o.Act me allow s r s' → Outside (k r)) → Outside (.call o k)
  | lock {exclusive k} :
      (∀ s, Served l s → Inside me l allow query s.committed exclusive (k (.ok true)) s) →
      (∀ r, r ≠ .ok true → Outside (k r)) →
      Outside (.call (.tryLock l exclusive) k)

variable {me l allow query} {α β : Type} {es : List JournalEntry} {exclusive : Bool}

omit [SerdeJson] in
theorem Query.unstarted (query : Query) (es : List JournalEntry) : Truthful es es query .died := by
  cases query with
  | submit command => exact .inl rfl
  | reconcile signal => exact rfl

theorem Inside.served {p : Prog Op.Res Answer} {s : Fs} (h : Inside me l allow query es exclusive p s) : Served l s := by
  cases h with
  | done hs => exact hs
  | op hs => exact hs
  | leave hs => exact hs

theorem Inside.died {p : Prog Op.Res Answer} {s : Fs} (h : Inside me l allow query es exclusive p s) :
    Truthful es s.committed query .died := by
  cases h with
  | done _ hd => exact hd
  | op _ hd => exact hd
  | leave _ hes => rw [hes]; exact query.unstarted es

/-- Locks that come and go do not matter inside. -/
theorem Inside.withLocks {p : Prog Op.Res Answer} {s : Fs} (h : Inside me l allow query es exclusive p s)
    (locks : List Lock) : Inside me l allow query es exclusive p (s.withLocks locks) := by
  induction h with
  | done hs hd ha => exact .done (hs.withLocks locks) hd ha
  | leave hs hes hk => exact .leave (hs.withLocks locks) hes hk
  | op hs hd ho hx _ ih =>
    refine .op (hs.withLocks locks) hd ho hx fun r s' hact => ?_
    obtain ⟨t, ht, rfl⟩ := Op.act_inner ho hact
    exact ih r t ht

theorem inside_bind {p : Prog Op.Res α} {f : α → Prog Op.Res Answer} {s : Fs} (hi : p.Uses fun o => o.inner = true)
    (hx : exclusive = false → p.Uses fun o => o.looks = true)
    (hp : p.wp (Op.Act me allow) (fun t => Served l t ∧ Truthful es t.committed query .died)
      (fun a t => Inside me l allow query es exclusive (f a) t) s) :
    Inside me l allow query es exclusive (p >>= f) s := by
  induction p generalizing s with
  | ret a => exact hp.2
  | call o k ih =>
    refine .op hp.1.1 hp.1.2 hi.1 (fun he => (hx he).1) fun r s' hact => ?_
    exact ih r (hi.2 r) (fun he => (hx he).2 r) (hp.2 r s' hact)

theorem outside_bind {p : Prog Op.Res α} {f : α → Prog Op.Res Answer} (hl : p.Uses fun o => o.looks = true)
    (hr : p.Roams (Op.Act me allow) (Served l) fun a => Outside me l allow query (f a)) :
    Outside me l allow query (p >>= f) := by
  induction p with
  | ret a => exact hr
  | call o k ih => exact .look hl.1 fun s r s' hs hact => ih r (hl.2 r) (hr s r s' hs hact)

theorem outside_look {p : Store α} {f : Except JournalError α → Prog Op.Res Answer} {P : α → Prop} (hl : Looks p)
    (hr : Roams me allow l p P) (hok : ∀ a, P a → Outside me l allow query (f (.ok a)))
    (herr : ∀ e, Outside me l allow query (f (.error e))) : Outside me l allow query (p.run >>= f) := by
  refine outside_bind hl (Prog.roams_mono (fun r hP => ?_) hr)
  cases r with
  | ok a => exact hok a (hP a rfl)
  | error e => exact herr e

def andThen (g : α → Store β) (f : Except JournalError β → Prog Op.Res Answer) :
    Except JournalError α → Prog Op.Res Answer
  | .ok a => (g a).run >>= f
  | .error e => f (.error e)

omit [SerdeJson] in
theorem run_andThen (p : Store α) (g : α → Store β) (f : Except JournalError β → Prog Op.Res Answer) :
    (p >>= g).run >>= f = p.run >>= andThen g f := by
  rw [run_bind, Prog.bind_assoc]
  refine congrArg (p.run >>= ·) (funext fun r => ?_)
  cases r <;> rfl

theorem outside_andThen {p : Store α} {g : α → Store β} {f : Except JournalError β → Prog Op.Res Answer} {P : α → Prop}
    (hl : Looks p) (hr : Roams me allow l p P) (hok : ∀ a, P a → Outside me l allow query ((g a).run >>= f))
    (herr : ∀ e, Outside me l allow query (f (.error e))) : Outside me l allow query ((p >>= g).run >>= f) := by
  rw [run_andThen]
  exact outside_look hl hr hok herr

theorem outside_acquire (acquire : Nat → Store Unit) {wrap : Text → JournalError} {g : Unit → Store β}
    {f : Except JournalError β → Prog Op.Res Answer}
    (hacquire : acquire l = (io (.tryLock l exclusive) wrap >>= fun acquired : Bool =>
      if acquired then pure () else fail .locked))
    (hin : ∀ s, Served l s → Inside me l allow query s.committed exclusive ((g ()).run >>= f) s)
    (herr : ∀ e, Outside me l allow query (f (.error e))) : Outside me l allow query ((acquire l >>= g).run >>= f) := by
  rw [hacquire, run_andThen]
  refine .lock hin fun r hr => ?_
  cases r with
  | error e => exact herr _
  | ok acquired =>
    cases acquired with
    | true => exact absurd rfl hr
    | false => exact herr _

/-- `open_with_ops`: outside up to the lock, inside from there on. -/
theorem outside_openWriter {f : Except JournalError Nat → Prog Op.Res Answer}
    (hdied : ∀ es, Truthful es es query .died)
    (hin : ∀ es s, Served l s → s.committed = es → Inside me l allow query es true (f (.ok l)) s)
    (herr : ∀ e, ∃ a, f (.error e) = .ret a ∧ ∀ es, Truthful es es query a) :
    Outside me l allow query (openWriter.run >>= f) := by
  have hout : ∀ e, Outside me l allow query (f (.error e)) := by
    intro e
    obtain ⟨a, ha, ht⟩ := herr e
    rw [ha]
    exact .done ht
  have hlocked : ∀ (seen : Seen) profile, seen.any = true → seen.incomplete = false → ∀ s, Served l s →
      Inside me l allow query s.committed true
        ((holding l (openLocked seen profile l) >>= fun _ => pure l).run >>= f) s := by
    intro seen profile hany hinc s hs
    have hrun : (holding l (openLocked seen profile l) >>= fun _ => pure l).run >>= f =
        (openLocked seen profile l).run >>= fun r => match r with
          | .ok _ => f (.ok l)
          | .error e => .call (.unlock l) fun _ => f (.error e) := by
      rw [run_andThen]
      unfold holding
      rw [ExceptT.run_mk, Prog.bind_assoc]
      refine congrArg ((openLocked seen profile l).run >>= ·) (funext fun r => ?_)
      cases r <;> rfl
    rw [hrun]
    refine inside_bind (inner_openLocked _ _ _) (fun h => by cases h)
      (Prog.wp_mono ?_ ?_ (wp_openLocked_served hs hany hinc profile l))
    · rintro t ⟨ht, hes⟩
      rw [hes]
      exact ⟨ht, hdied _⟩
    · rintro r t ⟨ht, -⟩ hes
      cases r with
      | ok u => exact hin _ t ht hes
      | error e => exact .leave ht hes fun _ => herr e
  have hartifacts : ∀ profile, Outside me l allow query ((openArtifacts profile).run >>= f) := by
    intro profile
    refine outside_andThen looks_seenArtifacts roams_seenArtifacts (fun seen hlock => ?_) hout
    have hany : seen.any = true := by simp [Seen.any, hlock]
    by_cases hinc : seen.incomplete = true
    · rw [if_pos hinc]
      exact hout _
    rw [if_neg hinc, hlock]
    refine outside_andThen (looks_openPrivateWritableFile _ _) roams_openPrivateUpdateFile_lock (fun i hi => ?_) hout
    subst hi
    refine outside_andThen (looks_requireSameProfile _ _) (roams_any _) (fun _ _ => ?_) hout
    exact outside_acquire acquireExclusive rfl (hlocked seen profile hany (by simpa using hinc)) hout
  rw [openWriter, run_andThen]
  refine outside_andThen (looks_io rfl _) (roams_lstatDir _) (fun d hd => ?_) hout
  rw [if_pos hd]
  refine outside_look (looks_bind looks_openExistingPrivateDir fun _ => looks_qualifyDirectory _) (roams_any _)
    (fun profile _ => hartifacts profile) hout

/-- `open_with_profile` of the reader: outside up to the lock, inside from there on. -/
theorem outside_openReader {f : Except JournalError Nat → Prog Op.Res Answer}
    (hin : ∀ s, Served l s → Inside me l allow query s.committed false (f (.ok l)) s)
    (herr : ∀ e, Outside me l allow query (f (.error e))) : Outside me l allow query (openReader.run >>= f) := by
  refine outside_andThen looks_openReaderUnlocked roams_openReaderUnlocked (fun i hi => ?_) herr
  subst hi
  exact outside_acquire acquireShared rfl hin herr

end

/-! ## The programs of processes -/

def Query.program (clock : Except ClockError BoundedTimestamp) : Query → Prog Op.Res Answer
  | .submit command => do return .submitted (← submitStored clock command)
  | .reconcile signal => do return .reconciled (← reconcileStored signal)

section
variable {me l : Nat} {allow : OpError → Prop}

theorem uses_storePort (clock : Except ClockError BoundedTimestamp) (lock : Nat) (o : EngineOp) :
    (storePort clock lock o).Uses fun o => o.inner = true := by
  cases o with
  | loadCommitted => exact inner_of_looks (looks_loadCommitted lock)
  | append event time => exact inner_appendWithOps lock event time
  | now => trivial
  | notify n => trivial

theorem inside_submit (clock : Except ClockError BoundedTimestamp) (command : Command) {s : Fs} (hs : Served l s) :
    Inside me l allow (.submit command) s.committed true
      ((handleWorkflowSignal command).via (storePort clock l) >>= fun r => .ret (.submitted r)) s := by
  have hwp : ((handleWorkflowSignal command).via (storePort clock l)).wp (Op.Act me allow) _ _ s :=
    Prog.wp_via (fun o s hs => wp_storePort clock l o hs) hs
      (submit_truthful (contractStep_contract Fs.committed) command s)
  refine inside_bind (Prog.Uses.via (uses_storePort clock l) _) (fun h => by cases h)
    (Prog.wp_mono (fun _ h => h) (fun r t ht hr => ?_) hwp)
  exact .done ht.1 ht.2 hr.2

theorem inside_reconcile (clock : Except ClockError BoundedTimestamp) (signal : WorkflowSignal) {s : Fs}
    (hs : Served l s) : Inside me l allow (.reconcile signal) s.committed false
      ((reconcileSignal signal).via (storePort clock l) >>= fun r => .ret (.reconciled r)) s := by
  have hwp : ((reconcileSignal signal).via (storePort clock l)).wp (Op.Act me allow) _ _ s :=
    Prog.wp_via (fun o s hs => wp_storePort clock l o hs) hs
      (reconcile_truthful_run (contractStep_contract Fs.committed) signal s)
  have hlooks : ((reconcileSignal signal).via (storePort clock l)).Uses fun o => o.looks = true := by
    rw [reconcileSignal_eq, Prog.via_bind]
    have hload : loadPort.via (storePort clock l) = (loadCommitted l).run :=
      Prog.via_op (h := storePort clock l) EngineOp.loadCommitted
    rw [hload]
    exact Prog.Uses.bind (looks_loadCommitted l) fun _ => trivial
  refine inside_bind (Prog.Uses.mono (fun _ => Op.inner_of_looks) hlooks) (fun _ => hlooks)
    (Prog.wp_mono (fun _ h => h) (fun r t ht hr => ?_) hwp)
  exact .done ht.1 ht.2 hr.2

theorem Query.program_outside (query : Query) (clock : Except ClockError BoundedTimestamp) :
    Outside me l allow query (query.program clock) := by
  cases query with
  | submit command =>
    show Outside me l allow _ (submitStored clock command >>= fun r => .ret (.submitted r))
    unfold submitStored
    rw [Prog.bind_assoc]
    refine outside_openWriter (Query.submit command).unstarted (fun es s hs hes => ?_) fun e => ?_
    · subst hes
      exact inside_submit clock command hs
    · exact ⟨_, rfl, fun es => ⟨.inl rfl, fun _ => rfl⟩⟩
  | reconcile signal =>
    show Outside me l allow _ (reconcileStored signal >>= fun r => .ret (.reconciled r))
    unfold reconcileStored
    rw [Prog.bind_assoc]
    refine outside_openReader (fun s hs => inside_reconcile _ signal hs) fun e => ?_
    exact .done fun es => ⟨trivial, rfl⟩

end

end Aizign
