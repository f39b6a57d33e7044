import Aizign.Processes
import Aizign.StoreMemory

/-!
# A store under concurrent processes

For every interleaving of any number of processes, with any failures and any
deaths, the answers are those of one process after another: there is one
history, in the order in which the locks were given up, and the committed
entries are what it leaves, but for the entry of at most one writer that has
not answered yet.
-/

namespace Aizign

section
variable [SerdeJson]

/-! ## The system -/

structure Process where
  query : Query
  rest : Prog Op.Res Answer

structure System where
  fs : Fs
  processes : Nat → Option Process
  /-- What was answered, and by which process, oldest first. -/
  history : List (Nat × Query × Answer)

def System.answers (σ : System) : List (Query × Answer) := σ.history.map Prod.snd

def System.set (σ : System) (pid : Nat) (p : Option Process) : Nat → Option Process :=
  fun i => if i = pid then p else σ.processes i

section
variable (allow : OpError → Prop)

/-- A process starts, calls its next operation, returns its answer and gives up its lock, or dies. -/
inductive System.Step : System → System → Prop
  | start {σ pid} (query : Query) (clock : Except ClockError BoundedTimestamp) : σ.processes pid = none →
      Step σ ⟨σ.fs, σ.set pid (some ⟨query, query.program clock⟩), σ.history⟩
  | operate {σ pid query o k r fs} : σ.processes pid = some ⟨query, .call o k⟩ → o.Act pid allow σ.fs r fs →
      Step σ ⟨fs, σ.set pid (some ⟨query, k r⟩), σ.history⟩
  | answer {σ pid query a} : σ.processes pid = some ⟨query, .ret a⟩ →
      Step σ ⟨σ.fs.release pid, σ.set pid none, σ.history ++ [(pid, query, a)]⟩
  | die {σ pid p} : σ.processes pid = some p →
      Step σ ⟨σ.fs.release pid, σ.set pid none, σ.history ++ [(pid, p.query, .died)]⟩

def System.Reaches : System → System → Prop := Relation.ReflTransGen (System.Step allow)

end

def System.idle (fs : Fs) : System := ⟨fs, fun _ => none, []⟩

/-! ## Locks -/

/-- Two owners have the same file locked only if neither has it exclusively. -/
def Fs.Compatible (s : Fs) : Prop :=
  ∀ a ∈ s.locks, ∀ b ∈ s.locks, a.inode = b.inode → a.owner ≠ b.owner → a.exclusive = false

def KeepsOthers (me : Nat) (s s' : Fs) : Prop := ∀ a ∈ s.locks, a.owner ≠ me → a ∈ s'.locks

section
variable {me l : Nat} {allow : OpError → Prop} {s s' : Fs} {exclusive : Bool}

omit [SerdeJson] in
theorem Fs.Compatible.filter (h : s.Compatible) (f : Lock → Bool) : (s.withLocks (s.locks.filter f)).Compatible :=
  fun a ha b hb => h a (List.mem_of_mem_filter ha) b (List.mem_of_mem_filter hb)

omit [SerdeJson] in
theorem Fs.release_others (s : Fs) (me : Nat) : KeepsOthers me s (s.release me) :=
  fun _ ha ho => List.mem_filter.mpr ⟨ha, by simpa using ho⟩

omit [SerdeJson] in
theorem lockConflict_false {i : Nat} (h : s.lockConflict me i exclusive = false) {a : Lock} (ha : a ∈ s.locks)
    (hi : a.inode = i) (ho : a.owner ≠ me) : exclusive = false ∧ a.exclusive = false := by
  have := List.any_eq_false.mp h a ha
  simpa [hi, ho] using this

omit [SerdeJson] in
/-- What `try_lock` can do: it changes locks only, keeps them compatible, and if it answers that it has the lock, then
it has and there was no conflict. -/
theorem Op.act_tryLock {i : Nat} {r : (Op.tryLock i exclusive).Res} (hc : s.Compatible)
    (h : (Op.tryLock i exclusive).Act me allow s r s') :
    (∃ locks, s' = s.withLocks locks) ∧ s'.Compatible ∧ KeepsOthers me s s' ∧
      (r = .ok true → s.lockConflict me i exclusive = false ∧ ⟨me, i, exclusive⟩ ∈ s'.locks) := by
  have hrun : (∃ locks, ((Op.tryLock i exclusive).run me s).2 = s.withLocks locks) ∧
      ((Op.tryLock i exclusive).run me s).2.Compatible ∧ KeepsOthers me s ((Op.tryLock i exclusive).run me s).2 ∧
      (((Op.tryLock i exclusive).run me s).1 = .ok true → s.lockConflict me i exclusive = false ∧
        ⟨me, i, exclusive⟩ ∈ ((Op.tryLock i exclusive).run me s).2.locks) := by
    simp only [Op.run]
    by_cases hf : s.lockConflict me i exclusive = true
    · rw [if_pos hf]
      exact ⟨⟨s.locks, rfl⟩, hc, fun a ha _ => ha, fun h => by cases h⟩
    · rw [if_neg hf]
      have hf : s.lockConflict me i exclusive = false := by simpa using hf
      refine ⟨⟨_, rfl⟩, ?_, fun a ha ho => ?_, fun _ => ⟨hf, List.mem_cons_self⟩⟩
      · intro a ha b hb hab hne
        rcases List.mem_cons.mp ha with rfl | ha
        · rcases List.mem_cons.mp hb with rfl | hb
          · exact absurd rfl hne
          · exact (lockConflict_false hf (List.mem_of_mem_filter hb) hab.symm (Ne.symm hne)).1
        · rcases List.mem_cons.mp hb with rfl | hb
          · exact (lockConflict_false hf (List.mem_of_mem_filter ha) hab hne).2
          · exact hc a (List.mem_of_mem_filter ha) b (List.mem_of_mem_filter hb) hab hne
      · exact List.mem_cons_of_mem _ (List.mem_filter.mpr ⟨ha, by simp [ho]⟩)
  have hsame : (∃ locks, s = s.withLocks locks) ∧ s.Compatible ∧ KeepsOthers me s s :=
    ⟨⟨s.locks, rfl⟩, hc, fun a ha _ => ha⟩
  obtain ⟨g, hg, rfl⟩ := h
  cases hg with
  | normal => exact hrun
  | observed r ho _ =>
    obtain ⟨t, ht⟩ := ho
    cases ht
  | failed e g _ =>
    cases g with
    | nothing => exact ⟨hsame.1, hsame.2.1, hsame.2.2, fun h => by cases h⟩
    | torn k => exact ⟨hsame.1, hsame.2.1, hsame.2.2, fun h => by cases h⟩
    | full => exact ⟨hrun.1, hrun.2.1, hrun.2.2.1, fun h => by cases h⟩

omit [SerdeJson] in
theorem Op.act_unlock {i : Nat} {r : (Op.unlock i).Res} (hc : s.Compatible) (h : (Op.unlock i).Act me allow s r s') :
    (∃ locks, s' = s.withLocks locks) ∧ s'.Compatible ∧ KeepsOthers me s s' := by
  obtain ⟨g, -, rfl⟩ := h
  cases g with
  | nothing => exact ⟨⟨s.locks, rfl⟩, hc, fun a ha _ => ha⟩
  | torn k => exact ⟨⟨s.locks, rfl⟩, hc, fun a ha _ => ha⟩
  | full =>
    refine ⟨⟨_, rfl⟩, hc.filter _, fun a ha ho => ?_⟩
    exact List.mem_filter.mpr ⟨ha, by simp [ho]⟩

end

/-! ## The invariant -/

/-- Every process but a writer is outside, or inside to read. -/
def System.Standing (l : Nat) (allow : OpError → Prop) (fs : Fs) (es : List JournalEntry) (pid : Nat) (p : Process) :
    Prop :=
  Outside pid l allow p.query p.rest ∨
    (⟨pid, l, false⟩ ∈ fs.locks ∧ Inside pid l allow p.query es false p.rest fs)

/-- The history so far leads from `first` to the entries `es`. They are the committed ones, unless the process `writer` is inside. -/
structure System.Sound (l : Nat) (allow : OpError → Prop) (first : List JournalEntry) (σ : System)
    (es : List JournalEntry) (writer : Option Nat) : Prop where
  served : Served l σ.fs
  compatible : σ.fs.Compatible
  chronicle : Chronicle first σ.answers es
  settled : writer = none → σ.fs.committed = es
  writing : ∀ pid, writer = some pid → ∃ p, σ.processes pid = some p ∧ ⟨pid, l, true⟩ ∈ σ.fs.locks ∧
    Inside pid l allow p.query es true p.rest σ.fs
  others : ∀ pid p, writer ≠ some pid → σ.processes pid = some p → System.Standing l allow σ.fs es pid p

namespace System

section
variable {l : Nat} {allow : OpError → Prop} {first : List JournalEntry} {σ : System} {es : List JournalEntry}
  {writer : Option Nat}

omit [SerdeJson] in
theorem set_same (pid : Nat) (p : Option Process) : σ.set pid p pid = p := if_pos rfl

omit [SerdeJson] in
theorem set_other {pid i : Nat} (h : i ≠ pid) (p : Option Process) : σ.set pid p i = σ.processes i := if_neg h

omit [SerdeJson] in
theorem chronicle_record {es' : List JournalEntry} {q : Query} {a : Answer} (h : Chronicle first σ.answers es)
    (ht : Truthful es es' q a) (fs : Fs) (processes : Nat → Option Process) (pid : Nat) :
    Chronicle first (answers ⟨fs, processes, σ.history ++ [(pid, q, a)]⟩) es' := by
  have hsnoc : answers ⟨fs, processes, σ.history ++ [(pid, q, a)]⟩ = σ.answers ++ [(q, a)] := List.map_append
  rw [hsnoc]
  exact h.snoc ht

/-- A writer is inside alone. -/
theorem Sound.alone (h : σ.Sound l allow first es writer) {w pid : Nat} {p : Process} (hw : writer = some w) (hne : pid ≠ w)
    (hp : σ.processes pid = some p) : Outside pid l allow p.query p.rest := by
  obtain ⟨-, -, hlock, -⟩ := h.writing w hw
  rcases h.others pid p (by rw [hw]; simpa using hne.symm) hp with ho | ⟨hread, -⟩
  · exact ho
  · have := h.compatible _ hlock _ hread rfl hne.symm
    cases this

/-- While somebody reads inside, nobody writes. -/
theorem Sound.unwritten (h : σ.Sound l allow first es writer) {pid : Nat} (hr : ⟨pid, l, false⟩ ∈ σ.fs.locks)
    (hne : writer ≠ some pid) : writer = none := by
  cases hw : writer with
  | none => rfl
  | some w =>
    obtain ⟨-, -, hlock, -⟩ := h.writing w hw
    have := h.compatible _ hlock _ hr rfl (fun he => hne (hw.trans (congrArg some he)))
    cases this

theorem Standing.relock {fs fs' : Fs} {pid me : Nat} {p : Process} {locks : List Lock}
    (h : Standing l allow fs es pid p) (hfs : fs' = fs.withLocks locks) (hk : KeepsOthers me fs fs') (hne : pid ≠ me) :
    Standing l allow fs' es pid p := by
  rcases h with ho | ⟨hlock, hin⟩
  · exact .inl ho
  · refine .inr ⟨hk _ hlock hne, ?_⟩
    rw [hfs]
    exact hin.withLocks locks

/-- The process `me`, not the writer, has changed locks of its own and is standing again. -/
theorem Sound.relock (h : σ.Sound l allow first es writer) {me : Nat} {p : Process} {fs : Fs} (locks : List Lock)
    (hw : writer ≠ some me) (hfs : fs = σ.fs.withLocks locks) (hc : fs.Compatible) (hk : KeepsOthers me σ.fs fs)
    (hp : Standing l allow fs es me p) : Sound l allow first ⟨fs, σ.set me (some p), σ.history⟩ es writer where
  served := by rw [hfs]; exact h.served.withLocks locks
  compatible := hc
  chronicle := h.chronicle
  settled hn := by rw [hfs]; exact h.settled hn
  writing pid hpid := by
    obtain ⟨q, hq, hlock, hin⟩ := h.writing pid hpid
    have hne : pid ≠ me := fun he => hw (hpid.trans (congrArg some he))
    refine ⟨q, (set_other hne _).trans hq, hk _ hlock hne, ?_⟩
    rw [hfs]
    exact hin.withLocks locks
  others pid q hpid hq := by
    by_cases hne : pid = me
    · subst hne
      have : p = q := Option.some.inj ((set_same pid _).symm.trans hq)
      exact this ▸ hp
    · exact (h.others pid q hpid ((set_other hne _).symm.trans hq)).relock hfs hk hne

theorem Sound.look (h : σ.Sound l allow first es writer) {me : Nat} {p : Process} (hw : writer ≠ some me)
    (hp : Standing l allow σ.fs es me p) : Sound l allow first ⟨σ.fs, σ.set me (some p), σ.history⟩ es writer :=
  h.relock σ.fs.locks hw rfl h.compatible (fun _ ha _ => ha) hp

/-- A process that is not the writer and only has the files as they are is done; `a` is recorded. -/
theorem Sound.finish (h : σ.Sound l allow first es writer) {pid : Nat} {p : Process} {a : Answer}
    (hp : σ.processes pid = some p) (hw : writer = some pid → Truthful es σ.fs.committed p.query a)
    (ho : writer ≠ some pid → Truthful es es p.query a) :
    ∃ es' writer', es <+: es' ∧
      Sound l allow first ⟨σ.fs.release pid, σ.set pid none, σ.history ++ [(pid, p.query, a)]⟩ es' writer' := by
  have hrelease : (σ.fs.release pid).Compatible := h.compatible.filter _
  have hkeeps := σ.fs.release_others pid
  by_cases hpid : writer = some pid
  · refine ⟨σ.fs.committed, none, (hw hpid).grows, h.served.withLocks _, hrelease,
      chronicle_record h.chronicle (hw hpid) _ _ _, fun _ => rfl, (fun _ hn => by cases hn), fun i q _ hq => ?_⟩
    by_cases hi : i = pid
    · subst hi
      exact absurd ((set_same i none).symm.trans hq) (by simp)
    · exact .inl (h.alone hpid hi ((set_other hi _).symm.trans hq))
  · refine ⟨es, writer, List.prefix_refl _, h.served.withLocks _, hrelease, chronicle_record h.chronicle (ho hpid) _ _ _,
      h.settled, fun i hi => ?_, fun i q hi hq => ?_⟩
    · obtain ⟨q, hq, hlock, hin⟩ := h.writing i hi
      have hne : i ≠ pid := fun he => hpid (hi.trans (congrArg some he))
      exact ⟨q, (set_other hne _).trans hq, hkeeps _ hlock hne, hin.withLocks _⟩
    · by_cases hne : i = pid
      · subst hne
        exact absurd ((set_same i none).symm.trans hq) (by simp)
      · exact (h.others i q hi ((set_other hne _).symm.trans hq)).relock rfl hkeeps hne

theorem Sound.write (h : σ.Sound l allow first es writer) {pid : Nat} {query : Query} {o : Op} {k : o.Res → Prog Op.Res Answer}
    {r : o.Res} {fs : Fs} (hw : writer = some pid) (hp : σ.processes pid = some ⟨query, .call o k⟩)
    (hact : o.Act pid allow σ.fs r fs) :
    ∃ writer', Sound l allow first ⟨fs, σ.set pid (some ⟨query, k r⟩), σ.history⟩ es writer' := by
  obtain ⟨p, hp', hlock, hin⟩ := h.writing pid hw
  obtain rfl := Option.some.inj (hp.symm.trans hp')
  have hothers : ∀ i q, i ≠ pid → σ.set pid (some ⟨query, k r⟩) i = some q → Standing l allow fs es i q :=
    fun i q hne hq => .inl (h.alone hw hne ((set_other hne _).symm.trans hq))
  cases hin with
  | op hs hd ho hx hk =>
    have hf := Op.act_framed ho hact
    have hin := hk r fs hact
    refine ⟨some pid, hin.served, ?_, h.chronicle, (fun hn => by cases hn), fun i hi => ?_, fun i q hi hq => ?_⟩
    · have := h.compatible
      rwa [Fs.Compatible, ← hf.locks] at this
    · obtain rfl := Option.some.inj hi
      exact ⟨_, set_same _ _, hf.locks ▸ hlock, hin⟩
    · exact hothers i q (fun he => hi (congrArg some he.symm)) hq
  | leave hs hes hk =>
    obtain ⟨⟨locks, rfl⟩, hc, -⟩ := Op.act_unlock h.compatible hact
    refine ⟨none, h.served.withLocks locks, hc, h.chronicle, fun _ => hes, (fun _ hn => by cases hn), fun i q _ hq => ?_⟩
    by_cases hne : i = pid
    · subst hne
      obtain rfl := Option.some.inj ((set_same i _).symm.trans hq)
      obtain ⟨a, ha, ht⟩ := hk r
      exact .inl (ha ▸ .done ht)
    · exact hothers i q hne hq

theorem Sound.enter (h : σ.Sound l allow first es writer) {pid : Nat} {query : Query} {exclusive : Bool}
    {k : (Op.tryLock l exclusive).Res → Prog Op.Res Answer} {r : (Op.tryLock l exclusive).Res} {fs : Fs}
    (hw : writer ≠ some pid)
    (hin : ∀ s, Served l s → Inside pid l allow query s.committed exclusive (k (.ok true)) s)
    (hout : ∀ r, r ≠ .ok true → Outside pid l allow query (k r))
    (hact : (Op.tryLock l exclusive).Act pid allow σ.fs r fs) :
    ∃ writer', Sound l allow first ⟨fs, σ.set pid (some ⟨query, k r⟩), σ.history⟩ es writer' := by
  obtain ⟨⟨locks, hfs⟩, hc, hk, hgot⟩ := Op.act_tryLock h.compatible hact
  by_cases hr : r = .ok true
  · subst hr
    obtain ⟨hfree, hlock⟩ := hgot rfl
    -- a writer would have been in conflict
    have hnone : writer = none := by
      cases hwr : writer with
      | none => rfl
      | some w =>
        obtain ⟨-, -, hl, -⟩ := h.writing w hwr
        have := (lockConflict_false hfree hl rfl (fun he => hw (hwr.trans (congrArg some he)))).2
        cases this
    have hinside : Inside pid l allow query es exclusive (k (.ok true)) fs := by
      have hi := hin σ.fs h.served
      rw [h.settled hnone] at hi
      rw [hfs]
      exact hi.withLocks locks
    cases exclusive with
    | false => exact ⟨writer, h.relock locks hw hfs hc hk (.inr ⟨hlock, hinside⟩)⟩
    | true =>
      refine ⟨some pid, hinside.served, hc, h.chronicle, (fun hn => by cases hn), fun i hi => ?_, fun i q hi hq => ?_⟩
      · obtain rfl := Option.some.inj hi
        exact ⟨_, set_same _ _, hlock, hinside⟩
      · have hne : i ≠ pid := fun he => hi (congrArg some he.symm)
        rcases h.others i q (by rw [hnone]; simp) ((set_other hne _).symm.trans hq) with ho | ⟨hl, -⟩
        · exact .inl ho
        · have := (lockConflict_false hfree hl rfl hne).1
          cases this
  · exact ⟨writer, h.relock locks hw hfs hc hk (.inl (hout r hr))⟩

theorem Sound.operate (h : σ.Sound l allow first es writer) {pid : Nat} {query : Query} {o : Op}
    {k : o.Res → Prog Op.Res Answer} {r : o.Res} {fs : Fs} (hp : σ.processes pid = some ⟨query, .call o k⟩)
    (hact : o.Act pid allow σ.fs r fs) :
    ∃ writer', Sound l allow first ⟨fs, σ.set pid (some ⟨query, k r⟩), σ.history⟩ es writer' := by
  by_cases hw : writer = some pid
  · exact h.write hw hp hact
  rcases h.others pid _ hw hp with ho | ⟨hlock, hin⟩
  · cases ho with
    | look hl hk =>
      obtain rfl := Op.act_looks hl hact
      exact ⟨writer, h.look hw (.inl (hk _ r _ h.served hact))⟩
    | lock hin hout => exact h.enter hw hin hout hact
  · cases hin with
    | op hs hd ho hx hk =>
      obtain rfl := Op.act_looks (hx rfl) hact
      exact ⟨writer, h.look hw (.inr ⟨hlock, hk r _ hact⟩)⟩
    | leave hs hes hk =>
      obtain ⟨⟨locks, hfs⟩, hc, hkeep⟩ := Op.act_unlock h.compatible hact
      obtain ⟨a, ha, ht⟩ := hk r
      exact ⟨writer, h.relock locks hw hfs hc hkeep (.inl (ha ▸ .done ht))⟩

theorem Sound.step {σ' : System} (h : σ.Sound l allow first es writer) (hs : Step allow σ σ') :
    ∃ es' writer', es <+: es' ∧ σ'.Sound l allow first es' writer' := by
  cases hs with
  | @start pid query clock hp =>
    have hw : writer ≠ some pid := by
      intro hw
      obtain ⟨q, hq, -⟩ := h.writing pid hw
      rw [hp] at hq
      cases hq
    exact ⟨es, writer, List.prefix_refl _, h.look hw (.inl (query.program_outside clock))⟩
  | operate hp hact =>
    obtain ⟨writer', h'⟩ := h.operate hp hact
    exact ⟨es, writer', List.prefix_refl _, h'⟩
  | @answer pid query a hp =>
    refine h.finish hp (fun hw => ?_) fun hw => ?_
    · obtain ⟨q, hq, -, hin⟩ := h.writing pid hw
      obtain rfl := Option.some.inj (hp.symm.trans hq)
      cases hin with
      | done _ _ ha => exact ha
    · rcases h.others pid _ hw hp with ho | ⟨hlock, hin⟩
      · cases ho with
        | done ha => exact ha es
      · cases hin with
        | done _ _ ha =>
          rw [h.settled (h.unwritten hlock hw)] at ha
          exact ha
  | @die pid p hp =>
    refine h.finish hp (fun hw => ?_) fun _ => p.query.unstarted es
    obtain ⟨q, hq, -, hin⟩ := h.writing pid hw
    obtain rfl := Option.some.inj (hp.symm.trans hq)
    exact hin.died

theorem Sound.reaches {σ' : System} (h : σ.Sound l allow first es writer) (hr : Reaches allow σ σ') :
    ∃ es' writer', es <+: es' ∧ σ'.Sound l allow first es' writer' := by
  induction hr with
  | refl => exact ⟨es, writer, List.prefix_refl _, h⟩
  | tail _ hs ih =>
    obtain ⟨es₁, w₁, hp₁, h₁⟩ := ih
    obtain ⟨es₂, w₂, hp₂, h₂⟩ := h₁.step hs
    exact ⟨es₂, w₂, hp₁.trans hp₂, h₂⟩

/-- The state has one history with true answers that leaves `es`; what is committed is `es`, or `es` and the entry of
one submission that has not been answered. -/
structure Linearized (first : List JournalEntry) (σ : System) (es : List JournalEntry) : Prop where
  chronicle : Chronicle first σ.answers es
  once : ∃ added, es = first ++ added ∧ AtMostOnce first σ.answers added
  committed : σ.fs.committed = es ∨ ∃ pid command rest, σ.processes pid = some ⟨.submit command, rest⟩ ∧
    MaybeStored es command σ.fs.committed

theorem Sound.linearized (h : σ.Sound l allow first es writer) : σ.Linearized first es where
  chronicle := h.chronicle
  once := h.chronicle.atMostOnce
  committed := by
    cases hw : writer with
    | none => exact .inl (h.settled hw)
    | some pid =>
      obtain ⟨⟨query, rest⟩, hp, -, hin⟩ := h.writing pid hw
      have hd := hin.died
      cases query with
      | submit command => exact .inr ⟨pid, command, rest, hp, hd⟩
      | reconcile signal => exact .inl hd

theorem Linearized.kept (h : σ.Linearized first es) : es <+: σ.fs.committed := by
  rcases h.committed with he | ⟨-, command, -, -, hm⟩
  · exact ⟨[], by rw [List.append_nil, he]⟩
  · exact hm.grows

/-- The process `pid` gave the answer `a`, between the entries `before` and `after`. -/
structure Placed (first : List JournalEntry) (σ : System) (es : List JournalEntry) (pid : Nat) (q : Query) (a : Answer)
    (before after : List JournalEntry) : Prop where
  recorded : ∃ earlier later, σ.history = earlier ++ (pid, q, a) :: later ∧
    Chronicle first (earlier.map Prod.snd) before
  truthful : Truthful before after q a
  kept : after <+: es

theorem Linearized.placed (h : σ.Linearized first es) {pid : Nat} {q : Query} {a : Answer}
    (hm : (pid, q, a) ∈ σ.history) : ∃ before after, σ.Placed first es pid q a before after := by
  obtain ⟨earlier, later, hh⟩ := List.append_of_mem hm
  have hc := h.chronicle
  rw [answers, hh, List.map_append, List.map_cons] at hc
  obtain ⟨before, after, hb, ht, hp⟩ := hc.answered
  exact ⟨before, after, ⟨earlier, later, hh, hb⟩, ht, hp⟩

theorem Sound.idle {fs : Fs} (hs : Served l fs) (hc : fs.Compatible) :
    Sound l allow fs.committed (idle fs) fs.committed none :=
  ⟨hs, hc, .nil, fun _ => rfl, (fun _ hn => by cases hn), fun pid p _ hp => by cases hp⟩

/-- Any number of processes on one store, their operations in any order and failing in any way, processes dying at any
point: the answers are those of a sequence of requests one after the other, from the entries that were committed at the
start, each true when it was given, no signal is stored twice, what was reported accepted is committed and stays so, and
what is added was submitted. Where the first entries can be replayed, no answer says that they cannot. -/
theorem processes_linearizable {fs : Fs} (hs : Served l fs) (hc : fs.Compatible) {σ : System}
    (hr : Reaches allow (idle fs) σ) :
    ∃ es, σ.Linearized fs.committed es ∧
      (∀ σ', Reaches allow σ σ' → ∃ es', es <+: es' ∧ σ'.Linearized fs.committed es') ∧
      ((idsOf fs.committed).Nodup → ∀ pid q a, (pid, q, a) ∈ σ.history → ¬a.saysCorrupt) := by
  obtain ⟨es, writer, -, h⟩ := (Sound.idle hs hc).reaches hr
  refine ⟨es, h.linearized, fun σ' hr' => ?_, fun hd pid q a hm => ?_⟩
  · obtain ⟨es', writer', hp, h'⟩ := h.reaches hr'
    exact ⟨es', hp, h'.linearized⟩
  · exact h.chronicle.readable hd (List.mem_map.mpr ⟨_, hm, rfl⟩)

/-! ## Runs without failures -/

omit [SerdeJson] in
theorem set_set (fs : Fs) (pid : Nat) (p q : Option Process) : set ⟨fs, σ.set pid p, σ.history⟩ pid q = σ.set pid q := by
  funext i
  unfold set
  by_cases hi : i = pid
  · rw [if_pos hi, if_pos hi]
  · simp only [if_neg hi]

omit [SerdeJson] in
theorem set_eq {pid : Nat} {p : Option Process} (h : σ.processes pid = p) : σ.set pid p = σ.processes := by
  funext i
  by_cases hi : i = pid
  · rw [hi, set_same, h]
  · rw [set_other hi]

theorem reaches_exec {pid : Nat} {query : Query} (p : Prog Op.Res Answer) (h : σ.processes pid = some ⟨query, p⟩) :
    Reaches allow σ ⟨(p.exec (Op.run pid) σ.fs).2, σ.set pid (some ⟨query, .ret (p.exec (Op.run pid) σ.fs).1⟩),
      σ.history⟩ := by
  induction p generalizing σ with
  | ret a =>
    show Reaches allow σ ⟨σ.fs, σ.set pid (some ⟨query, .ret a⟩), σ.history⟩
    rw [set_eq h]
    exact .refl
  | call o k ih =>
    have hact : o.Act pid allow σ.fs (o.run pid σ.fs).1 (o.run pid σ.fs).2 := ⟨.full, .normal, rfl⟩
    have hstep : Step allow σ ⟨(o.run pid σ.fs).2, σ.set pid (some ⟨query, k (o.run pid σ.fs).1⟩), σ.history⟩ :=
      .operate h hact
    have hp : processes ⟨(o.run pid σ.fs).2, σ.set pid (some ⟨query, k (o.run pid σ.fs).1⟩), σ.history⟩ pid =
        some ⟨query, k (o.run pid σ.fs).1⟩ := set_same pid _
    have hrest := ih _ hp
    rw [set_set] at hrest
    exact .head hstep hrest

theorem reaches_serve {pid : Nat} {query : Query} {clock : Except ClockError BoundedTimestamp} {a : Answer} {fs : Fs}
    (h : σ.processes pid = none) (he : (query.program clock).exec (Op.run pid) σ.fs = (a, fs)) :
    Reaches allow σ ⟨fs.release pid, σ.processes, σ.history ++ [(pid, query, a)]⟩ := by
  have hstart : Step allow σ ⟨σ.fs, σ.set pid (some ⟨query, query.program clock⟩), σ.history⟩ := .start query clock h
  have hp : processes ⟨σ.fs, σ.set pid (some ⟨query, query.program clock⟩), σ.history⟩ pid =
      some ⟨query, query.program clock⟩ := set_same pid _
  have hrun : Reaches allow _ _ := reaches_exec _ hp
  rw [set_set, he] at hrun
  have hq : processes ⟨fs, σ.set pid (some ⟨query, .ret a⟩), σ.history⟩ pid = some ⟨query, .ret a⟩ := set_same pid _
  have hanswer : Step allow _ _ := .answer hq
  rw [set_set, set_eq h] at hanswer
  exact .head hstart (hrun.tail hanswer)

theorem reaches_killed {pid : Nat} (query : Query) (h : σ.processes pid = none) :
    Reaches allow σ ⟨σ.fs.release pid, σ.processes, σ.history ++ [(pid, query, .died)]⟩ := by
  have hstart : Step allow σ ⟨σ.fs, σ.set pid (some ⟨query, query.program (.error .outOfRange)⟩), σ.history⟩ :=
    .start query _ h
  have hp : processes ⟨σ.fs, σ.set pid (some ⟨query, query.program (.error .outOfRange)⟩), σ.history⟩ pid =
      some ⟨query, query.program (.error .outOfRange)⟩ := set_same pid _
  have hdie : Step allow _ _ := .die hp
  rw [set_set, set_eq h] at hdie
  exact .head hstart (.single hdie)

end

end System

theorem Mirrors.served {l : Nat} {s : Fs} {j : MemoryJournal} (h : Mirrors l s j) : Served l s := by
  have hp := h.published
  obtain ⟨owner, point, hc⟩ := h.store
  obtain ⟨d, hd, -⟩ := hc.healthy.dir.dir
  refine ⟨hc.lock, by rw [hd]; rfl, ?_⟩
  rw [hp.committed]
  exact hp

omit [SerdeJson] in
theorem Fs.Compatible.of_nil {s : Fs} (h : s.locks = []) : s.Compatible := by
  intro a ha
  rw [h] at ha
  cases ha

theorem Mirrors.serve (allow : OpError → Prop) (σ : System) (pid : Nat) (command : Command)
    (clock : Except ClockError BoundedTimestamp) {l : Nat} {j : MemoryJournal} (h : Mirrors l σ.fs j) (hl : σ.fs.locks = [])
    (hp : σ.processes pid = none) :
    ∃ fs, System.Reaches allow σ ⟨fs, σ.processes, σ.history ++
        [(pid, .submit command, .submitted ((handleWorkflowSignal command).exec (MemoryJournal.world clock).run j).1)]⟩ ∧
      Mirrors l fs ((handleWorkflowSignal command).exec (MemoryJournal.world clock).run j).2 ∧ fs.locks = [] := by
  obtain ⟨u, hu, hlocks, hm⟩ := exec_submitStored clock command (h.exec_openWriter hl) (h.withLocks [⟨pid, l, true⟩])
  have hexec : ((Query.submit command).program clock).exec (Op.run pid) σ.fs =
      (.submitted ((handleWorkflowSignal command).exec (MemoryJournal.world clock).run j).1, u) := by
    unfold Query.program
    rw [Prog.exec_bind, hu]
    rfl
  refine ⟨u.release pid, System.reaches_serve hp hexec, ?_⟩
  rw [release_own hlocks]
  exact ⟨hm.withLocks [], rfl⟩

end

open Sample in
/-- A store with one entry, and three processes on it: the same signal again, another one, and one that dies. -/
theorem processes_linearizable_sample :
    ∃ fs σ, fs.committed = [sampleEntry] ∧ System.Reaches (fun _ => True) (System.idle fs) σ ∧
      σ.history = [(2, .submit sampleCommand, .submitted (.ok (.duplicate sampleSubmission.eventId))),
        (3, .submit otherCommand, .submitted (.ok (.accepted repeatedEntry))), (4, .submit otherCommand, .died)] ∧
      σ.fs.committed = [sampleEntry, repeatedEntry] ∧ ∃ es, σ.Linearized fs.committed es := by
  obtain ⟨fs, -, hfs, hfree⟩ := newStore_mirrors.serve (fun _ => True) (System.idle newStore) 1 sampleCommand
    (.ok sampleTime) rfl rfl
  have hfirst : fs.committed = [sampleEntry] := hfs.published.committed
  obtain ⟨fs₁, hr₁, hm₁, hl₁⟩ := Mirrors.serve (fun _ => True) (System.idle fs) 2 sampleCommand (.ok sampleTime) hfs hfree rfl
  obtain ⟨fs₂, hr₂, hm₂, -⟩ := Mirrors.serve (fun _ => True) ⟨fs₁, fun _ => none, _⟩ 3 otherCommand (.ok sampleTime) hm₁ hl₁ rfl
  have hrun := (hr₁.trans hr₂).trans (@System.reaches_killed _ _ ⟨fs₂, fun _ => none, _⟩ 4 (.submit otherCommand) rfl)
  obtain ⟨es, hes, -⟩ := System.processes_linearizable hfs.served (.of_nil hfree) hrun
  exact ⟨fs, _, hfirst, hrun, rfl, hm₂.published.committed, es, hes⟩

end Aizign
