import Aizign.Service
import Aizign.WatchdogSound

/-!
# Children on one store

Any number of children, each a worker and a watchdog racing for its gate, work
on the files of one store. What they do to the store is a run of the processes
that execute the use cases: a child is such a process from the moment its worker
has won the gate until the use case or the child ends, and the body it answers
with is the answer of that process.
-/

namespace Aizign

variable [SerdeJson]

/-! ## The host -/

abbrev Reply := (o : Op) × o.Res

/-- A child with its input, its clock and its limit; what it has called so far is its state. -/
structure Hosted where
  stdin : Except Text Stdin
  clock : Except ClockError BoundedTimestamp
  elapsed : Nat
  child : Child Op.Res (List Reply)

structure Host where
  fs : Fs
  children : Nat → Option Hosted

def Hosted.Step (h h' : Hosted) : Prop :=
  ∃ c, Child.Step Prog.Logs (executeRequest true h.clock) h.elapsed h.stdin h.child c ∧ h' = { h with child := c }

/-- The worker is in a use case on the store, and the process lives. -/
def Hosted.Working (h : Hosted) : Prop :=
  (∃ request rest, h.child.worker = .executing request rest ∧ request.kind ≠ .hello) ∧ h.child.main.Alive

def Host.set (ρ : Host) (pid : Nat) (h : Hosted) : Nat → Option Hosted := fun i => if i = pid then some h else ρ.children i

section
variable (allow : OpError → Prop)

/-- A child starts, calls an operation on the files, or takes a step of its own. The lock goes with the use case or
with the process. -/
inductive Host.Step : Host → Host → Prop
  | spawn {ρ pid} (stdin : Except Text Stdin) (clock : Except ClockError BoundedTimestamp) (elapsed : Nat) :
      ρ.children pid = none → Step ρ ⟨ρ.fs, ρ.set pid ⟨stdin, clock, elapsed, .start []⟩⟩
  | call {ρ pid h h' o r fs} : ρ.children pid = some h → Hosted.Step h h' →
      h'.child.state = h.child.state ++ [⟨o, r⟩] → o.Act pid allow ρ.fs r fs → Step ρ ⟨fs, ρ.set pid h'⟩
  | think {ρ pid h h'} : ρ.children pid = some h → Hosted.Step h h' → h'.child.state = h.child.state →
      (h.Working → h'.Working) → Step ρ ⟨ρ.fs, ρ.set pid h'⟩
  | leave {ρ pid h h'} : ρ.children pid = some h → Hosted.Step h h' → h'.child.state = h.child.state →
      h.Working → ¬h'.Working → Step ρ ⟨ρ.fs.release pid, ρ.set pid h'⟩

def Host.Reaches : Host → Host → Prop := Relation.ReflTransGen (Host.Step allow)

end

def Host.idle (fs : Fs) : Host := ⟨fs, fun _ => none⟩

/-! ## Use cases and requests -/

def RequestKind.query : RequestKind → Option Query
  | .hello => none
  | .submitWorkflowSignal command => some (.submit command)
  | .reconcileWorkflowSignal signal => some (.reconcile signal)

inductive Said : Query → Answer → ResponseBody → Prop
  | submit {command} (r : Except HandleError SignalOutcome) : Said (.submit command) (.submitted r) (submitBody r)
  | reconcile {signal} (r : Except ReconcileError SignalReconciliation) :
      Said (.reconcile signal) (.reconciled r) (reconcileBody signal r)

/-- The rest of a process and the rest of a worker that have called the same. -/
inductive Twin : Query → Prog Op.Res Answer → Prog Op.Res ResponseBody → Prop
  | submit {command} (rest : Prog Op.Res (Except HandleError SignalOutcome)) :
      Twin (.submit command) (rest >>= fun r => .ret (.submitted r)) (rest >>= fun r => .ret (submitBody r))
  | reconcile {signal} (rest : Prog Op.Res (Except ReconcileError SignalReconciliation)) :
      Twin (.reconcile signal) (rest >>= fun r => .ret (.reconciled r)) (rest >>= fun r => .ret (reconcileBody signal r))

theorem Twin.start {kind : RequestKind} {query : Query} (h : kind.query = some query)
    (clock : Except ClockError BoundedTimestamp) : Twin query (query.program clock) (executeRequest true clock kind) := by
  cases kind with
  | hello => cases h
  | submitWorkflowSignal command =>
    obtain rfl := Option.some.inj h
    exact .submit (submitStored clock command)
  | reconcileWorkflowSignal signal =>
    obtain rfl := Option.some.inj h
    exact .reconcile (reconcileStored signal)

omit [SerdeJson] in
theorem Twin.call {query : Query} {q : Prog Op.Res Answer} {o : Op} {k : o.Res → Prog Op.Res ResponseBody}
    (h : Twin query q (.call o k)) : ∃ k', q = .call o k' ∧ ∀ r, Twin query (k' r) (k r) := by
  generalize hp : Prog.call o k = p at h
  cases h with
  | submit rest =>
    cases rest with
    | ret r => cases hp
    | call o' k' =>
      cases hp
      exact ⟨_, rfl, fun r => .submit (k' r)⟩
  | reconcile rest =>
    cases rest with
    | ret r => cases hp
    | call o' k' =>
      cases hp
      exact ⟨_, rfl, fun r => .reconcile (k' r)⟩

omit [SerdeJson] in
theorem Twin.ret {query : Query} {q : Prog Op.Res Answer} {body : ResponseBody} (h : Twin query q (.ret body)) :
    ∃ a, q = .ret a ∧ Said query a body := by
  generalize hp : Prog.ret body = p at h
  cases h with
  | submit rest =>
    cases rest with
    | ret r =>
      cases hp
      exact ⟨_, rfl, .submit r⟩
    | call o' k' => cases hp
  | reconcile rest =>
    cases rest with
    | ret r =>
      cases hp
      exact ⟨_, rfl, .reconcile r⟩
    | call o' k' => cases hp

/-! ## Children and processes -/

def Hosted.Sound (h : Hosted) : Prop :=
  h.child.Sound Prog.Logs (executeRequest true h.clock) h.elapsed h.stdin []

/-- If the child has executed its request to a body, the history has its answer, which this body tells. -/
def Hosted.Told (h : Hosted) (history : List (Nat × Query × Answer)) (pid : Nat) : Prop :=
  ∀ frame request query body, h.child.gate = .dispatching → h.stdin = .ok (.frame frame) →
    decodeRequest frame = .ok request → request.kind.query = some query →
    Prog.Steps Prog.Logs (executeRequest true h.clock request.kind) [] (.ret body) h.child.state →
    ∃ a, (pid, query, a) ∈ history ∧ Said query a body

/-- The child died in the request, or it has executed it to a body that tells the answer. -/
inductive Hosted.Ended (h : Hosted) (request : Request) (query : Query) : Answer → Prop
  | died {rest} : h.child.worker = .executing request rest → ¬h.child.main.Alive → Ended h request query .died
  | answered {a body} : (∀ q p, h.child.worker ≠ .executing q p) → Said query a body →
      Prog.Steps Prog.Logs (executeRequest true h.clock request.kind) [] (.ret body) h.child.state →
      Ended h request query a

/-- The answer is the one of the child: it has read a request of the query, and won its gate. -/
def Hosted.Answers (h : Hosted) (query : Query) (a : Answer) : Prop :=
  h.child.gate = .dispatching ∧ ∃ frame request, h.stdin = .ok (.frame frame) ∧ decodeRequest frame = .ok request ∧
    request.kind.query = some query ∧ h.Ended request query a

/-- A child is no process, or the process that executes its request. -/
inductive Hosted.Standing (σ : System) (pid : Nat) (h : Hosted) : Prop
  | idle : (∀ q p, h.child.worker ≠ .executing q p) → σ.processes pid = none → h.Told σ.history pid →
      Standing σ pid h
  | greeting {request rest} : h.child.worker = .executing request rest → request.kind = .hello →
      σ.processes pid = none → Standing σ pid h
  | running {request query q rest} : h.child.worker = .executing request rest → request.kind.query = some query →
      h.child.main.Alive → Twin query q rest → σ.processes pid = some ⟨query, q⟩ → Standing σ pid h
  | dead {request rest} : h.child.worker = .executing request rest → ¬h.child.main.Alive → σ.processes pid = none →
      Standing σ pid h

structure Host.Matches (ρ : Host) (σ : System) : Prop where
  fs : σ.fs = ρ.fs
  absent : ∀ pid, ρ.children pid = none → σ.processes pid = none
  sound : ∀ pid h, ρ.children pid = some h → h.Sound
  standing : ∀ pid h, ρ.children pid = some h → h.Standing σ pid
  recorded : ∀ pid query a, (pid, query, a) ∈ σ.history → ∃ h, ρ.children pid = some h ∧ h.Answers query a
  once : (σ.history.map Prod.fst).Nodup

/-! ## One step of a child -/

inductive Hosted.Phase (h : Hosted) : Hosted → Prop
  | claim {c request} : h.child.worker = .claiming request → h.child.gate = .reading → c.gate = .dispatching →
      c.worker = .executing request (executeRequest true h.clock request.kind) → c.main = h.child.main →
      c.state = h.child.state → Phase h { h with child := c }
  | call {c request o k} (r : o.Res) : h.child.worker = .executing request (.call o k) →
      c.worker = .executing request (k r) → c.gate = h.child.gate → c.main = h.child.main →
      c.state = h.child.state ++ [⟨o, r⟩] → Phase h { h with child := c }
  | executed {c request body} : h.child.worker = .executing request (.ret body) →
      (∀ q p, c.worker ≠ .executing q p) → c.gate = h.child.gate → c.state = h.child.state →
      Phase h { h with child := c }
  | quiet {c} : (∀ q p, c.worker = .executing q p ↔ h.child.worker = .executing q p) →
      (c.gate = .dispatching ↔ h.child.gate = .dispatching) → c.state = h.child.state → Phase h { h with child := c }

omit [SerdeJson] in
theorem DispatchState.claimTimeout_dispatching {g : DispatchState} :
    g.claimTimeout.2 = .dispatching ↔ g = .dispatching := by
  cases g <;> simp [claimTimeout]

/-- A process that takes a step lives, and its step is of one of the four kinds. -/
theorem Hosted.Step.phase {h h' : Hosted} (hs : h.Step h') : h.child.main.Alive ∧ h.Phase h' := by
  obtain ⟨stdin, clock, elapsed, child⟩ := h
  obtain ⟨c, hstep, rfl⟩ := hs
  dsimp only at hstep
  cases hstep with
  | read alive =>
    refine ⟨alive, .quiet (fun q p => iff_of_false (readOutcome_idle q p) ?_) Iff.rfl rfl⟩
    intro hw
    cases hw
  | @claim gate request channel main stdout state alive =>
    refine ⟨alive, ?_⟩
    have hlate : ∀ {q p}, (Worker.finished (.ok timedOut) : Worker Op.Res) = .executing q p ↔
        (Worker.claiming request : Worker Op.Res) = .executing q p :=
      iff_of_false (fun h => by cases h) (fun h => by cases h)
    cases gate with
    | reading => exact .claim rfl rfl rfl rfl rfl rfl
    | dispatching => exact .quiet (fun q p => hlate) Iff.rfl rfl
    | timedOut => exact .quiet (fun q p => hlate) Iff.rfl rfl
  | operation alive hlog => exact ⟨alive, .call _ rfl rfl rfl rfl hlog⟩
  | executed alive => exact ⟨alive, .executed rfl (fun q p h => by cases h) rfl rfl⟩
  | send alive =>
    refine ⟨alive, .quiet (fun q p => iff_of_false ?_ ?_) Iff.rfl rfl⟩
    · intro hw
      cases hw
    · intro hw
      cases hw
  | receive => exact ⟨trivial, .quiet (fun _ _ => Iff.rfl) Iff.rfl rfl⟩
  | receiveError => exact ⟨trivial, .quiet (fun _ _ => Iff.rfl) Iff.rfl rfl⟩
  | disconnected => exact ⟨trivial, .quiet (fun _ _ => Iff.rfl) Iff.rfl rfl⟩
  | timeout => exact ⟨trivial, .quiet (fun _ _ => Iff.rfl) Iff.rfl rfl⟩
  | claimTimeout => exact ⟨trivial, .quiet (fun _ _ => Iff.rfl) DispatchState.claimTimeout_dispatching rfl⟩
  | write => exact ⟨trivial, .quiet (fun _ _ => Iff.rfl) Iff.rfl rfl⟩
  | written => exact ⟨trivial, .quiet (fun _ _ => Iff.rfl) Iff.rfl rfl⟩
  | writeError => exact ⟨trivial, .quiet (fun _ _ => Iff.rfl) Iff.rfl rfl⟩
  | kill alive => exact ⟨alive, .quiet (fun _ _ => Iff.rfl) Iff.rfl rfl⟩

theorem Hosted.Sound.step {h h' : Hosted} (hs : h.Sound) (hstep : h.Step h') : h'.Sound := by
  obtain ⟨c, hc, rfl⟩ := hstep
  exact hs.preserved hc

section
variable {allow : OpError → Prop} {σ σ' : System} {pid : Nat} {h h' : Hosted}

theorem Hosted.Told.mono {history history' : List (Nat × Query × Answer)} (ht : h.Told history pid)
    (hh : ∀ x ∈ history, x ∈ history') : h.Told history' pid := by
  intro frame request query body hg hin hd hq hsteps
  obtain ⟨a, ha, hsaid⟩ := ht frame request query body hg hin hd hq hsteps
  exact ⟨a, hh _ ha, hsaid⟩

theorem Hosted.Standing.frame (hs : h.Standing σ pid) (hp : σ'.processes pid = σ.processes pid)
    (hh : ∀ x ∈ σ.history, x ∈ σ'.history) : h.Standing σ' pid := by
  cases hs with
  | idle hw hn ht => exact .idle hw (hp.trans hn) (ht.mono hh)
  | greeting hw hk hn => exact .greeting hw hk (hp.trans hn)
  | running hw hq ha ht hn => exact .running hw hq ha ht (hp.trans hn)
  | dead hw ha hn => exact .dead hw ha (hp.trans hn)

/-- The request in execution is the one on stdin. -/
theorem Hosted.Sound.executing (hs : h.Sound) {request : Request} {rest : Prog Op.Res ResponseBody}
    (hw : h.child.worker = .executing request rest) :
    ∃ frame, h.child.gate = .dispatching ∧ h.stdin = .ok (.frame frame) ∧ decodeRequest frame = .ok request ∧
      Prog.Steps Prog.Logs (executeRequest true h.clock request.kind) [] rest h.child.state := by
  have hx := hs.executed
  rw [hw] at hx
  exact hx.running

/-! ## The answer of a child -/

omit [SerdeJson] in
theorem state_grown {s : List Reply} {x : Reply} (h : s = s ++ [x]) : False := by
  have := congrArg List.length h
  rw [List.length_append, List.length_singleton] at this
  omega

/-- A child that has answered, or died in its request, works no more. -/
theorem Hosted.Answers.not_working {query : Query} {a : Answer} (ha : h.Answers query a) : ¬h.Working := by
  rintro ⟨⟨q, p, hw, -⟩, halive⟩
  obtain ⟨-, frame, request, -, -, -, hend⟩ := ha
  cases hend with
  | died _ hd => exact hd halive
  | answered hidle _ _ => exact hidle _ _ hw

theorem Hosted.Answers.step {query : Query} {a : Answer} (ha : h.Answers query a) (hs : h.Step h') :
    h'.Answers query a := by
  obtain ⟨hg, frame, request, hin, hd, hq, hend⟩ := ha
  obtain ⟨halive, hphase⟩ := hs.phase
  cases hend with
  | died _ hdead => exact absurd halive hdead
  | answered hidle hsaid hsteps =>
    cases hphase with
    | claim _ hr _ _ _ _ => rw [hg] at hr; cases hr
    | call _ hw _ _ _ _ => exact absurd hw (hidle _ _)
    | executed hw _ _ _ => exact absurd hw (hidle _ _)
    | @quiet c hw' hg' hstate =>
      refine ⟨hg'.mpr hg, frame, request, hin, hd, hq, .answered (fun q p hx => ?_) hsaid ?_⟩
      · exact hidle q p ((hw' q p).mp hx)
      · show Prog.Steps Prog.Logs _ [] (.ret _) c.state
        rw [hstate]
        exact hsteps

/-! ## The simulation -/

/-- What a step of the child `pid` records: nothing, or its answer, which is the first one. -/
inductive Recorded (σ σ' : System) (pid : Nat) (h : Hosted) : Prop
  | same : σ'.history = σ.history → Recorded σ σ' pid h
  | answer {query a} : σ'.history = σ.history ++ [(pid, query, a)] → h.Answers query a →
      (∀ query a, (pid, query, a) ∉ σ.history) → Recorded σ σ' pid h

/-- The processes get from `σ` to `σ'` while the child `pid` becomes `h` and the files `fs`. -/
structure Advance (allow : OpError → Prop) (σ σ' : System) (pid : Nat) (fs : Fs) (h : Hosted) : Prop where
  reaches : System.Reaches allow σ σ'
  fs : σ'.fs = fs
  others : ∀ i, i ≠ pid → σ'.processes i = σ.processes i
  recorded : Recorded σ σ' pid h
  standing : h.Standing σ' pid

theorem Advance.stay (hs : h.Standing σ pid) : Advance allow σ σ pid σ.fs h :=
  ⟨.refl, rfl, fun _ _ => rfl, .same rfl, hs⟩

theorem Advance.one {fs : Fs} {p : Option Process} {history : List (Nat × Query × Answer)}
    (hstep : System.Step allow σ ⟨fs, σ.set pid p, history⟩) (hh : Recorded σ ⟨fs, σ.set pid p, history⟩ pid h)
    (hs : h.Standing ⟨fs, σ.set pid p, history⟩ pid) : Advance allow σ ⟨fs, σ.set pid p, history⟩ pid fs h :=
  ⟨.single hstep, rfl, fun _ hi => System.set_other hi p, hh, hs⟩

theorem Recorded.grows (hr : Recorded σ σ' pid h) : ∀ x ∈ σ.history, x ∈ σ'.history := by
  intro x hx
  cases hr with
  | same he => exact he ▸ hx
  | answer he _ _ => exact he ▸ List.mem_append_left _ hx

/-- A worker that greets calls nothing. -/
theorem Hosted.Sound.greets (hs : h.Sound) {request : Request} {rest : Prog Op.Res ResponseBody}
    (hw : h.child.worker = .executing request rest) (hk : request.kind = .hello) : ∃ body, rest = .ret body := by
  obtain ⟨frame, -, -, -, hsteps⟩ := hs.executing hw
  rw [hk] at hsteps
  generalize hp : executeRequest true h.clock .hello = p at hsteps
  generalize h.child.state = log at hsteps
  cases hsteps with
  | refl => exact ⟨_, hp.symm⟩
  | head _ _ => cases hp

theorem Hosted.Standing.call (hst : h.Standing σ pid) (hs : h.Sound) (hstep : h.Step h') {o : Op} {r : o.Res}
    (hstate : h'.child.state = h.child.state ++ [⟨o, r⟩]) {fs : Fs} (hact : o.Act pid allow σ.fs r fs) :
    ∃ σ', Advance allow σ σ' pid fs h' := by
  obtain ⟨halive, hphase⟩ := hstep.phase
  cases hphase with
  | claim _ _ _ _ _ hsame => exact absurd (hsame.symm.trans hstate) state_grown
  | executed _ _ _ hsame => exact absurd (hsame.symm.trans hstate) state_grown
  | quiet _ _ hsame => exact absurd (hsame.symm.trans hstate) state_grown
  | @call c request o' k r' hw hw' _ hmain hlog =>
    have hsame : (⟨o', r'⟩ : Reply) = ⟨o, r⟩ := by simpa using hlog.symm.trans hstate
    cases hsame
    cases hst with
    | idle hn _ _ => exact absurd hw (hn _ _)
    | dead _ hd _ => exact absurd halive hd
    | greeting hg hk _ =>
      obtain ⟨body, hb⟩ := hs.greets hw (by rw [hw] at hg; cases hg; exact hk)
      cases hb
    | @running request' query q rest hg hq _ ht hp =>
      rw [hw] at hg
      cases hg
      obtain ⟨k', rfl, hk'⟩ := ht.call
      refine ⟨_, .one (.operate hp hact) (.same rfl) ?_⟩
      exact .running hw' hq (hmain ▸ halive) (hk' r) (System.set_same pid _)

omit [SerdeJson] in
theorem Hosted.Working.of_running {request : Request} {query : Query} {rest : Prog Op.Res ResponseBody}
    (hw : h.child.worker = .executing request rest) (hq : request.kind.query = some query) (ha : h.child.main.Alive) :
    h.Working := by
  refine ⟨⟨request, rest, hw, ?_⟩, ha⟩
  intro hk
  rw [hk] at hq
  cases hq

omit [SerdeJson] in
theorem Hosted.not_working (hw : ∀ q p, h.child.worker ≠ .executing q p) : ¬h.Working := by
  rintro ⟨⟨q, p, hx, -⟩, -⟩
  exact hw q p hx

theorem Hosted.Standing.think (hst : h.Standing σ pid) (hs : h.Sound) (hstep : h.Step h')
    (hstate : h'.child.state = h.child.state) (hwork : h.Working → h'.Working) :
    ∃ σ', Advance allow σ σ' pid σ.fs h' := by
  obtain ⟨halive, hphase⟩ := hstep.phase
  cases hphase with
  | @claim c request hw _ hg hw' hmain _ =>
    have hnone : σ.processes pid = none := by
      cases hst with
      | idle _ hn _ => exact hn
      | greeting hx _ _ => rw [hw] at hx; cases hx
      | running hx _ _ _ _ => rw [hw] at hx; cases hx
      | dead _ hd _ => exact absurd halive hd
    cases hq : request.kind.query with
    | none =>
      have hk : request.kind = .hello := by
        generalize request.kind = kind at hq
        cases kind with
        | hello => rfl
        | submitWorkflowSignal _ => cases hq
        | reconcileWorkflowSignal _ => cases hq
      exact ⟨σ, .stay (.greeting hw' hk hnone)⟩
    | some query =>
      refine ⟨_, .one (.start query h.clock hnone) (.same rfl) ?_⟩
      exact .running hw' hq (hmain ▸ halive) (.start hq h.clock) (System.set_same pid _)
  | call r _ _ _ _ hlog => exact absurd (hstate.symm.trans hlog) state_grown
  | @executed c request body hw hw' _ _ =>
    cases hst with
    | idle hn _ _ => exact absurd hw (hn _ _)
    | dead _ hd _ => exact absurd halive hd
    | greeting hx hk hn =>
      rw [hw] at hx
      cases hx
      obtain ⟨frame, -, hin, hd, -⟩ := hs.executing hw
      refine ⟨σ, .stay (.idle hw' hn ?_)⟩
      intro frame' request' query body' _ hin' hd' hq _
      cases hin.symm.trans hin'
      cases hd.symm.trans hd'
      rw [hk] at hq
      cases hq
    | running hx hq ha ht hp =>
      obtain ⟨⟨q, p, hqp, -⟩, -⟩ := hwork (.of_running hx hq ha)
      exact absurd hqp (hw' q p)
  | @quiet c hw' hg _ =>
    cases hst with
    | dead _ hd _ => exact absurd halive hd
    | greeting hx hk hn => exact ⟨σ, .stay (.greeting ((hw' _ _).mpr hx) hk hn)⟩
    | idle hx hn ht =>
      refine ⟨σ, .stay (.idle (fun q p hqp => hx q p ((hw' q p).mp hqp)) hn ?_)⟩
      intro frame request query body hd hin hdec hq hsteps
      rw [hstate] at hsteps
      exact ht frame request query body (hg.mp hd) hin hdec hq hsteps
    | running hx hq ha ht hp =>
      obtain ⟨-, ha'⟩ := hwork (.of_running hx hq ha)
      exact ⟨σ, .stay (.running ((hw' _ _).mpr hx) hq ha' ht hp)⟩

theorem Hosted.Standing.leave (hst : h.Standing σ pid) (hs : h.Sound) (hstep : h.Step h')
    (hstate : h'.child.state = h.child.state) (hwork : h.Working) (hleft : ¬h'.Working)
    (hfirst : ∀ query a, (pid, query, a) ∉ σ.history) : ∃ σ', Advance allow σ σ' pid (σ.fs.release pid) h' := by
  obtain ⟨halive, hphase⟩ := hstep.phase
  obtain ⟨⟨request, rest, hw, hk⟩, -⟩ := hwork
  -- only a process that runs works
  have hrun : ∃ query q, request.kind.query = some query ∧ Twin query q rest ∧ σ.processes pid = some ⟨query, q⟩ := by
    cases hst with
    | idle hn _ _ => exact absurd hw (hn _ _)
    | dead _ hd _ => exact absurd halive hd
    | greeting hx hh _ =>
      rw [hw] at hx
      cases hx
      exact absurd hh hk
    | running hx hq _ ht hp =>
      rw [hw] at hx
      cases hx
      exact ⟨_, _, hq, ht, hp⟩
  obtain ⟨query, q, hq, ht, hp⟩ := hrun
  cases hphase with
  | claim hx _ _ _ _ _ => rw [hw] at hx; cases hx
  | call r _ _ _ _ hlog => exact absurd (hstate.symm.trans hlog) state_grown
  | @executed c request' body hx hw' hg' hsame =>
    rw [hw] at hx
    cases hx
    obtain ⟨a, rfl, hsaid⟩ := ht.ret
    obtain ⟨frame, hg, hin, hd, hsteps⟩ := hs.executing hw
    have hanswers : Hosted.Answers { h with child := c } query a := by
      refine ⟨hg'.trans hg, frame, request, hin, hd, hq, .answered hw' hsaid ?_⟩
      show Prog.Steps Prog.Logs _ [] (.ret body) c.state
      rw [hsame]
      exact hsteps
    refine ⟨_, .one (.answer hp) (.answer rfl hanswers hfirst) (.idle hw' (System.set_same pid _) ?_)⟩
    intro frame' request' query' body' _ hin' hd' hq' hsteps'
    cases hin.symm.trans hin'
    cases hd.symm.trans hd'
    cases hq.symm.trans hq'
    rw [hstate] at hsteps'
    cases hsteps.log_unique hsteps'
    exact ⟨a, List.mem_append_right _ (List.mem_singleton_self _), hsaid⟩
  | @quiet c hw' hg' _ =>
    have hx := (hw' _ _).mpr hw
    have hdead : ¬c.main.Alive := fun ha => hleft ⟨⟨request, rest, hx, hk⟩, ha⟩
    obtain ⟨frame, hg, hin, hd, -⟩ := hs.executing hw
    have hanswers : Hosted.Answers { h with child := c } query .died :=
      ⟨hg'.mpr hg, frame, request, hin, hd, hq, .died hx hdead⟩
    exact ⟨_, .one (.die hp) (.answer rfl hanswers hfirst) (.dead hx hdead (System.set_same pid _))⟩

end

namespace Host

section
variable {allow : OpError → Prop} {ρ ρ' : Host} {σ σ' : System}

/-- The child `pid` has become `h'`, which stands by what it has answered before. -/
theorem Matches.advance {pid : Nat} {h' : Hosted} {fs : Fs} (hm : ρ.Matches σ) (ha : Advance allow σ σ' pid fs h')
    (hs : h'.Sound) (hkeep : ∀ query a, (pid, query, a) ∈ σ.history → h'.Answers query a) :
    Matches ⟨fs, ρ.set pid h'⟩ σ' where
  fs := ha.fs
  absent i hi := by
    by_cases hp : i = pid
    · rw [hp] at hi
      exact absurd ((if_pos rfl).symm.trans hi) (by simp)
    · exact (ha.others i hp).trans (hm.absent i ((if_neg hp).symm.trans hi))
  sound i h hi := by
    by_cases hp : i = pid
    · have : h' = h := Option.some.inj ((if_pos hp).symm.trans hi)
      exact this ▸ hs
    · exact hm.sound i h ((if_neg hp).symm.trans hi)
  standing i h hi := by
    by_cases hp : i = pid
    · have : h' = h := Option.some.inj ((if_pos hp).symm.trans hi)
      subst hp
      exact this ▸ ha.standing
    · exact (hm.standing i h ((if_neg hp).symm.trans hi)).frame (ha.others i hp) ha.recorded.grows
  recorded i query a hi := by
    have hold : (i, query, a) ∈ σ.history → ∃ h, ρ.set pid h' i = some h ∧ h.Answers query a := by
      intro hx
      by_cases hp : i = pid
      · subst hp
        exact ⟨h', if_pos rfl, hkeep query a hx⟩
      · obtain ⟨h, hc, hans⟩ := hm.recorded i query a hx
        exact ⟨h, (if_neg hp).trans hc, hans⟩
    cases ha.recorded with
    | same he => exact hold (he ▸ hi)
    | answer he hans _ =>
      rw [he] at hi
      rcases List.mem_append.mp hi with hx | hx
      · exact hold hx
      · cases List.mem_singleton.mp hx
        exact ⟨h', if_pos rfl, hans⟩
  once := by
    cases ha.recorded with
    | same he => exact he ▸ hm.once
    | answer he _ hfirst =>
      rw [he, List.map_append]
      refine hm.once.append (List.nodup_singleton _) (List.disjoint_singleton.mpr fun hx => ?_)
      obtain ⟨⟨i, query, a⟩, hmem, rfl⟩ := List.mem_map.mp hx
      exact hfirst query a hmem

theorem Matches.answers (hm : ρ.Matches σ) {pid : Nat} {h : Hosted} (hc : ρ.children pid = some h) {query : Query}
    {a : Answer} (hx : (pid, query, a) ∈ σ.history) : h.Answers query a := by
  obtain ⟨h', hc', hans⟩ := hm.recorded pid query a hx
  cases hc.symm.trans hc'
  exact hans

theorem Matches.step (hm : ρ.Matches σ) (hs : Step allow ρ ρ') :
    ∃ σ', System.Reaches allow σ σ' ∧ ρ'.Matches σ' := by
  cases hs with
  | @spawn pid stdin clock elapsed hnone =>
    have hfs := hm.fs
    have hstart : Hosted.Standing σ pid ⟨stdin, clock, elapsed, .start []⟩ := by
      refine .idle (fun q p hw => by cases hw) (hm.absent pid hnone) ?_
      intro frame request query body hg
      cases hg
    refine ⟨σ, .refl, ?_⟩
    rw [← hfs]
    have ha : Advance allow σ σ pid σ.fs _ := .stay hstart
    refine hm.advance ha Child.sound_start fun query a hx => ?_
    obtain ⟨h, hc, -⟩ := hm.recorded pid query a hx
    rw [hnone] at hc
    cases hc
  | @call pid h h' o r fs hc hstep hstate hact =>
    rw [← hm.fs] at hact
    obtain ⟨σ', ha⟩ := (hm.standing pid h hc).call (hm.sound pid h hc) hstep hstate hact
    exact ⟨σ', ha.reaches, hm.advance ha ((hm.sound pid h hc).step hstep) fun q a hx => (hm.answers hc hx).step hstep⟩
  | @think pid h h' hc hstep hstate hwork =>
    obtain ⟨σ', ha⟩ : ∃ σ', Advance allow σ σ' pid σ.fs h' :=
      (hm.standing pid h hc).think (hm.sound pid h hc) hstep hstate hwork
    rw [hm.fs] at ha
    exact ⟨σ', ha.reaches, hm.advance ha ((hm.sound pid h hc).step hstep) fun q a hx => (hm.answers hc hx).step hstep⟩
  | @leave pid h h' hc hstep hstate hwork hleft =>
    obtain ⟨σ', ha⟩ : ∃ σ', Advance allow σ σ' pid (σ.fs.release pid) h' :=
      (hm.standing pid h hc).leave (hm.sound pid h hc) hstep hstate hwork hleft fun q a hx =>
        (hm.answers hc hx).not_working hwork
    rw [hm.fs] at ha
    exact ⟨σ', ha.reaches, hm.advance ha ((hm.sound pid h hc).step hstep) fun q a hx => (hm.answers hc hx).step hstep⟩

theorem Matches.idle (fs : Fs) : (idle fs).Matches (System.idle fs) where
  fs := rfl
  absent _ _ := rfl
  sound _ _ hc := by cases hc
  standing _ _ hc := by cases hc
  recorded _ _ _ hx := by cases hx
  once := List.nodup_nil

/-- What the children do is a run of the processes. -/
theorem Matches.reaches (hm : ρ.Matches σ) (hr : Reaches allow ρ ρ') :
    ∃ σ', System.Reaches allow σ σ' ∧ ρ'.Matches σ' := by
  induction hr with
  | refl => exact ⟨σ, .refl, hm⟩
  | tail _ hs ih =>
    obtain ⟨σ₁, hr₁, hm₁⟩ := ih
    obtain ⟨σ₂, hr₂, hm₂⟩ := hm₁.step hs
    exact ⟨σ₂, hr₁.trans hr₂, hm₂⟩

/-! ## Runs without failures -/

omit [SerdeJson] in
theorem set_set (fs : Fs) (pid : Nat) (h h' : Hosted) : set ⟨fs, ρ.set pid h⟩ pid h' = ρ.set pid h' := by
  funext i
  unfold set
  by_cases hi : i = pid
  · rw [if_pos hi, if_pos hi]
  · simp only [if_neg hi]

omit [SerdeJson] in
theorem set_same (pid : Nat) (h : Hosted) : ρ.set pid h pid = some h := if_pos rfl

theorem Step.call_set {pid : Nat} {h h' : Hosted} {o : Op} {r : o.Res} {fs fs' : Fs} (hs : h.Step h')
    (hstate : h'.child.state = h.child.state ++ [⟨o, r⟩]) (hact : o.Act pid allow fs r fs') :
    Step allow ⟨fs, ρ.set pid h⟩ ⟨fs', ρ.set pid h'⟩ := by
  have hc : children ⟨fs, ρ.set pid h⟩ pid = some h := set_same pid h
  have hstep := Step.call hc hs hstate hact
  rwa [set_set] at hstep

theorem Step.think_set {pid : Nat} {h h' : Hosted} {fs : Fs} (hs : h.Step h')
    (hstate : h'.child.state = h.child.state) (hwork : h.Working → h'.Working) :
    Step allow ⟨fs, ρ.set pid h⟩ ⟨fs, ρ.set pid h'⟩ := by
  have hc : children ⟨fs, ρ.set pid h⟩ pid = some h := set_same pid h
  have hstep : Step allow _ _ := Step.think hc hs hstate hwork
  rwa [set_set] at hstep

theorem Step.leave_set {pid : Nat} {h h' : Hosted} {fs : Fs} (hs : h.Step h')
    (hstate : h'.child.state = h.child.state) (hwork : h.Working) (hleft : ¬h'.Working) :
    Step allow ⟨fs, ρ.set pid h⟩ ⟨fs.release pid, ρ.set pid h'⟩ := by
  have hc : children ⟨fs, ρ.set pid h⟩ pid = some h := set_same pid h
  have hstep : Step allow _ _ := Step.leave hc hs hstate hwork hleft
  rwa [set_set] at hstep

section
variable {stdin : Except Text Stdin} {clock : Except ClockError BoundedTimestamp} {elapsed pid : Nat}
  {gate : DispatchState} {request : Request} {channel : Option (Except Text Response)} {main : MainThread}
  {stdout : Bytes}

theorem reaches_exec (alive : main.Alive) (p : Prog Op.Res ResponseBody) (fs : Fs) (state : List Reply) :
    ∃ log, Reaches allow
      ⟨fs, ρ.set pid ⟨stdin, clock, elapsed, ⟨gate, .executing request p, channel, main, stdout, state⟩⟩⟩
      ⟨(p.exec (Op.run pid) fs).2, ρ.set pid ⟨stdin, clock, elapsed,
        ⟨gate, .executing request (.ret (p.exec (Op.run pid) fs).1), channel, main, stdout, log⟩⟩⟩ := by
  induction p generalizing fs state with
  | ret body => exact ⟨state, .refl⟩
  | call o k ih =>
    have hact : o.Act pid allow fs (o.run pid fs).1 (o.run pid fs).2 := ⟨.full, .normal, rfl⟩
    obtain ⟨log, hrest⟩ := ih (o.run pid fs).1 (o.run pid fs).2 (state ++ [⟨o, (o.run pid fs).1⟩])
    exact ⟨log, .head (.call_set ⟨_, .operation alive rfl, rfl⟩ rfl hact) hrest⟩

/-- A child that reads a request of a use case may answer it without failures. -/
theorem reaches_answer (elapsed : Nat) {frame : Bytes} (hd : decodeRequest frame = .ok request) (hk : request.kind ≠ .hello)
    (hnone : ρ.children pid = none) {body : ResponseBody} {fs : Fs}
    (he : (executeRequest true clock request.kind).exec (Op.run pid) ρ.fs = (body, fs)) {line : Text}
    (hl : encodeResponse (answered request body) = .ok line) :
    ∃ log, Reaches allow ρ ⟨fs.release pid, ρ.set pid ⟨.ok (.frame frame), clock, elapsed,
      ⟨.dispatching, .sent, none, .exited exitOk, utf8 line ++ [lineFeed], log⟩⟩⟩ := by
  have hspawn : Step allow ρ ⟨ρ.fs, ρ.set pid ⟨.ok (.frame frame), clock, elapsed, .start []⟩⟩ := .spawn _ _ _ hnone
  have hread : Step allow ⟨ρ.fs, ρ.set pid ⟨.ok (.frame frame), clock, elapsed, .start []⟩⟩
      ⟨ρ.fs, ρ.set pid ⟨.ok (.frame frame), clock, elapsed,
        ⟨.reading, .claiming request, none, .waiting, [], []⟩⟩⟩ := by
    have houtcome : (readOutcome (.ok (.frame frame)) : Worker Op.Res) = .claiming request := by
      simp only [readOutcome, hd]
    rw [← houtcome]
    exact .think_set ⟨_, .read trivial, rfl⟩ rfl fun h => absurd h (Hosted.not_working fun q p hw => by cases hw)
  have hclaim : Step allow ⟨ρ.fs, ρ.set pid ⟨.ok (.frame frame), clock, elapsed,
        ⟨.reading, .claiming request, none, .waiting, [], []⟩⟩⟩
      ⟨ρ.fs, ρ.set pid ⟨.ok (.frame frame), clock, elapsed,
        ⟨.dispatching, .executing request (executeRequest true clock request.kind), none, .waiting, [], []⟩⟩⟩ :=
    .think_set ⟨_, .claim trivial, rfl⟩ rfl fun h => absurd h (Hosted.not_working fun q p hw => by cases hw)
  have hwaiting : MainThread.waiting.Alive := trivial
  obtain ⟨log, hexec⟩ := reaches_exec hwaiting (executeRequest true clock request.kind) ρ.fs []
  rw [he] at hexec
  have hexecuted : Step allow ⟨fs, ρ.set pid ⟨.ok (.frame frame), clock, elapsed,
        ⟨.dispatching, .executing request (.ret body), none, .waiting, [], log⟩⟩⟩
      ⟨fs.release pid, ρ.set pid ⟨.ok (.frame frame), clock, elapsed,
        ⟨.dispatching, .finished (.ok (answered request body)), none, .waiting, [], log⟩⟩⟩ :=
    .leave_set ⟨_, .executed trivial, rfl⟩ rfl ⟨⟨request, _, rfl, hk⟩, trivial⟩ (Hosted.not_working fun q p hw => by cases hw)
  have hquiet : ∀ {h h' : Hosted} {files : Fs}, (∀ q p, h.child.worker ≠ .executing q p) → h.Step h' →
      h'.child.state = h.child.state → Step allow ⟨files, ρ.set pid h⟩ ⟨files, ρ.set pid h'⟩ :=
    fun hw hs hstate => .think_set hs hstate fun h => absurd h (Hosted.not_working hw)
  have hwrite : writeFrame (answered request body) = .writing ((utf8 line ++ [lineFeed]) ++ []) := by
    rw [writeFrame, hl, List.append_nil]
  have hreceive : Step allow ⟨fs.release pid, ρ.set pid ⟨.ok (.frame frame), clock, elapsed,
        ⟨.dispatching, .sent, some (.ok (answered request body)), .waiting, [], log⟩⟩⟩
      ⟨fs.release pid, ρ.set pid ⟨.ok (.frame frame), clock, elapsed,
        ⟨.dispatching, .sent, none, .writing ((utf8 line ++ [lineFeed]) ++ []), [], log⟩⟩⟩ := by
    rw [← hwrite]
    exact hquiet (fun q p hw => by cases hw) ⟨_, .receive, rfl⟩ rfl
  refine ⟨log, .head hspawn (.head hread (.head hclaim (hexec.trans (.head hexecuted ?_))))⟩
  refine .head (hquiet (fun q p hw => by cases hw) ⟨_, .send trivial, rfl⟩ rfl) (.head hreceive ?_)
  refine .head (hquiet (fun q p hw => by cases hw) ⟨_, .write, rfl⟩ rfl) ?_
  exact .single (hquiet (fun q p hw => by cases hw) ⟨_, .written, rfl⟩ rfl)

end

end

end Host

end Aizign
