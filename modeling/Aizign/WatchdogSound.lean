import Aizign.Watchdog

/-!
# Every interleaving of one child process

The invariant of `Watchdog`, kept by every step: nothing is executed unless the
worker won the gate, at most one frame is written, and the frame that is written
is true of the state at every later moment.
-/

namespace Aizign

open ErrorCodes

variable [SerdeJson]

section
variable {Op : Type} {Res : Op → Type} {σ : Type}
variable {step : (o : Op) → σ → Res o → σ → Prop} {execute : RequestKind → Prog Res ResponseBody}
variable {elapsed : Nat} {stdin : Except Text Stdin} {start : σ}

/-! ## Origins under the steps -/

theorem Origin.idle {gate : DispatchState} {worker worker' : Worker Res} {state : σ} {r : Response}
    (h : Origin step execute elapsed stdin start gate worker state r) (hw : ∀ q p, worker' ≠ .executing q p) :
    Origin step execute elapsed stdin start gate worker' state r := by
  cases h with
  | invalid hs he => exact .invalid hs he
  | tooLarge hs he => exact .tooLarge hs he
  | rejected hs hd he => exact .rejected hs hd he
  | late hg he => exact .late hg he
  | executed hs hd hg hst _ => exact .executed hs hd hg hst hw
  | timeoutBefore hg he => exact .timeoutBefore hg he
  | timeoutAfter hs hd hg hst => exact .timeoutAfter hs hd hg hst

theorem Origin.expire {worker : Worker Res} {state : σ} {r : Response}
    (h : Origin step execute elapsed stdin start .reading worker state r) :
    Origin step execute elapsed stdin start .timedOut worker state r := by
  cases h with
  | invalid hs he => exact .invalid hs he
  | tooLarge hs he => exact .tooLarge hs he
  | rejected hs hd he => exact .rejected hs hd he
  | late hg he => cases hg
  | executed hs hd hg hst _ => cases hg
  | timeoutBefore hg he => cases hg
  | timeoutAfter hs hd hg hst => cases hg

/-- Before the worker has claimed, no response speaks of a state that the request could still change. -/
theorem Origin.not_claiming {request : Request} {state : σ} {r : Response}
    (he : Executed step execute stdin start .reading (.claiming request) state)
    (h : Origin step execute elapsed stdin start .reading (.claiming request) state r) : False := by
  cases he with
  | nothing _ _ hclaim _ =>
    obtain ⟨frame, hs, hd⟩ := hclaim request rfl
    cases h with
    | invalid hs' _ => rw [hs] at hs'; cases hs'
    | tooLarge hs' _ => rw [hs] at hs'; cases hs'
    | rejected hs' hd' _ =>
      rw [hs] at hs'
      cases hs'
      rw [hd] at hd'
      cases hd'
    | late hg _ => cases hg
    | executed _ _ hg _ _ => cases hg
    | timeoutBefore hg _ => cases hg
    | timeoutAfter _ _ hg _ => cases hg

/-- While the request is executed, only a late timeout may have been answered; it stays true. -/
theorem Origin.operation {gate : DispatchState} {request : Request} {o : Op} {k : Res o → Prog Res ResponseBody}
    {state state' : σ} {a : Res o} {r : Response}
    (he : Executed step execute stdin start gate (.executing request (.call o k)) state) (hstep : step o state a state')
    (h : Origin step execute elapsed stdin start gate (.executing request (.call o k)) state r) :
    Origin step execute elapsed stdin start gate (.executing request (k a)) state' r := by
  cases he with
  | nothing _ hw _ _ => exact absurd rfl (hw _ _)
  | part hs hd hst hw =>
    obtain hw | ⟨-, hw⟩ := hw
    · cases hw
      cases h with
      | invalid hs' _ => rw [hs] at hs'; cases hs'
      | tooLarge hs' _ => rw [hs] at hs'; cases hs'
      | rejected hs' hd' _ =>
        rw [hs] at hs'
        cases hs'
        rw [hd] at hd'
        cases hd'
      | late hg _ => cases hg
      | executed _ _ _ _ hw => exact absurd rfl (hw _ _)
      | timeoutBefore hg _ => cases hg
      | timeoutAfter _ _ hg _ => exact .timeoutAfter hs hd hg (hst.trans (.head hstep .refl))
    · exact absurd hw id

theorem Printed.mono {gate gate' : DispatchState} {worker worker' : Worker Res} {state state' : σ} {main : MainThread}
    {stdout : Bytes} (h : Printed step execute elapsed stdin start gate worker state main stdout)
    (ho : ∀ r, Origin step execute elapsed stdin start gate worker state r →
      Origin step execute elapsed stdin start gate' worker' state' r) :
    Printed step execute elapsed stdin start gate' worker' state' main stdout := by
  cases h with
  | silent hm hw => exact .silent hm hw
  | writing he hl hr => exact .writing he hl (ho _ hr)
  | stopped he hl hr hd hm => exact .stopped he hl (ho _ hr) hd hm

/-- A process that ends keeps what it has written. -/
theorem Printed.stop {gate : DispatchState} {worker : Worker Res} {state : σ} {main main' : MainThread} {stdout : Bytes}
    (h : Printed step execute elapsed stdin start gate worker state main stdout) (hm : main' ≠ .exited exitOk)
    (hd : ¬main'.Alive) : Printed step execute elapsed stdin start gate worker state main' stdout := by
  cases h with
  | silent _ _ =>
    refine .silent hm fun rest hw => ?_
    subst hw
    exact hd trivial
  | writing he hl hr => exact .stopped he hl hr hd fun h => absurd h hm
  | stopped he hl hr _ _ => exact .stopped he hl hr hd fun h => absurd h hm

theorem printed_writeFrame {gate : DispatchState} {worker : Worker Res} {state : σ} {r : Response}
    (h : Origin step execute elapsed stdin start gate worker state r) :
    Printed step execute elapsed stdin start gate worker state (writeFrame r) [] := by
  unfold writeFrame
  cases he : encodeResponse r with
  | ok line => exact .writing he rfl h
  | error e => exact .silent (by simp [exitIo, exitOk]) (fun _ h => by cases h)

/-- Until the main thread has something to write, nothing is written. -/
theorem Printed.nothing {gate : DispatchState} {worker : Worker Res} {state : σ} {main : MainThread} {stdout : Bytes}
    (h : Printed step execute elapsed stdin start gate worker state main stdout)
    (hm : main = .waiting ∨ main = .claimingTimeout) : stdout = [] := by
  cases h with
  | silent _ _ => rfl
  | writing _ _ _ => rcases hm with hm | hm <;> cases hm
  | stopped _ _ _ hd _ =>
    have : main.Alive := by rcases hm with rfl | rfl <;> trivial
    exact absurd this hd

/-! ## The invariant -/

theorem Child.sound_start : Child.Sound step execute elapsed stdin start (Child.start start) where
  executed := .nothing (by simp [Child.start]) (fun _ _ h => by cases h) (fun _ h => by cases h) rfl
  finished response h := by rcases h with h | h <;> cases h
  printed := .silent (fun h => by cases h) (fun _ h => by cases h)

theorem readOutcome_idle (q : Request) (p : Prog Res ResponseBody) : (readOutcome stdin : Worker Res) ≠ .executing q p := by
  unfold readOutcome
  repeat'
    split
  all_goals
    intro h
    cases h

theorem readOutcome_claiming {q : Request} (h : (readOutcome stdin : Worker Res) = .claiming q) :
    ∃ frame, stdin = .ok (.frame frame) ∧ decodeRequest frame = .ok q := by
  unfold readOutcome at h
  split at h
  · cases h
  · cases h
  · cases h
  · rename_i frame
    split at h
    · cases h
    · cases h
    · rename_i hd
      cases h
      exact ⟨frame, rfl, hd⟩

theorem readOutcome_finished {gate : DispatchState} {worker : Worker Res} {r : Response}
    (h : (readOutcome stdin : Worker Res) = .finished (.ok r)) :
    Origin step execute elapsed stdin start gate worker start r := by
  unfold readOutcome at h
  split at h
  · cases h
  · cases h
    exact .invalid rfl rfl
  · cases h
    exact .tooLarge rfl rfl
  · split at h
    · cases h
    · rename_i hd
      cases h
      exact .rejected rfl hd rfl
    · cases h

/-- Nothing is executed until the worker is past its claim. -/
theorem Executed.before {gate : DispatchState} {worker : Worker Res} {state : σ}
    (h : Executed step execute stdin start gate worker state) (hw : ∀ q p, worker ≠ .executing q p)
    (hp : ¬worker.Past) : gate ≠ .dispatching ∧ state = start := by
  cases h with
  | nothing hg _ _ hs => exact ⟨hg, hs⟩
  | part _ _ _ hp' =>
    rcases hp' with hp' | ⟨-, hp'⟩
    · exact absurd hp' (hw _ _)
    · exact absurd hp' hp

theorem Executed.expire {worker : Worker Res} {state : σ}
    (h : Executed step execute stdin start .reading worker state) :
    Executed step execute stdin start .timedOut worker state := by
  cases h with
  | nothing _ hw hc hs => exact .nothing (fun h => by cases h) hw hc hs

theorem Executed.claimed {gate : DispatchState} {request : Request} {state : σ}
    (h : Executed step execute stdin start gate (.claiming request) state) :
    ∃ frame, stdin = .ok (.frame frame) ∧ decodeRequest frame = .ok request := by
  cases h with
  | nothing _ _ hc _ => exact hc request rfl
  | part _ _ _ hw =>
    rcases hw with hw | ⟨-, hw⟩
    · cases hw
    · exact absurd hw id

theorem Executed.running {gate : DispatchState} {request : Request} {rest : Prog Res ResponseBody} {state : σ}
    (h : Executed step execute stdin start gate (.executing request rest) state) :
    ∃ frame, gate = .dispatching ∧ stdin = .ok (.frame frame) ∧ decodeRequest frame = .ok request ∧
      Prog.Steps step (execute request.kind) start rest state := by
  cases h with
  | nothing _ hw _ _ => exact absurd rfl (hw _ _)
  | part hin hd hst hw =>
    rcases hw with hw | ⟨-, hw⟩
    · cases hw
      exact ⟨_, rfl, hin, hd, hst⟩
    · exact absurd hw id

theorem Executed.dispatched {worker : Worker Res} {state : σ}
    (h : Executed step execute stdin start .dispatching worker state) :
    ∃ frame request rest, stdin = .ok (.frame frame) ∧ decodeRequest frame = .ok request ∧
      Prog.Steps step (execute request.kind) start rest state := by
  cases h with
  | nothing hg _ _ _ => exact absurd rfl hg
  | part hin hd hst _ => exact ⟨_, _, _, hin, hd, hst⟩

theorem Executed.unclaimed {gate : DispatchState} {worker : Worker Res} {state : σ}
    (h : Executed step execute stdin start gate worker state) (hg : gate ≠ .dispatching) : state = start := by
  cases h with
  | nothing _ _ _ hs => exact hs
  | part _ _ _ _ => exact absurd rfl hg

theorem Executed.sent {gate : DispatchState} {outcome : Except Text Response} {state : σ}
    (h : Executed step execute stdin start gate (.finished outcome) state) :
    Executed step execute stdin start gate .sent state := by
  cases h with
  | nothing hg _ _ hs => exact .nothing hg (fun _ _ h => by cases h) (fun _ h => by cases h) hs
  | part hin hd hst hw =>
    rcases hw with hw | ⟨hb, -⟩
    · cases hw
    · exact .part hin hd hst (.inr ⟨hb, trivial⟩)

theorem Child.Sound.preserved {c c' : Child Res σ} (h : c.Sound step execute elapsed stdin start)
    (hs : Child.Step step execute elapsed stdin c c') : c'.Sound step execute elapsed stdin start := by
  obtain ⟨hx, hf, hp⟩ := h
  cases hs with
  | @read gate channel main stdout state alive =>
    obtain ⟨hg, rfl⟩ := hx.before (fun _ _ h => by cases h) id
    refine ⟨.nothing hg readOutcome_idle (fun q hq => readOutcome_claiming hq) rfl, ?_, ?_⟩
    · intro response hr
      rcases hr with hr | hr
      · exact readOutcome_finished hr
      · exact (hf response (.inr hr)).idle readOutcome_idle
    · exact hp.mono fun r hr => hr.idle readOutcome_idle
  | @claim gate request channel main stdout state alive =>
    obtain ⟨hg, rfl⟩ := hx.before (fun _ _ h => by cases h) id
    cases gate with
    | dispatching => exact absurd rfl hg
    | reading =>
      have hnone : ∀ r, ¬Origin step execute elapsed stdin state .reading (.claiming request) state r :=
        fun r hr => hr.not_claiming hx
      obtain ⟨frame, hin, hd⟩ := hx.claimed
      refine ⟨.part hin hd .refl (.inl rfl), ?_, hp.mono fun r hr => absurd hr (hnone r)⟩
      intro r hr
      rcases hr with hr | hr
      · cases hr
      · exact absurd (hf r (.inr hr)) (hnone r)
    | timedOut =>
      have hidle : ∀ q p, (.finished (.ok timedOut) : Worker Res) ≠ .executing q p := fun _ _ h => by cases h
      refine ⟨.nothing hg hidle (fun _ h => by cases h) rfl, ?_, hp.mono fun r hr => hr.idle hidle⟩
      intro r hr
      rcases hr with hr | hr
      · cases hr
        exact .late rfl rfl
      · exact (hf r (.inr hr)).idle hidle
  | @operation gate request o k channel main stdout state r state' alive hstep =>
    obtain ⟨frame, rfl, hin, hd, hst⟩ := hx.running
    refine ⟨.part hin hd (hst.trans (.head hstep .refl)) (.inl rfl), ?_, hp.mono fun r hr => hr.operation hx hstep⟩
    intro r hr
    rcases hr with hr | hr
    · cases hr
    · exact (hf r (.inr hr)).operation hx hstep
  | @executed gate request body channel main stdout state alive =>
    obtain ⟨frame, rfl, hin, hd, hst⟩ := hx.running
    have hidle : ∀ q p, (.finished (.ok (answered request body)) : Worker Res) ≠ .executing q p :=
      fun _ _ h => by cases h
    refine ⟨.part hin hd hst (.inr ⟨⟨body, rfl⟩, trivial⟩), ?_, hp.mono fun r hr => hr.idle hidle⟩
    intro r hr
    rcases hr with hr | hr
    · cases hr
      exact .executed hin hd rfl hst hidle
    · exact (hf r (.inr hr)).idle hidle
  | @send gate outcome channel main stdout state alive =>
    have hidle : ∀ q p, (.sent : Worker Res) ≠ .executing q p := fun _ _ h => by cases h
    refine ⟨hx.sent, ?_, hp.mono fun r hr => hr.idle hidle⟩
    intro r hr
    rcases hr with hr | hr
    · cases hr
    · cases hr
      exact (hf r (.inl rfl)).idle hidle
  | @receive gate worker response stdout state =>
    have hnil : stdout = [] := hp.nothing (.inl rfl)
    subst hnil
    refine ⟨hx, ?_, printed_writeFrame (hf response (.inr rfl))⟩
    intro r hr
    rcases hr with hr | hr
    · exact hf r (.inl hr)
    · cases hr
  | @receiveError gate worker e stdout state =>
    refine ⟨hx, ?_, hp.stop (by simp [exitIo, exitOk]) id⟩
    intro r hr
    rcases hr with hr | hr
    · exact hf r (.inl hr)
    · cases hr
  | @disconnected gate stdout state => exact ⟨hx, hf, hp.stop (by simp [exitIo, exitOk]) id⟩
  | @timeout gate worker channel stdout state =>
    have hnil : stdout = [] := hp.nothing (.inl rfl)
    subst hnil
    exact ⟨hx, hf, .silent (fun h => by cases h) (fun _ h => by cases h)⟩
  | @claimTimeout gate worker channel stdout state =>
    have hnil : stdout = [] := hp.nothing (.inr rfl)
    subst hnil
    cases gate with
    | reading =>
      refine ⟨hx.expire, fun r hr => (hf r hr).expire, printed_writeFrame ?_⟩
      exact .timeoutBefore rfl (hx.unclaimed fun h => by cases h)
    | timedOut =>
      refine ⟨hx, hf, printed_writeFrame ?_⟩
      exact .timeoutBefore rfl (hx.unclaimed fun h => by cases h)
    | dispatching =>
      obtain ⟨frame, request, rest, hin, hd, hst⟩ := hx.dispatched
      exact ⟨hx, hf, printed_writeFrame (.timeoutAfter hin hd rfl hst)⟩
  | @write gate worker channel chunk rest stdout state =>
    refine ⟨hx, hf, ?_⟩
    cases hp with
    | silent _ hw => exact absurd rfl (hw _)
    | writing he hl hr => exact .writing he (by rw [List.append_assoc, hl]) hr
    | stopped _ _ _ hd _ => exact absurd trivial hd
  | @written gate worker channel stdout state =>
    refine ⟨hx, hf, ?_⟩
    cases hp with
    | silent _ hw => exact absurd rfl (hw _)
    | writing he hl hr => exact .stopped he hl hr id fun _ => rfl
    | stopped _ _ _ hd _ => exact absurd trivial hd
  | @writeError gate worker channel rest stdout state => exact ⟨hx, hf, hp.stop (by simp [exitIo, exitOk]) id⟩
  | @kill gate worker channel main stdout state alive => exact ⟨hx, hf, hp.stop (fun h => by cases h) id⟩

theorem Child.Sound.reaches {c c' : Child Res σ} (h : c.Sound step execute elapsed stdin start)
    (hr : Child.Reaches step execute elapsed stdin c c') : c'.Sound step execute elapsed stdin start := by
  induction hr with
  | refl => exact h
  | tail _ hs ih => exact ih.preserved hs

/-- The watchdog's claim is final. -/
theorem Child.Step.timedOut {c c' : Child Res σ} (h : Child.Step step execute elapsed stdin c c')
    (hg : c.gate = .timedOut) : c'.gate = .timedOut := by
  cases h with
  | claim alive =>
    replace hg : _ = DispatchState.timedOut := hg
    subst hg
    rfl
  | claimTimeout =>
    replace hg : _ = DispatchState.timedOut := hg
    subst hg
    rfl
  | _ => exact hg

theorem Child.Reaches.timedOut {c c' : Child Res σ} (h : Child.Reaches step execute elapsed stdin c c')
    (hg : c.gate = .timedOut) : c'.gate = .timedOut := by
  induction h with
  | refl => exact hg
  | tail _ hs ih => exact hs.timedOut ih

/-! ## Runs to the end -/

theorem Child.reaches_exec {run : (o : Op) → σ → Res o × σ} (hrun : ∀ o s, step o s (run o s).1 (run o s).2)
    {gate : DispatchState} {request : Request} {channel : Option (Except Text Response)} {main : MainThread}
    {stdout : Bytes} (alive : main.Alive) (p : Prog Res ResponseBody) (state : σ) :
    Child.Reaches step execute elapsed stdin ⟨gate, .executing request p, channel, main, stdout, state⟩
      ⟨gate, .executing request (.ret (p.exec run state).1), channel, main, stdout, (p.exec run state).2⟩ := by
  induction p generalizing state with
  | ret body => exact .refl
  | call o k ih => exact .head (.operation alive (hrun o state)) (ih _ _)

theorem Child.reaches_executed {run : (o : Op) → σ → Res o × σ} (hrun : ∀ o s, step o s (run o s).1 (run o s).2)
    {frame : Bytes} {request : Request} (hd : decodeRequest frame = .ok request) {body : ResponseBody} {state : σ}
    (he : (execute request.kind).exec run start = (body, state)) :
    Child.Reaches step execute elapsed (.ok (.frame frame)) (.start start)
      ⟨.dispatching, .executing request (.ret body), none, .waiting, [], state⟩ := by
  have hread : (readOutcome (.ok (.frame frame)) : Worker Res) = .claiming request := by
    simp only [readOutcome, hd]
  have hwaiting : MainThread.waiting.Alive := trivial
  have hexec : Child.Reaches step execute elapsed (.ok (.frame frame))
      ⟨.dispatching, .executing request (execute request.kind), none, .waiting, [], start⟩ _ :=
    Child.reaches_exec hrun hwaiting (execute request.kind) start
  rw [he] at hexec
  refine .head (.read trivial) ?_
  rw [hread]
  exact .head (.claim trivial) hexec

/-- The response is sent, received and written in two parts. -/
theorem Child.reaches_written {gate : DispatchState} {request : Request} {body : ResponseBody} {state : σ}
    {line : Text} (hl : encodeResponse (answered request body) = .ok line) :
    Child.Reaches step execute elapsed stdin ⟨gate, .executing request (.ret body), none, .waiting, [], state⟩
      ⟨gate, .sent, none, .exited exitOk, utf8 line ++ [lineFeed], state⟩ := by
  have hwrite : writeFrame (answered request body) = .writing (utf8 line ++ ([lineFeed] ++ [])) := by
    rw [writeFrame, hl, List.append_nil]
  refine .head (.executed trivial) (.head (.send trivial) (.head .receive ?_))
  rw [hwrite]
  exact .head .write (.head .write (.head .written .refl))

theorem Child.reaches_timeout {worker : Worker Res} {channel : Option (Except Text Response)} {state : σ} {line : Text}
    (hl : encodeResponse (Child.timeoutResponse elapsed .afterDispatch) = .ok line) :
    Child.Reaches step execute elapsed stdin ⟨.dispatching, worker, channel, .waiting, [], state⟩
      ⟨.dispatching, worker, channel, .exited exitOk, utf8 line ++ [lineFeed], state⟩ := by
  have hwrite : writeFrame (Child.timeoutResponse elapsed .afterDispatch) =
      .writing (utf8 line ++ ([lineFeed] ++ [])) := by
    rw [writeFrame, hl, List.append_nil]
  refine .head .timeout (.head .claimTimeout ?_)
  show Child.Reaches step execute elapsed stdin
    ⟨.dispatching, worker, channel, writeFrame (Child.timeoutResponse elapsed .afterDispatch), [], state⟩ _
  rw [hwrite]
  exact .head .write (.head .write (.head .written .refl))

/-- Over every interleaving of the two threads and every point at which the process dies: what is on stdout is the
beginning of one frame, all of it when the process exits with 0, and the response in that frame is true of the state
now; nothing is executed unless the worker won the gate, and then only the request that was read; once the watchdog won
it, nothing ever is. -/
theorem child_interleavings_sound {c : Child Res σ} (h : Child.Reaches step execute elapsed stdin (.start start) c) :
    (c.stdout = [] ∧ c.main ≠ .exited exitOk ∨
      ∃ response line, encodeResponse response = .ok line ∧ c.stdout <+: utf8 line ++ [lineFeed] ∧
        (c.main = .exited exitOk → c.stdout = utf8 line ++ [lineFeed]) ∧
        Origin step execute elapsed stdin start c.gate c.worker c.state response) ∧
    (c.gate ≠ .dispatching → c.state = start) ∧
    (c.gate = .dispatching → ∃ frame request rest, stdin = .ok (.frame frame) ∧ decodeRequest frame = .ok request ∧
      Prog.Steps step (execute request.kind) start rest c.state) ∧
    (c.gate = .timedOut → ∀ c', Child.Reaches step execute elapsed stdin c c' → c'.gate = .timedOut ∧ c'.state = start) := by
  have hsound := Child.sound_start.reaches h
  refine ⟨?_, hsound.executed.unclaimed, ?_, ?_⟩
  · have hp := hsound.printed
    generalize c.main = main at hp ⊢
    generalize c.stdout = stdout at hp ⊢
    cases hp with
    | silent hm _ => exact .inl ⟨rfl, hm⟩
    | writing he hl ho => exact .inr ⟨_, _, he, ⟨_, hl⟩, (fun h => by cases h), ho⟩
    | stopped he hl ho _ hm =>
      refine .inr ⟨_, _, he, ⟨_, hl⟩, fun h => ?_, ho⟩
      rw [hm h, List.append_nil] at hl
      exact hl
  · intro hg
    have hx := hsound.executed
    rw [hg] at hx
    exact hx.dispatched
  · intro hg c' hr
    have hg' := hr.timedOut hg
    exact ⟨hg', (hsound.reaches hr).executed.unclaimed (by rw [hg']; decide)⟩

end

end Aizign
