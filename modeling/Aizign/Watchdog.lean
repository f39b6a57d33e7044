import Aizign.Framing
import Aizign.Respond
import Aizign.Prog
import Mathlib.Logic.Relation

/-!
# One child process

`aizign handle`: a worker thread reads the request, claims its dispatch and
executes it; the main thread waits for the worker's response or for the
timeout, and writes one frame. Both race for the dispatch gate, an atomic that
leaves `reading` once. Any step of either thread may come next, and the process
may be killed at any point.
-/

namespace Aizign

open ErrorCodes

variable [SerdeJson]

/-! ## The gate -/

inductive DispatchState
  | reading
  | dispatching
  | timedOut
  deriving DecidableEq

inductive TimeoutPhase
  | beforeDispatch
  | afterDispatch
  deriving DecidableEq

/-- `compare_exchange` from `Reading` to `Dispatching`. -/
def DispatchState.claimDispatch : DispatchState → Bool × DispatchState
  | .reading => (true, .dispatching)
  | .dispatching => (false, .dispatching)
  | .timedOut => (false, .timedOut)

/-- `compare_exchange` from `Reading` to `TimedOut`. -/
def DispatchState.claimTimeout : DispatchState → TimeoutPhase × DispatchState
  | .reading => (.beforeDispatch, .timedOut)
  | .timedOut => (.beforeDispatch, .timedOut)
  | .dispatching => (.afterDispatch, .dispatching)

/-! ## Responses that no request decides -/

def framingError (code : ShortErrorCode) (message : Text) : Response :=
  ⟨.currentBootstrap, none, none, .error ⟨code, message⟩⟩

def invalidStdin : Response :=
  framingError invalidEnvelope "stdin must be one non-empty body followed by LF and immediate EOF".toList

def oversizedStdin : Response :=
  framingError requestTooLarge ("request body exceeds ".toList ++ decimal maxRequestBytes ++ " bytes".toList)

def Child.timeoutResponse (elapsed : Nat) : TimeoutPhase → Response
  | .afterDispatch => ⟨.currentBootstrap, none, none, .error ⟨handlerTimeout,
      "processing exceeded ".toList ++ decimal elapsed ++ "ms after dispatch; the outcome is unknown".toList⟩⟩
  | .beforeDispatch => ⟨.currentBootstrap, none, none, .error ⟨handlerTimeout,
      "request framing exceeded ".toList ++ decimal elapsed ++ "ms before dispatch".toList⟩⟩

def answered (request : Request) (body : ResponseBody) : Response :=
  ⟨match request.kind with
    | .hello => .currentBootstrap
    | _ => .operation, some request.requestId, some request.kind.name, body⟩

/-! ## The process -/

def exitOk : Nat := 0
def exitIo : Nat := 3

section
variable {Op : Type} (Res : Op → Type)

inductive Worker
  | reading
  | claiming (request : Request)
  | executing (request : Request) (rest : Prog Res ResponseBody)
  /-- The outcome is there and has not been sent. -/
  | finished (outcome : Except Text Response)
  | sent
  | panicked

inductive MainThread
  | waiting
  /-- `recv_timeout` has returned `Timeout`. -/
  | claimingTimeout
  | writing (rest : Bytes)
  | exited (code : Nat)
  | killed

structure Child (σ : Type) where
  gate : DispatchState
  worker : Worker Res
  channel : Option (Except Text Response)
  main : MainThread
  stdout : Bytes
  state : σ

end

section
variable {Op : Type} {Res : Op → Type} {σ : Type}

def Child.start (state : σ) : Child Res σ := ⟨.reading, .reading, none, .waiting, [], state⟩

/-- The first half of `respond`: up to the gate. -/
def readOutcome : Except Text Stdin → Worker Res
  | .error e => .finished (.error e)
  | .ok .invalid => .finished (.ok invalidStdin)
  | .ok .tooLarge => .finished (.ok oversizedStdin)
  | .ok (.frame frame) =>
    match decodeRequest frame with
    | .error (.panic _) => .panicked
    | .error (.failure failure) => .finished (.ok (rejected failure))
    | .ok request => .claiming request

/-- `write_frame`: the bytes to write, or the exit. -/
def writeFrame (response : Response) : MainThread :=
  match encodeResponse response with
  | .ok line => .writing (utf8 line ++ [lineFeed])
  | .error _ => .exited exitIo

def claimedWorker (execute : RequestKind → Prog Res ResponseBody) (request : Request) (claimed : Bool) : Worker Res :=
  if claimed then .executing request (execute request.kind) else .finished (.ok timedOut)

def MainThread.Alive : MainThread → Prop
  | .exited _ | .killed => False
  | _ => True

variable (step : (o : Op) → σ → Res o → σ → Prop) (execute : RequestKind → Prog Res ResponseBody)
variable (elapsed : Nat) (stdin : Except Text Stdin)

inductive Child.Step : Child Res σ → Child Res σ → Prop
  | read {gate channel main stdout state} (alive : main.Alive) :
      Step ⟨gate, .reading, channel, main, stdout, state⟩ ⟨gate, readOutcome stdin, channel, main, stdout, state⟩
  | claim {gate request channel main stdout state} (alive : main.Alive) :
      Step ⟨gate, .claiming request, channel, main, stdout, state⟩
        ⟨gate.claimDispatch.2, claimedWorker execute request gate.claimDispatch.1, channel, main, stdout, state⟩
  | operation {gate request o k channel main stdout state r state'} (alive : main.Alive) (h : step o state r state') :
      Step ⟨gate, .executing request (.call o k), channel, main, stdout, state⟩
        ⟨gate, .executing request (k r), channel, main, stdout, state'⟩
  | executed {gate request body channel main stdout state} (alive : main.Alive) :
      Step ⟨gate, .executing request (.ret body), channel, main, stdout, state⟩
        ⟨gate, .finished (.ok (answered request body)), channel, main, stdout, state⟩
  | send {gate outcome channel main stdout state} (alive : main.Alive) :
      Step ⟨gate, .finished outcome, channel, main, stdout, state⟩ ⟨gate, .sent, some outcome, main, stdout, state⟩
  | receive {gate worker response stdout state} :
      Step ⟨gate, worker, some (.ok response), .waiting, stdout, state⟩
        ⟨gate, worker, none, writeFrame response, stdout, state⟩
  | receiveError {gate worker e stdout state} :
      Step ⟨gate, worker, some (.error e), .waiting, stdout, state⟩
        ⟨gate, worker, none, .exited exitIo, stdout, state⟩
  | disconnected {gate stdout state} :
      Step ⟨gate, .panicked, none, .waiting, stdout, state⟩ ⟨gate, .panicked, none, .exited exitIo, stdout, state⟩
  | timeout {gate worker channel stdout state} :
      Step ⟨gate, worker, channel, .waiting, stdout, state⟩ ⟨gate, worker, channel, .claimingTimeout, stdout, state⟩
  | claimTimeout {gate worker channel stdout state} :
      Step ⟨gate, worker, channel, .claimingTimeout, stdout, state⟩
        ⟨gate.claimTimeout.2, worker, channel, writeFrame (Child.timeoutResponse elapsed gate.claimTimeout.1), stdout, state⟩
  | write {gate worker channel chunk rest stdout state} :
      Step ⟨gate, worker, channel, .writing (chunk ++ rest), stdout, state⟩
        ⟨gate, worker, channel, .writing rest, stdout ++ chunk, state⟩
  | written {gate worker channel stdout state} :
      Step ⟨gate, worker, channel, .writing [], stdout, state⟩ ⟨gate, worker, channel, .exited exitOk, stdout, state⟩
  | writeError {gate worker channel rest stdout state} :
      Step ⟨gate, worker, channel, .writing rest, stdout, state⟩ ⟨gate, worker, channel, .exited exitIo, stdout, state⟩
  | kill {gate worker channel main stdout state} (alive : main.Alive) :
      Step ⟨gate, worker, channel, main, stdout, state⟩ ⟨gate, worker, channel, .killed, stdout, state⟩

def Child.Reaches : Child Res σ → Child Res σ → Prop :=
  Relation.ReflTransGen (Child.Step step execute elapsed stdin)

/-! ## What a response tells of the state -/

/-- Where a response of the process comes from, and what that says of the state: `start` is the state before. -/
inductive Origin (start : σ) (gate : DispatchState) (worker : Worker Res) (state : σ) : Response → Prop
  | invalid : stdin = .ok .invalid → state = start → Origin start gate worker state invalidStdin
  | tooLarge : stdin = .ok .tooLarge → state = start → Origin start gate worker state oversizedStdin
  | rejected {frame failure} : stdin = .ok (.frame frame) → decodeRequest frame = .error (.failure failure) →
      state = start → Origin start gate worker state (rejected failure)
  | late : gate = .timedOut → state = start → Origin start gate worker state timedOut
  | executed {frame request body} : stdin = .ok (.frame frame) → decodeRequest frame = .ok request →
      gate = .dispatching → Prog.Steps step (execute request.kind) start (.ret body) state →
      (∀ q p, worker ≠ .executing q p) → Origin start gate worker state (answered request body)
  | timeoutBefore : gate = .timedOut → state = start →
      Origin start gate worker state (Child.timeoutResponse elapsed .beforeDispatch)
  | timeoutAfter {frame request rest} : stdin = .ok (.frame frame) → decodeRequest frame = .ok request →
      gate = .dispatching → Prog.Steps step (execute request.kind) start rest state →
      Origin start gate worker state (Child.timeoutResponse elapsed .afterDispatch)

def Worker.Past : Worker Res → Prop
  | .finished _ | .sent => True
  | _ => False

/-- What has been executed, by the state of the gate: nothing before dispatch, a part of the one request after it. -/
inductive Executed (start : σ) : DispatchState → Worker Res → σ → Prop
  | nothing {gate worker state} : gate ≠ .dispatching → (∀ q p, worker ≠ .executing q p) →
      (∀ q, worker = .claiming q → ∃ frame, stdin = .ok (.frame frame) ∧ decodeRequest frame = .ok q) →
      state = start → Executed start gate worker state
  | part {frame request rest worker state} : stdin = .ok (.frame frame) → decodeRequest frame = .ok request →
      Prog.Steps step (execute request.kind) start rest state →
      (worker = .executing request rest ∨ (∃ body, rest = .ret body) ∧ worker.Past) →
      Executed start .dispatching worker state

/-- What has been written: nothing, or the beginning of the frame of one response. -/
inductive Printed (start : σ) (gate : DispatchState) (worker : Worker Res) (state : σ) : MainThread → Bytes → Prop
  | silent {main} : main ≠ .exited exitOk → (∀ rest, main ≠ .writing rest) → Printed start gate worker state main []
  | writing {response line rest stdout} : encodeResponse response = .ok line →
      stdout ++ rest = utf8 line ++ [lineFeed] →
      Origin step execute elapsed stdin start gate worker state response →
      Printed start gate worker state (.writing rest) stdout
  | stopped {response line rest stdout main} : encodeResponse response = .ok line →
      stdout ++ rest = utf8 line ++ [lineFeed] →
      Origin step execute elapsed stdin start gate worker state response →
      ¬main.Alive → (main = .exited exitOk → rest = []) → Printed start gate worker state main stdout

structure Child.Sound (start : σ) (c : Child Res σ) : Prop where
  executed : Executed step execute stdin start c.gate c.worker c.state
  finished : ∀ response, c.worker = .finished (.ok response) ∨ c.channel = some (.ok response) →
    Origin step execute elapsed stdin start c.gate c.worker c.state response
  printed : Printed step execute elapsed stdin start c.gate c.worker c.state c.main c.stdout

end

end Aizign
