import ScriptHost.Channel
import ScriptHost.Interpreter
import ScriptHost.Lifecycle
import ScriptHost.Queue

/-!
# One run: its worker, its channel and its pump

Every run has a thread of its own, the *worker*, and a *pump* on the
controller's side that forwards what the worker writes. Both go on in steps,
each of which is one indivisible operation on what they share: the token, the
phase, the channel, the queue of notifications and the world outside.

The worker announces the start, moves the phase, executes the script, reports
an error text, closes the interpreter, which lets the finalizers of the script
write behind it, lets go of the channel, waits until the pump has taken
everything, moves the phase to its end, announces the stop and ends. A line of
the script is first published and only then tested for a requested stop; no
line of a finalizer is shown.

`Stage` is how far the worker is, `Pump` how far the pump is, and `Drained`
what the pump has told the worker.
-/
namespace ScriptHost

/-- How far the worker of a run is. -/
inductive Stage (σ : Type) where
  /-- There is no worker: the run could not be launched. -/
  | absent
  | created
  | announced
  | executing (s : σ)
  /-- A line is stored, and the flag of the run is next. -/
  | lineStored (s : σ)
  /-- The flag was clear, and the marker is next. -/
  | lineMarked (s : σ)
  /-- The line is published, and the token is tested next. -/
  | testing (s : σ)
  /-- The script has failed, and its error text is written next. -/
  | reporting (s : σ) (failure : String)
  /-- The interpreter is closed: the finalizers of the script go on, and the outcome is settled. -/
  | finalizing (s : σ) (o : Outcome)
  /-- The channel is let go of next. -/
  | closing (o : Outcome)
  | draining (o : Outcome)
  | stopping (o : Outcome)
  | leaving (o : Outcome)
  /-- The stop is announced, and the thread ends next. -/
  | ending
  | gone
  deriving Inhabited

/-- The worker's thread has not ended. -/
def Stage.isAlive {σ : Type} : Stage σ → Bool
  | .absent | .gone => false
  | _ => true

/-- The worker has said everything it has to say. -/
def Stage.isMute {σ : Type} : Stage σ → Bool
  | .absent | .ending | .gone => true
  | _ => false

/-- How far the pump of a run is. -/
inductive Pump where
  | reading
  /-- A text was read and is sent next. -/
  | sending (text : String)
  /-- The end was read, and the worker is told next. -/
  | finishing
  | ended
  deriving DecidableEq, Repr, Inhabited

/-- What the worker hears about its output. -/
inductive Drained where
  | waiting
  /-- Everything has been forwarded. -/
  | signalled
  /-- Nobody will ever tell. -/
  | dropped
  deriving DecidableEq, Repr, Inhabited

/-- A run. -/
structure Run (σ : Type) where
  payload : Payload := {}
  chunkName : String := "script"
  /-- A stop was requested. -/
  token : Bool := false
  phase : Phase := .starting
  channel : Channel := {}
  stage : Stage σ := .created
  /-- The script was stopped at a line. -/
  tripped : Bool := false
  pump : Pump := .reading
  drained : Drained := .waiting
  deriving Inhabited

namespace Run

variable {ω σ : Type}

/-- What a step of the worker reads and writes beside its own run. -/
structure Shared (ω σ : Type) where
  run : Run σ
  queue : Queue
  world : ω

/-- The outcome of a script that has ended, and what the worker does next: an error text is written
before the interpreter is closed. -/
def afterScript (I : Interpreter ω σ) (s : σ) (tripped : Bool) (failure : Option String) : Stage σ :=
  if tripped then .finalizing (I.close s) .cancelled
  else match failure with
    | none => .finalizing (I.close s) .finished
    | some text => .reporting s text

/-- The worker with an interpreter at work. Mirrors `ExecutionHook.on_line` and the redirected
output, the end of `WorkerThread.run_chunk`. -/
def execute (I : Interpreter ω σ) (id : Nat) (s : σ) (x : Shared ω σ) : Shared ω σ :=
  let ⟨r, q, w⟩ := x
  match I.signal s with
  | .working | .waiting =>
    let (s, w) := I.work s w
    ⟨{ r with stage := .executing s }, q, w⟩
  | .line n =>
    if 0 ≤ n then ⟨{ r with stage := .lineStored s }, q.storeLine id (UInt32.ofNat n.toNat), w⟩
    else ⟨{ r with stage := .testing s }, q, w⟩
  | .write bytes =>
    match r.channel.write bytes with
    | .ok channel => ⟨{ r with channel, stage := .executing (I.answerWrite s none) }, q, w⟩
    | .error e => ⟨{ r with stage := .executing (I.answerWrite s (some e)) }, q, w⟩
  | .ended failure => ⟨{ r with stage := afterScript I s r.tripped failure }, q, w⟩

/-- The worker with an interpreter that is being closed. Lines of finalizers are not shown to the
hook, and how they end counts no more. Mirrors the drop of the interpreter in
`WorkerThread.execute`. -/
def finalize (I : Interpreter ω σ) (s : σ) (o : Outcome) (x : Shared ω σ) : Shared ω σ :=
  let ⟨r, q, w⟩ := x
  match I.signal s with
  | .working | .waiting =>
    let (s, w) := I.work s w
    ⟨{ r with stage := .finalizing s o }, q, w⟩
  | .line _ => ⟨{ r with stage := .finalizing (I.answerLine s false) o }, q, w⟩
  | .write bytes =>
    match r.channel.write bytes with
    | .ok channel => ⟨{ r with channel, stage := .finalizing (I.answerWrite s none) o }, q, w⟩
    | .error e => ⟨{ r with stage := .finalizing (I.answerWrite s (some e)) o }, q, w⟩
  | .ended _ => ⟨{ r with stage := .closing o }, q, w⟩

/-- The next step of the worker; while it waits for its output to be taken it does nothing. Mirrors
`WorkerThread.run` and `WorkerThread.execute`. -/
def workerStep (I : Interpreter ω σ) (id : Nat) (x : Shared ω σ) : Shared ω σ :=
  let ⟨r, q, w⟩ := x
  let stage := r.stage
  let r := { r with stage := .absent }
  match stage with
  | .absent => ⟨r, q, w⟩
  | .created => ⟨{ r with stage := .announced }, q.send id .started, w⟩
  | .announced =>
    ⟨{ r with stage := .executing (I.launch w r.payload r.chunkName), phase := r.phase.begin }, q, w⟩
  | .executing s => execute I id s ⟨r, q, w⟩
  | .lineStored s =>
    let (queued, q) := q.markQueued id
    ⟨{ r with stage := if queued then .testing s else .lineMarked s }, q, w⟩
  | .lineMarked s => ⟨{ r with stage := .testing s }, q.push (.line id), w⟩
  | .testing s =>
    ⟨{ r with stage := .executing (I.answerLine s r.token), tripped := r.tripped || r.token }, q, w⟩
  | .reporting s failure =>
    let channel := (r.channel.write (failure ++ "\n").toUTF8.toList).toOption.getD r.channel
    ⟨{ r with channel, stage := .finalizing (I.close s) .failed }, q, w⟩
  | .finalizing s o => finalize I s o ⟨r, q, w⟩
  | .closing o => ⟨{ r with channel := r.channel.closeWriter, stage := .draining o }, q, w⟩
  | .draining o => ⟨{ r with stage := if r.drained = .waiting then .draining o else .stopping o }, q, w⟩
  | .stopping o => ⟨{ r with phase := .stopped, stage := .leaving o }, q, w⟩
  | .leaving o => ⟨{ r with stage := .ending }, q.send id (.stopped o), w⟩
  | .ending => ⟨{ r with stage := .gone }, q, w⟩
  | .gone => ⟨{ r with stage := .gone }, q, w⟩

/-- The worker has waited long enough for its output to be taken. Mirrors the drain timeout of
`WorkerThread.run`. -/
def expire (r : Run σ) : Run σ :=
  match r.stage with
  | .draining o => { r with stage := .stopping o }
  | _ => r

/-- The next step of the pump; while it reads, `g` is what the system lets it see. Mirrors
`engine.pump_output`. -/
def pumpStep (g : Grant) (id : Nat) (r : Run σ) (q : Queue) : Run σ × Queue :=
  match r.pump with
  | .reading =>
    match r.channel.look g with
    | (.text t, channel) => ({ r with channel, pump := .sending t }, q)
    | (.eof, channel) => ({ r with channel, pump := .finishing }, q)
    | (.pending, channel) => ({ r with channel }, q)
  | .sending t => ({ r with pump := .reading }, q.send id (.output t))
  | .finishing =>
    ({ r with pump := .ended, drained := .signalled, channel := r.channel.closeReader }, q)
  | .ended => (r, q)

/-- A look at the channel has failed: the pump reads no more, and what it has collected is lost.
Mirrors a read error in `engine.pump_output`. -/
def failRead (r : Run σ) : Run σ :=
  match r.pump with
  | .reading => { r with pump := .finishing }
  | _ => r

/-- The pump is given up: what it has not forwarded is lost. -/
def abortPump (r : Run σ) : Run σ :=
  match r.pump with
  | .ended => r
  | _ => { r with
    pump := .ended, drained := if r.drained = .waiting then .dropped else r.drained
    channel := r.channel.closeReader }

/-- A run that never came to be. -/
def failed (p : Payload) (chunkName : String) : Run σ :=
  { payload := p, chunkName, phase := .stopped, stage := .absent, pump := .ended, drained := .dropped }

/-- The pump goes on, and is shown `g`; or the system fails it. -/
def pumpTurn (id : Nat) (y : Run σ × Queue) : Option Grant → Run σ × Queue
  | some g => y.1.pumpStep g id y.2
  | none => (y.1.failRead, y.2)

/-- The run has a channel and a pump, but no thread can be made for it. The pump takes the turns
`turns` until the write end is dropped and `late` behind that, and is given up; nothing is left of it
and of the channel. -/
def unthreaded (r : Run σ) (id : Nat) (q : Queue) (turns late : List (Option Grant)) :
    Run σ × Queue :=
  let (opened, q) := turns.foldl (pumpTurn id) (r, q)
  let (_, q) := late.foldl (pumpTurn id) ({ opened with channel := opened.channel.closeWriter }, q)
  (failed r.payload r.chunkName, q)

/-- The worker can do nothing unless somebody else does something before. -/
def isBlocked (I : Interpreter ω σ) (r : Run σ) : Bool :=
  match r.stage with
  | .absent | .gone => true
  | .executing s | .finalizing s _ =>
    match I.signal s with
    | .waiting => true
    | _ => false
  | .draining _ => r.drained = .waiting
  | _ => false

/-- The pump has nothing to do. -/
def isDry (r : Run σ) : Bool :=
  match r.pump with
  | .reading => r.channel.pieces.isEmpty && r.channel.writing
  | .ended => true
  | _ => false

end Run
end ScriptHost
