import ScriptHost.Failure
import ScriptHost.Run
import ScriptHost.Settings

/-!
# The engine

A controller owns an engine, starts runs and stops them; at most one run is
current. The operations here are what the controller does at one moment. Those
that wait for a worker come in two parts: what is done before, and what is done
when the wait is over, which depends on whether the worker has ended by then.

`Engine.step` is what everybody else does meanwhile: the worker and the pump of
every run ever started, those that were abandoned included.
-/
namespace ScriptHost

/-- Whose phase the engine shows. -/
inductive Shown where
  /-- Nothing was ever started. -/
  | nothing
  | run (id : Nat)
  /-- The run before was abandoned, and its phase is of no interest. -/
  | over
  deriving DecidableEq, Repr, Inhabited

/-- How the system answers a launch. Mirrors `Launcher`. -/
inductive Launch where
  | works
  /-- The channel cannot be opened. -/
  | noChannel (cause : SystemError)
  /-- The thread cannot be made. By then the channel is open, and its pump takes turns, some before
  the write end is dropped and some behind that. -/
  | noThread (cause : SystemError) (turns late : List (Option Grant) := [])
  deriving DecidableEq, Repr, Inhabited

structure Engine (ω σ : Type) where
  settings : Settings := {}
  payload : Payload := {}
  queue : Queue := {}
  /-- All runs, by the number of their slot in the queue. -/
  runs : Array (Run σ) := #[]
  /-- The run whose worker the engine holds. -/
  current : Option Nat := none
  shown : Shown := .nothing
  /-- Number of abandoned workers. -/
  leaked : Nat := 0
  world : ω

/-- Who makes a step beside the controller. -/
inductive Actor where
  | worker (run : Nat)
  /-- The patience of a worker that waits for its output to be taken. -/
  | patience (run : Nat)
  /-- A pump, and what the system lets it see if it reads. -/
  | pump (run : Nat) (g : Grant)
  /-- The system fails a pump that reads. -/
  | fault (run : Nat)
  deriving DecidableEq, Repr

namespace Engine

variable {ω σ : Type}

/-! ## Looking at it -/

def run (e : Engine ω σ) (id : Nat) : Run σ := e.runs[id]?.getD {}

/-- The worker of a run has not ended. Mirrors `WorkerHandle.is_alive`. -/
def isAlive (e : Engine ω σ) (id : Nat) : Bool :=
  match e.runs[id]? with
  | some r => r.stage.isAlive
  | none => false

/-- The phase of the current or most recent run. Mirrors `ScriptEngine.state`. -/
def phase (e : Engine ω σ) : Phase :=
  match e.shown with
  | .nothing => .idle
  | .over => .stopped
  | .run id => ((e.runs[id]?).map (·.phase)).getD .stopped

/-- A worker is alive and has not announced its end. Mirrors `ScriptEngine.is_running`. -/
def isRunning (e : Engine ω σ) : Bool :=
  match e.current with
  | some id => e.isAlive id && decide (e.phase ≠ .stopped)
  | none => false

/-! ## Everybody else -/

/-- Changes a run. -/
def modifyRun (e : Engine ω σ) (id : Nat) (f : Run σ → Run σ) : Engine ω σ :=
  { e with runs := e.runs.modify id f }

/-- The next step of a worker or a pump. The run is taken out of the array meanwhile, so that its
script is not copied. -/
def step (I : Interpreter ω σ) (e : Engine ω σ) (a : Actor) : Engine ω σ :=
  let ⟨settings, payload, queue, runs, current, shown, leaked, world⟩ := e
  match a with
  | .worker id =>
    match runs[id]? with
    | some r =>
      let runs := runs.setIfInBounds id {}
      let ⟨r, queue, world⟩ := Run.workerStep I id ⟨r, queue, world⟩
      ⟨settings, payload, queue, runs.setIfInBounds id r, current, shown, leaked, world⟩
    | none => ⟨settings, payload, queue, runs, current, shown, leaked, world⟩
  | .patience id =>
    ⟨settings, payload, queue, runs.modify id Run.expire, current, shown, leaked, world⟩
  | .pump id g =>
    match runs[id]? with
    | some r =>
      let runs := runs.setIfInBounds id {}
      let (r, queue) := r.pumpStep g id queue
      ⟨settings, payload, queue, runs.setIfInBounds id r, current, shown, leaked, world⟩
    | none => ⟨settings, payload, queue, runs, current, shown, leaked, world⟩
  | .fault id =>
    ⟨settings, payload, queue, runs.modify id Run.failRead, current, shown, leaked, world⟩

/-! ## The controller -/

/-- Refuses an action while a script is running. Mirrors `ScriptEngine.ensure_idle`. -/
def ensureIdle (e : Engine ω σ) (action : String) : Except Failure Unit :=
  if e.isRunning then .error (.invalidOperation s!"cannot {action} while a script is running") else .ok ()

/-- Replaces the source of the script. Mirrors `ScriptEngine.set_script`. -/
def setScript (e : Engine ω σ) (source : ByteArray) : Except Failure Unit × Engine ω σ :=
  match e.ensureIdle "set the script" with
  | .ok () => (.ok (), { e with payload := { e.payload with source } })
  | .error f => (.error f, e)

/-- Replaces the directories in which modules are searched. Mirrors
`ScriptEngine.set_search_dirs`. -/
def setSearchDirs (e : Engine ω σ) (dirs : List String) : Except Failure Unit × Engine ω σ :=
  match e.ensureIdle "change search directories" with
  | .ok () => (.ok (), { e with payload := { e.payload with searchDirs := dirs } })
  | .error f => (.error f, e)

/-- Sets the token of a run. Mirrors `CancellationToken.cancel`. -/
def cancel (e : Engine ω σ) (id : Nat) : Engine ω σ := e.modifyRun id ({ · with token := true })

/-- Shows that a stop was requested. -/
def showRequest (e : Engine ω σ) (id : Nat) : Engine ω σ :=
  e.modifyRun id fun r => { r with phase := r.phase.requestStop }

/-- Requests a stop at the next line. Mirrors `ScriptEngine.stop`. -/
def stop (e : Engine ω σ) : Engine ω σ :=
  if e.isRunning then
    match e.current with
    | some id => (e.cancel id).showRequest id
    | none => e
  else e

/-- Disowns a run: nothing it has sent or still sends is seen, and its phase is of no interest. -/
def silence (e : Engine ω σ) (id : Nat) : Engine ω σ :=
  { e with queue := e.queue.abandon id, leaked := e.leaked + 1, shown := .over }

/-- Gives up the pump of a run. -/
def abortPump (e : Engine ω σ) (id : Nat) : Engine ω σ := e.modifyRun id Run.abortPump

/-- Gives up a worker that has not ended in time: it stays cancelled, and nothing it still does is
seen. Mirrors `ScriptEngine.abandon`. -/
def abandon (e : Engine ω σ) (id : Nat) : Failure × Engine ω σ :=
  (.joinTimeout e.settings.joinTimeout, ((e.cancel id).silence id).abortPump id)

/-- Takes the worker out of the engine. -/
def takeWorker (e : Engine ω σ) : Option Nat × Engine ω σ := (e.current, { e with current := none })

/-- The wait for a worker is over. Mirrors `ScriptEngine.finish` and `WorkerHandle.join`. -/
def finish (e : Engine ω σ) (id : Nat) : Except Failure Unit × Engine ω σ :=
  if e.isAlive id then
    let (f, e) := e.abandon id
    (.error f, e)
  else (.ok (), e)

/-- Waits no longer for the worker it still holds, if it holds one. Mirrors the first part of
`ScriptEngine.start`, and `ScriptEngine.shutdown_blocking` behind its stop. -/
def finishCurrent (e : Engine ω σ) : Except Failure Unit × Engine ω σ :=
  let (worker, e) := e.takeWorker
  match worker with
  | some id => e.finish id
  | none => (.ok (), e)

/-- A launch has failed: the run ends before it begins. Mirrors `ScriptEngine.fail_start`. -/
def failLaunch (e : Engine ω σ) (o : Outcome) (f : Failure) : Except Failure Unit × Engine ω σ :=
  let (id, queue) := e.queue.openRun
  (.error f, { e with
    queue := queue.send id (.stopped o), shown := .run id
    runs := e.runs.push (Run.failed e.payload e.settings.chunkName) })

/-- A launch that has opened the channel and set its pump going, but gets no thread. Mirrors the
failure branch of `WorkerHandle.spawn` in `ScriptEngine.start`. -/
def failThread (e : Engine ω σ) (f : Failure) (turns late : List (Option Grant)) :
    Except Failure Unit × Engine ω σ :=
  let (id, queue) := e.queue.openRun
  let run : Run σ := { payload := e.payload, chunkName := e.settings.chunkName }
  let (run, queue) := run.unthreaded id queue turns late
  (.error f, { e with
    queue := queue.send id (.stopped .spawnFailure), shown := .run id, runs := e.runs.push run })

/-- Launches a run of the present payload. Mirrors `ScriptEngine.start` from the channel on. -/
def launch (e : Engine ω σ) (l : Launch) : Except Failure Unit × Engine ω σ :=
  match l with
  | .noChannel cause => e.failLaunch .channelFailure (.channel cause)
  | .noThread cause turns late => e.failThread (.spawn cause) turns late
  | .works =>
    let (id, queue) := e.queue.openRun
    (.ok (), { e with
      queue, current := some id, shown := .run id
      runs := e.runs.push { payload := e.payload, chunkName := e.settings.chunkName } })

/-- Starts a run; while one is running it does nothing. The worker of the run before, if the engine
still holds it, has been waited for. Mirrors `ScriptEngine.start`. -/
def start (e : Engine ω σ) (l : Launch) : Except Failure Unit × Engine ω σ :=
  if e.isRunning then (.ok (), e)
  else
    match e.finishCurrent with
    | (.ok (), e) => e.launch l
    | (.error f, e) => (.error f, e)

/-- Begins a shutdown: requests a stop and takes the worker out. Its wait is ended by `finish`; one
that is given up before leaves the worker to itself. Mirrors the beginning of
`ScriptEngine.shutdown`. -/
def beginShutdown (e : Engine ω σ) : Option Nat × Engine ω σ := e.stop.takeWorker

end Engine
end ScriptHost
