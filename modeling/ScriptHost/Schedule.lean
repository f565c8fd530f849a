import ScriptHost.Engine

/-!
# A schedule

One of the many orders in which workers and pumps may go on: in rounds, in
which everybody makes a step. Whoever waits for something lets rounds pass until
it has come about, until nobody can do anything any more, or until a time is up.
A time is measured in rounds.
-/
namespace ScriptHost.Engine

variable {ω σ : Type}

/-- Number of bytes that a pump has not yet taken. -/
def available (e : Engine ω σ) (id : Nat) : Nat :=
  match e.runs[id]? with
  | some r => r.channel.buffer.length
  | none => 0

/-- The pump of a run is in the middle of a read. -/
def isCollecting (e : Engine ω σ) (id : Nat) : Bool :=
  match e.runs[id]? with
  | some r => !r.channel.reader.collected.isEmpty
  | none => false

/-- A worker goes on; one that is to wait no time for its output waits no round. -/
def turnWorker (I : Interpreter ω σ) (e : Engine ω σ) (id : Nat) : Engine ω σ :=
  let e := e.step I (.worker id)
  if e.settings.drainTimeout.nanos = 0 then e.step I (.patience id) else e

/-- The most bytes that a pump takes in one round. -/
def longestLook : Nat := 4096

/-- A pump goes on; a read ends when everything that has arrived was taken. -/
def turnPump (I : Interpreter ω σ) (e : Engine ω σ) (id : Nat) : Engine ω σ :=
  let e := e.step I (.pump id (.upTo (min (e.available id) longestLook)))
  if e.isCollecting id && e.available id = 0 then e.step I (.pump id (.upTo 0)) else e

/-- Everybody goes on. -/
def round (I : Interpreter ω σ) (e : Engine ω σ) : Engine ω σ :=
  e.runs.size.fold (fun id _ (e : Engine ω σ) => (e.turnWorker I id).turnPump I id) e

/-- Nobody can do anything unless the controller or the world does something before. -/
def isResting (I : Interpreter ω σ) (e : Engine ω σ) : Bool :=
  e.runs.all fun r => r.isBlocked I && r.isDry

/-- Lets at most so many rounds pass until a condition holds. -/
def passUntil (I : Interpreter ω σ) (done : Engine ω σ → Bool) : Nat → Engine ω σ → Engine ω σ
  | 0, e => e
  | n + 1, e =>
    if done e then e
    else
      let rested := e.isResting I
      let e := e.round I
      if rested && e.isResting I then e else passUntil I done n e

/-- Number of rounds in a millisecond, and in the longest wait. -/
def roundsPerMilli : Nat := 50
def longestWait : Nat := 5000

/-- The number of rounds that a wait lasts. -/
def patience (d : Duration) : Nat := min (d.millis * roundsPerMilli) longestWait

/-- Waits for the end of a worker. -/
def awaitWorker (I : Interpreter ω σ) (e : Engine ω σ) (id : Nat) : Engine ω σ :=
  e.passUntil I (fun e => !e.isAlive id) (patience e.settings.joinTimeout)

/-- Stops the current run and waits for its worker; one that does not end in time is abandoned. -/
def shutdown (I : Interpreter ω σ) (e : Engine ω σ) : Except Failure Unit × Engine ω σ :=
  match e.beginShutdown with
  | (some id, e) => (e.awaitWorker I id).finish id
  | (none, e) => (.ok (), e)

/-- Starts a run once the worker of the run before has ended. -/
def startAfter (I : Interpreter ω σ) (e : Engine ω σ) (l : Launch) : Except Failure Unit × Engine ω σ :=
  if e.isRunning then e.start l
  else
    match e.current with
    | some id => (e.awaitWorker I id).start l
    | none => e.start l

/-- Lets only the worker of one run go on, up to its end. Where nobody tells it that its output was
taken, its patience ends. -/
def runAlone (I : Interpreter ω σ) (id : Nat) : Nat → Engine ω σ → Engine ω σ
  | 0, e => e
  | n + 1, e =>
    if e.isAlive id then runAlone I id n ((e.step I (.worker id)).step I (.patience id)) else e

end ScriptHost.Engine
