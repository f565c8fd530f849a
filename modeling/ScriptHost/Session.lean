import ScriptHost.Schedule
import ScriptHost.Script.Execution

/-!
# A controller's session

A controller gives commands to one engine and keeps a log of the events it has
been told. Line reports are not logged; the last one is remembered until the next
run begins. Commands that wait let the workers go on meanwhile.
-/
namespace ScriptHost

open Script (World Execution GateState)

structure Session where
  engine : Engine World Execution
  /-- The events told and not yet asked for, newest first. -/
  log : List Event := []
  lastLine : Option UInt32 := none
  /-- The output of the current run so far. -/
  output : String := ""

namespace Session

/-- What the controller is asked to do. -/
inductive Command where
  | setScript (source : ByteArray)
  | setSearchDirs (dirs : List String)
  | start (l : Launch)
  | stop
  | shutdown
  | isRunning
  | phase
  | leaked
  | settings
  | payload
  /-- Waits until the output of the current run contains a text. -/
  | waitOutput (text : String)
  | waitStopped
  /-- Takes what is queued. -/
  | drain
  /-- Gives the engine up, as a shutdown does. -/
  | release
  /-- Takes events until nobody can send any. -/
  | waitEnd
  /-- Opens the other side of a gate once the script has opened its own. -/
  | openGate (name : String)
  | closeGate (name : String)
  | writeFile (name : String) (content : ByteArray)

/-- What the controller answers. -/
inductive Answer where
  | done
  | failed (f : Failure)
  | flag (b : Bool)
  | phase (p : Phase)
  | count (n : Nat)
  | settings (s : Settings)
  | payload (p : Payload)
  | events (log : List Event)
  /-- The log, and the last line of the run. -/
  | course (log : List Event) (lastLine : Option UInt32)
  | closed (log : List Event)

/-! ## Taking events -/

/-- Notes an event. -/
def record (s : Session) (e : Event) : Session :=
  match e with
  | .started => { s with log := e :: s.log, lastLine := none, output := "" }
  | .currentLine n => { s with lastLine := some n }
  | .output t => { s with log := e :: s.log, output := s.output ++ t }
  | .stopped _ => { s with log := e :: s.log }

/-- Takes one event if there is one. -/
def take (s : Session) : Option Event × Session :=
  match s.engine.queue.receive with
  | (some e, queue) => (some e, { s with engine := { s.engine with queue } }.record e)
  | (none, queue) => (none, { s with engine := { s.engine with queue } })

/-- Lets a round pass; tells whether there is any use in waiting on. -/
def pass (s : Session) : Bool × Session :=
  let rested := s.engine.isResting Script.interpreter
  let e := s.engine.round Script.interpreter
  (!(rested && e.isResting Script.interpreter), { s with engine := e })

/-- Takes events until one satisfies a condition. -/
def takeUntil (found : Session → Event → Bool) : Nat → Session → Session
  | 0, s => s
  | n + 1, s =>
    match s.take with
    | (some e, s) => if found s e then s else takeUntil found n s
    | (none, s) =>
      let (more, s) := s.pass
      if more then takeUntil found n s else s.take.2

/-- Takes the events that are queued. -/
def takeQueued (s : Session) : Session :=
  let (events, queue) := s.engine.queue.drain
  events.foldl record { s with engine := { s.engine with queue } }

/-- The log, neighbouring outputs joined; it is empty afterwards. -/
def readLog (s : Session) : List Event × Session := (Event.merge s.log.reverse, { s with log := [] })

/-! ## Commands -/

def outcome (s : Session) (r : Except Failure Unit × Engine World Execution) : Answer × Session :=
  (match r.1 with
    | .ok () => .done
    | .error f => .failed f, { s with engine := r.2 })

/-- Changes the world outside. -/
def modifyWorld (s : Session) (f : World → World) : Session :=
  { s with engine := { s.engine with world := f s.engine.world } }

def isStop : Event → Bool
  | .stopped _ => true
  | _ => false

/-- `text` occurs in the output of the current run. -/
def hasOutput (s : Session) (text : String) : Bool := text.isEmpty || 1 < (s.output.splitOn text).length

/-- Does what it is asked to; waits last at most `fuel` rounds. -/
def perform (fuel : Nat) (s : Session) (c : Command) : Answer × Session :=
  match c with
  | .setScript source => s.outcome (s.engine.setScript source)
  | .setSearchDirs dirs => s.outcome (s.engine.setSearchDirs dirs)
  | .start l =>
    let (a, next) := s.outcome (s.engine.startAfter Script.interpreter l)
    (a, if next.engine.runs.size = s.engine.runs.size then next else { next with output := "" })
  | .stop => (.done, { s with engine := s.engine.stop })
  | .shutdown => s.outcome (s.engine.shutdown Script.interpreter)
  | .isRunning => (.flag s.engine.isRunning, s)
  | .phase => (.phase s.engine.phase, s)
  | .leaked => (.count s.engine.leaked, s)
  | .settings => (.settings s.engine.settings, s)
  | .payload => (.payload s.engine.payload, s)
  | .waitOutput text =>
    let s := if s.hasOutput text then s
      else s.takeUntil (fun s e => isStop e || s.hasOutput text) fuel
    (.flag (s.hasOutput text), s)
  | .waitStopped =>
    let s := s.takeUntil (fun _ e => isStop e) fuel
    let (log, s) := s.readLog
    (.course log s.lastLine, s)
  | .drain =>
    let (log, s) := s.takeQueued.readLog
    (.events log, s)
  | .release => (.done, { s with engine := (s.engine.shutdown Script.interpreter).2 })
  | .waitEnd =>
    let (log, s) := (s.takeUntil (fun _ _ => false) fuel).readLog
    (.closed log, s)
  | .openGate name =>
    let s := s.modifyWorld (·.setGate name .held)
    (.done, { s with engine := s.engine.passUntil Script.interpreter (fun _ => false) Engine.longestWait })
  | .closeGate name => (.done, s.modifyWorld (·.setGate name .released))
  | .writeFile name content => (.done, s.modifyWorld fun w => { w with files := w.files.add name content })

end Session
end ScriptHost
