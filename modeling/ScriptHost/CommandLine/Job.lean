import ScriptHost.CommandLine.Arguments
import ScriptHost.Console
import ScriptHost.Log
import ScriptHost.Schedule
import ScriptHost.Script.World
import ScriptHost.SearchPath
import ScriptHost.Shutdown

/-!
# A command under way

A job is a command with its engine. It advances in rounds, prints the events
as they come, and hears of interrupts and of changes of the script it watches.

A job that runs a script once *follows* the run: it takes one event after the
other up to the stop, and prints no more behind it. Then it *closes*: it waits
for the worker and ends with the exit code of the outcome. A job that watches a
script follows on after every stop, and when it closes it prints what is still
queued. When the script changes it *restarts*: it waits for the worker of the run
before, prints what that run still had queued, and only then announces and
launches the next one.
-/
namespace ScriptHost.CommandLine

open Script (World)

/-- Something shown to the user. -/
inductive Piece where
  | out (bytes : ByteArray)
  | err (bytes : ByteArray)
  | record (r : Log.Record)

/-- How the program ends. -/
inductive Ending where
  | code (n : Nat)
  /-- It breaks down. -/
  | broken (message : String)
  deriving DecidableEq, Repr

/-- What a job does at present. -/
inductive Task where
  /-- It prints events as they come. -/
  | following
  /-- It waits for a worker until a deadline and then ends with a code. -/
  | closing (run : Nat) (deadline : Instant) (code : Nat)
  /-- It waits for a worker until a deadline and then launches the next run. -/
  | restarting (run : Nat) (deadline : Instant)
  | ended (e : Ending)
  deriving DecidableEq, Repr

/-- The script that a job watches. -/
structure Watched where
  path : String
  /-- The screen is cleared before each run. -/
  clear : Bool
  deriving DecidableEq, Repr

/-- Why a command cannot go on. -/
inductive Trouble where
  | scriptMissing (script : String)
  | unreadable (path : String) (cause : SystemError)
  | timeoutUnfit (s : Seconds) (why : Seconds.Unfit)
  | engine (f : Failure)

def Trouble.message : Trouble → String
  | .scriptMissing s => "Script not found: " ++ s
  | .unreadable p e => "Failed to read " ++ p ++ ": " ++ e.text
  | .timeoutUnfit s why => "Invalid join timeout: " ++ s.text ++ ": " ++ why.message
  | .engine f => f.message

/-- The message, with a hint where the engine has one. -/
def Trouble.withHint : Trouble → String
  | .engine f => f.withHint
  | t => t.message

structure Job (σ : Type) where
  engine : Engine World σ
  mode : Console.Mode
  filter : Log.Filter
  /-- None for a command that runs its script once. -/
  watched : Option Watched := none
  /-- There was an interrupt. -/
  interrupted : Bool := false
  /-- Changes of the watched script that are not yet dealt with. -/
  changes : Nat := 0
  task : Task := .following
  /-- What was shown, newest first. -/
  shown : List Piece := []

namespace Job

variable {σ : Type}

/-! ## Showing -/

def put (j : Job σ) (s : Piece) : Job σ := { j with shown := s :: j.shown }

/-- Writes to the two streams. -/
def write (j : Job σ) (w : Console.Written) : Job σ :=
  let j := if w.out.isEmpty then j else j.put (.out w.out.toUTF8)
  if w.err.isEmpty then j else j.put (.err w.err.toUTF8)

/-- A line on standard error. -/
def note (j : Job σ) (text : String) : Job σ := j.write (Console.note text)

/-- Writes to the log what the filter keeps. -/
def log (j : Job σ) (r : Log.Record) : Job σ := if j.filter.keeps r then j.put (.record r) else j

/-- Prints events. Mirrors `EventPrinter.print`. -/
def print (j : Job σ) (events : List Event) : Job σ :=
  events.foldl (fun j e => j.write (Console.render j.mode e)) j

def isJson (j : Job σ) : Bool := j.mode = .json

/-- The sequence that clears a terminal. Mirrors `watch.clear_terminal`. -/
def clearScreen : String := "\x1b[2J\x1b[1;1H"

/-- A line that begins with a coloured word. -/
def remark (colour word text : String) : String := Console.paint colour word ++ " " ++ text

/-- Takes the next event, if one is queued, and prints it. -/
def takeEvent (j : Job σ) : Option Event × Job σ :=
  let (event, queue) := j.engine.queue.receive
  (event, { j with engine := { j.engine with queue } }.print event.toList)

/-- Takes the queued events and prints them. -/
def takeEvents (j : Job σ) : List Event × Job σ :=
  let (events, queue) := j.engine.queue.drain
  (events, { j with engine := { j.engine with queue } }.print events)

/-! ## Ending -/

/-- Shows what the scripts have written past their runs. -/
def collect (j : Job σ) : Job σ :=
  let w := j.engine.world
  let j := { j with engine := { j.engine with world := { w with out := .empty, err := .empty } } }
  let j := if w.out.isEmpty then j else j.put (.out w.out)
  if w.err.isEmpty then j else j.put (.err w.err)

/-- Ends; what is held back of standard output is written last. -/
def finish (j : Job σ) (e : Ending) : Job σ :=
  { j with
    engine := { j.engine with world := j.engine.world.flush }
    task := .ended e }.collect

/-- The exit code of a command that fails. -/
def troubleCode : Nat := 2

/-- Ends with an error. -/
def fail (j : Job σ) (t : Trouble) : Job σ :=
  (j.note (remark Console.red "Error:" t.withHint)).finish (.code troubleCode)

/-- The end, once it has come. -/
def ending? (j : Job σ) : Option Ending :=
  match j.task with
  | .ended e => some e
  | _ => none

/-! ## Runs -/

/-- Requests a stop, and says so if there is a run to be stopped. -/
def logStop (j : Job σ) : Job σ := if j.engine.isRunning then j.log Log.stopRequested else j

/-- Logs that a worker was abandoned. -/
def logLeak (j : Job σ) : Job σ :=
  j.log (Log.abandoned j.engine.settings.joinTimeout j.engine.leaked)

/-- Launches a run. -/
def launch (I : Interpreter World σ) (j : Job σ) : Except Trouble Unit × Job σ :=
  match j.engine.startAfter I .works with
  | (.ok (), engine) => (.ok (), { j with engine }.log Log.spawned)
  | (.error f, engine) => (.error (.engine f), { j with engine }.logLeak)

/-- Reads a script. -/
def load (j : Job σ) (path : String) : Except Trouble Unit × Job σ :=
  match j.engine.world.files.read path with
  | .error e => (.error (.unreadable path e), j)
  | .ok source =>
    match j.engine.setScript source with
    | (.ok (), engine) => (.ok (), { j with engine })
    | (.error f, engine) => (.error (.engine f), { j with engine })

/-- Reads a script and launches it. Mirrors `watch.load_and_start`. -/
def loadAndLaunch (I : Interpreter World σ) (j : Job σ) (path : String) : Except Trouble Unit × Job σ :=
  match j.load path with
  | (.ok (), j) => j.launch I
  | (.error t, j) => (.error t, j)

/-- Launches the changed script; what the run before still had queued comes first. Mirrors the
second part of `watch.restart`. -/
def relaunch (I : Interpreter World σ) (j : Job σ) (w : Watched) : Job σ :=
  let j := { j.takeEvents.2 with task := .following }
  let j := if j.isJson then j.log ⟨.debug, .watching, "file changed, re-running"⟩
    else
      let j := if w.clear then j.write { out := clearScreen } else j
      j.note (Console.paint Console.yellow "File changed, re-running...")
  match j.loadAndLaunch I w.path with
  | (.ok (), j) => j
  | (.error t, j) => j.note (remark Console.red "Error:" t.message)

/-- The fault of a clock that cannot tell a deadline. -/
def overflowText : String := "overflow when adding duration to instant"

/-- Ends with a code. A command that watches a script prints what is still queued, one that ran it
once prints nothing behind the stop. Mirrors the ends of `run.execute` and `watch.execute`. -/
def leave (j : Job σ) (code : Nat) : Job σ :=
  match j.watched with
  | none => j.finish (.code code)
  | some _ => j.takeEvents.2.finish (.code code)

/-- Stops the run and ends, with a code, when its worker has ended. -/
def close (j : Job σ) (now : Instant) (code : Nat) : Job σ :=
  let j := j.logStop
  match j.engine.shutdownAt now with
  | (.nothing, engine) => { j with engine }.leave code
  | (.worker id deadline, engine) => { j with engine, task := .closing id deadline code }
  | (.overflow, engine) => { j with engine }.finish (.broken overflowText)

/-- The watched script is there and has changed. Mirrors the first part of `watch.restart`. -/
def restart (I : Interpreter World σ) (j : Job σ) (now : Instant) (w : Watched) : Job σ :=
  if j.engine.isRunning then
    let j := j.logStop
    match j.engine.shutdownAt now with
    | (.nothing, engine) => { j with engine }.relaunch I w
    | (.worker id deadline, engine) => { j with engine, task := .restarting id deadline }
    | (.overflow, engine) => { j with engine }.finish (.broken overflowText)
  else j.relaunch I w

/-- Deals with a change of the watched script. -/
def change (I : Interpreter World σ) (j : Job σ) (now : Instant) (w : Watched) : Job σ :=
  if j.engine.world.files.hasEntry w.path then j.restart I now w
  else j.note ("\n" ++ remark Console.yellow "Warning:" ("Script file removed: " ++ w.path))

/-! ## Going on -/

/-- Everybody makes a step. -/
def round (I : Interpreter World σ) (j : Job σ) : Job σ :=
  let engine := j.engine
  let j : Job σ := { j with engine := { world := {} } }
  let left := engine.runs.map fun r => Log.shape r.stage
  let engine := engine.round I
  let records := (left.toList.zip engine.runs.toList).flatMap fun (s, r) => Log.ofStep s r
  records.foldl log { j with engine }

/-- A command that runs its script once takes one event after the other, so many at most, and closes
with the first stop. Mirrors the loop of `run.execute`. -/
def follow (now : Instant) : Nat → Job σ → Job σ
  | 0, j => j
  | n + 1, j =>
    match j.takeEvent with
    | (none, j) => j
    | (some (.stopped o), j) => j.close now o.exitCode
    | (some _, j) => follow now n j

/-- A command that watches a script prints what has come, and deals with a change. Mirrors the loop of
`watch.execute`. -/
def watch (I : Interpreter World σ) (j : Job σ) (now : Instant) (w : Watched) : Job σ :=
  let j := j.takeEvents.2
  if j.changes = 0 then j else { j with changes := j.changes - 1 }.change I now w

/-- What the job does at present. -/
def perform (I : Interpreter World σ) (j : Job σ) (now : Instant) : Job σ :=
  match j.task with
  | .following =>
    match j.watched with
    | none => j.follow now j.engine.queue.toList.length
    | some w => j.watch I now w
  | .closing id deadline code =>
    match j.engine.poll id deadline now with
    | (none, engine) => { j with engine }
    | (some (.ok ()), engine) => { j with engine }.leave code
    | (some (.error f), engine) => ({ j with engine }.logLeak).fail (.engine f)
  | .restarting id deadline =>
    match j.engine.poll id deadline now, j.watched with
    | (some (.ok ()), engine), some w => { j with engine }.relaunch I w
    | (some (.error f), engine), some w =>
      let j : Job σ := { j with engine }
      (j.logLeak.note (remark Console.yellow "Warning:" f.withHint)).relaunch I w
    | (_, engine), _ => { j with engine }
  | .ended _ => j

/-- Lets everybody make a step, and then deals with what has come of it. -/
def advance (I : Interpreter World σ) (j : Job σ) (now : Instant) : Job σ :=
  match j.task with
  | .ended _ => j
  | _ =>
    let j := (j.round I).collect
    match j.engine.world.exit with
    | some code => j.finish (.code (code % 256).toNat)
    | none => j.perform I now

/-- Nothing will change unless something happens outside. -/
def isResting (I : Interpreter World σ) (j : Job σ) : Bool := j.engine.isResting I

/-! ## What happens outside -/

/-- The exit code after a second interrupt. -/
def interruptCode : Nat := 130

/-- The user wants the command to end. A command that runs a script once asks it to stop, and the
second time ends at once. Nobody listens while a worker is waited for. -/
def interrupt (j : Job σ) (now : Instant) : Job σ :=
  match j.task, j.watched with
  | .following, none =>
    if j.interrupted then j.finish (.code interruptCode)
    else
      let j := if j.isJson then j
        else j.note ("\n" ++ Console.paint Console.yellow "Stopping... (Ctrl+C again to exit)")
      let j := j.logStop
      { j with interrupted := true, engine := j.engine.stop }
  | .following, some _ => j.close now 0
  | _, _ => j

/-- Names of script files end so. -/
def scriptExtension : List Char := ".lua".toList

/-- The name of a file is that of a script: an ending behind at least one character. -/
def isScriptName (path : String) : Bool :=
  match Path.fileName? path.toList with
  | some n => scriptExtension.length < n.length && scriptExtension.isSuffixOf n
  | none => false

/-- A file has changed, was made or was taken away. Mirrors `FileWatcher.recv`. -/
def noteChange (j : Job σ) (path : String) : Job σ :=
  match j.watched with
  | some w => if w.path = path && isScriptName path then { j with changes := j.changes + 1 } else j
  | none => j

/-! ## Beginning -/

/-- What stands above the output of a command that watches. Mirrors `watch.print_header`. -/
def header (path : String) : Console.Written :=
  let name := String.ofList ((Path.fileName? path.toList).getD [])
  Console.note ("\n" ++ Console.paint Console.bold "Lunar Watch" ++ " - " ++
      Console.paint Console.cyan name) ++
    Console.note (String.ofList (List.replicate 50 '─')) ++
    Console.note (Console.paint Console.dim "Watching for changes... (Ctrl+C to stop)") ++
    Console.note ""

/-- The directories in which a script's modules are searched. Mirrors `run.search_dirs`. -/
def searchDirs (w : World) (script : String) (included : List String) : List String :=
  SearchPath.directories script included
    ((w.environment.find? (·.1 = SearchPath.variableName)).map (·.2.toUTF8.toList))

/-- The join timeout that the command line asks for. -/
def settingsFor (joinTimeout : Option Seconds) : Except Trouble Settings :=
  match joinTimeout with
  | none => .ok {}
  | some s =>
    match s.duration with
    | .ok d => .ok { joinTimeout := d }
    | .error why => .error (.timeoutUnfit s why)

/-- Begins to run a script once. Mirrors the beginning of `run.execute`. -/
def beginRun (I : Interpreter World σ) (j : Job σ) (script : String) (included : List String)
    (joinTimeout : Option Seconds) : Job σ :=
  let world := j.engine.world
  if !world.files.hasEntry script then j.fail (.scriptMissing script)
  else match j.load script with
    | (.error t, j) => j.fail t
    | (.ok (), j) =>
      match settingsFor joinTimeout with
      | .error t => j.fail t
      | .ok settings =>
        let engine := { j.engine with settings }
        let engine := (engine.setSearchDirs (searchDirs world script included)).2
        let j : Job σ := { j with engine }
        let j := j.log ⟨.debug, .running, "search path: " ++ engine.payload.pathPrefix⟩
        match j.launch I with
        | (.ok (), j) => j
        | (.error t, j) => j.fail t

/-- Begins to watch a script. Mirrors the beginning of `watch.execute`. -/
def beginWatch (I : Interpreter World σ) (j : Job σ) (script : String) (included : List String)
    (clear : Bool) : Job σ :=
  let world := j.engine.world
  if !world.files.hasEntry script then j.fail (.scriptMissing script)
  else
    let path := world.files.absolute script
    let j := if j.isJson then j else j.write (header path)
    let engine := (j.engine.setSearchDirs (searchDirs world path included)).2
    let j := { j with engine, watched := some ⟨path, clear⟩ }
    let j := if clear && !j.isJson then j.write { out := clearScreen } else j
    match j.loadAndLaunch I path with
    | (.ok (), j) => j
    | (.error t, j) => j.fail t

/-- Name of the environment variable with rules of the log. -/
def logVariable : String := "RUST_LOG"

/-- The filter of the log. -/
def filterFor (w : World) (verbose : Bool) : Log.Filter :=
  let rules := ((w.environment.find? (·.1 = logVariable)).map (Log.Filter.read ·.2)).getD []
  rules.withDefault (if verbose then .debug else .warn)

/-- Begins a command. Mirrors `main`. -/
def start (I : Interpreter World σ) (inv : Invocation) (w : World) : Job σ :=
  let job (mode : Console.Mode) : Job σ :=
    { engine := { world := w }, mode, filter := filterFor w inv.verbose }
  match inv.command with
  | .run script included json lines timeout =>
    (job (if json then .json else .text lines)).beginRun I script included timeout
  | .watch script included json clear =>
    (job (if json then .json else .text false)).beginWatch I script included clear

end Job
end ScriptHost.CommandLine
