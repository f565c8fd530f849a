import ScriptHost.CommandLine.Help
import ScriptHost.CommandLine.Job
import ScriptHost.Script.Execution
import Std.Async.Signal

/-!
# The program

The outer layer of the command line: it lets the job advance, looks up the files
and variables that scripts ask for, writes back the files they change, feeds
standard input, hears the interrupts, and looks from time to time whether the
watched script is still the same.
-/
namespace ScriptHost.Program

open CommandLine
open Script (Entry Execution Files Route World interpreter)

/-! ## The disk -/

/-- What is at a path. -/
def lookAt (path : String) : IO (Option Entry) := do
  try
    return some (.file (← IO.FS.readBinFile path))
  catch
    | .inappropriateType .. => return some .directory
    | _ => return none

/-- Learns what is at a path. -/
def learn (fs : Files) (path : String) : IO Files := do
  match ← lookAt path with
  | some (.file b) => return fs.add path b
  | some _ => return fs.add (path ++ "/") .empty
  | none => return fs.forget path

/-- Learns what is at a path and above it. -/
def learnAround (fs : Files) (path : String) : IO Files := do
  match Path.parent? path.toList with
  | some (c :: r) => learn (← learn fs (String.ofList (c :: r))) path
  | _ => learn fs path

/-- A route as a path. -/
def pathOf : Route → String
  | "/" :: names => "/" ++ "/".intercalate names
  | names => "/".intercalate names

/-- Writes back what scripts have changed. -/
def writeBack (fs : Files) : IO Files := do
  for r in fs.changed do
    match fs.entry? r with
    | some (.file b) => try IO.FS.writeBinFile (pathOf r) b catch _ => pure ()
    | some _ => pure ()
    | none => try IO.FS.removeFile (pathOf r) catch _ => pure ()
  return { fs with changed := [] }

/-! ## The world -/

/-- Looks up what a script asks for. -/
def lookUp (w : World) : IO World := do
  match w.wanted with
  | none => return w
  | some x =>
    let w := w.noteLooked x
    match x with
    | .path p => return { w with files := ← learnAround w.files p }
    | .variable name =>
      match ← IO.getEnv name with
      | some v => return { w with environment := (name, v) :: w.environment }
      | none => return w

/-- The world before the command begins. -/
def initialWorld (script : String) : IO World := do
  let mut w : World := {
    files := .inside (← IO.currentDir).toString, complete := false, stdinOpen := true }
  for name in [SearchPath.variableName, Job.logVariable] ++ Script.Library.readVariables do
    w ← lookUp { w with wanted := some (.variable name) }
  lookUp { w with wanted := some (.path script) }

/-- Input that is on its way. -/
abbrev Reader := Task (Except IO.Error ByteArray)

/-- Takes the input that has arrived, and asks for more when a script waits for it. -/
def feed (w : World) (reader : Option Reader) : IO (World × Option Reader) := do
  match reader with
  | some t =>
    if ← IO.hasFinished t then
      match t.get with
      | .ok b =>
        if b.isEmpty then return ({ w with stdinOpen := false }, none)
        else return ({ w with stdin := w.stdin ++ b }, none)
      | .error _ => return ({ w with stdinOpen := false }, none)
    else return (w, reader)
  | none =>
    if w.wantsInput && w.stdinOpen then
      let stdin ← IO.getStdin
      return (w, some (← IO.asTask (stdin.read 4096) Task.Priority.dedicated))
    else return (w, none)

/-! ## The command -/

/-- Shows what a job has shown since it was last asked. -/
def display (shown : List Piece) : IO Unit := do
  let out ← IO.getStdout
  let err ← IO.getStderr
  for s in shown.reverse do
    match s with
    | .out b => out.write b; out.flush
    | .err b => err.write b; err.flush
    | .record r => err.putStr r.written; err.flush

/-- Milliseconds between two looks at the watched script. -/
def watchPause : Nat := 200

/-- What the outer layer keeps between two rounds. -/
structure Watch where
  reader : Option Reader := none
  /-- When the watched script is looked at next. -/
  nextLook : Nat := 0

/-- Looks whether the watched script is still the same. -/
def lookAgain (j : Job Execution) (now : Nat) (w : Watch) : IO (Job Execution × Watch) := do
  match j.watched with
  | none => return (j, w)
  | some watched =>
    if now < w.nextLook then return (j, w)
    else
      let w := { w with nextLook := now + watchPause * 1000000 }
      let files := j.engine.world.files
      let new ← learn files watched.path
      let same := match files.read watched.path, new.read watched.path with
        | .ok a, .ok b => a == b
        | .error a, .error b => a == b
        | _, _ => false
      if same then return (j, w)
      else
        let j := { j with engine := { j.engine with world := { j.engine.world with files := new } } }
        return (j.noteChange watched.path, w)

/-- Lets the job advance until it ends. -/
partial def attend (j : Job Execution) (w : Watch)
    (interrupts : Std.Async.Signal.Waiter) (interrupt : Std.Async.AsyncTask Int) : IO Ending := do
  display j.shown
  let j := { j with shown := [] }
  match j.ending? with
  | some e => return e
  | none =>
    let now ← IO.monoNanosNow
    let heard ← IO.hasFinished interrupt
    let interrupt ← if heard then interrupts.wait else pure interrupt
    let j := if heard then j.interrupt ⟨now⟩ else j
    let (j, w) ← lookAgain j now w
    let j := j.advance interpreter ⟨now⟩
    let world ← lookUp j.engine.world
    let (world, reader) ← feed world w.reader
    let world := { world with files := ← writeBack world.files }
    let j := { j with engine := { j.engine with world } }
    if j.isResting interpreter then IO.sleep 2
    attend j { w with reader } interrupts interrupt

/-- The script that a command is about. -/
def scriptOf : Command → String
  | .run script .. | .watch script .. => script

/-- Carries out what the arguments ask for, and gives the exit code. -/
def run (args : List String) : IO UInt32 := do
  match Invocation.read args with
  | .error h =>
    let (w, code) := h.answer
    display ([Piece.err w.err.toUTF8, Piece.out w.out.toUTF8])
    return code.toUInt32
  | .ok inv =>
    let interrupts ← Std.Async.Signal.Waiter.mk .sigint true
    let world ← initialWorld (scriptOf inv.command)
    match ← attend (Job.start interpreter inv world) {} interrupts (← interrupts.wait) with
    | .code n => return n.toUInt32
    | .broken message =>
      IO.eprintln message
      return 101

end ScriptHost.Program

def main (args : List String) : IO UInt32 := ScriptHost.Program.run args
