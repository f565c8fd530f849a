import ScriptHost.Interpreter
import ScriptHost.Script.Compile.Grammar
import ScriptHost.Script.Machine.Reach
import ScriptHost.Script.Machine.Step

/-!
# A script under way

A script is compiled to the main function of its chunk, and the machine calls
it, with the host's function that adds tracebacks as the handler of errors. A
run does so through the script's own protected call with its own traceback
function; both are taken before the script can change them.
-/
namespace ScriptHost.Script

/-! ## Starting -/

namespace Machine

/-- The main function of a chunk on a fresh heap. -/
def addMain (h : Heap) (p : Proto) : Value × Heap :=
  let (cell, h) := h.newCell (.closed (.table h.globals))
  let (c, h) := h.newClosure { proto := p, cells := #[cell] }
  (.closure c, h)

/-- A machine that calls a function; the errors of the call are the end of the script. -/
def calling (h : Heap) (f : Value) (args : Array Value) : Machine :=
  let handler : Value := .native (.host .withTraceback)
  let stack := growTo (#[.nil, handler, f] ++ args) (args.size + 40)
  let guard : Guard := ⟨2, none, true, 0, 1⟩
  { heap := h, stack, handler := some handler, noYield := 1, hook := .host, id := 0
    threads := #[{ status := .running }]
    frame := { kind := .base, func := 0, top := 1, guard := some guard, noYield := 1 }
    todo := .enter 2 args.size none .base .fixed }

/-- A run's machine: the main function under a protected call with a traceback. -/
def protecting (h : Heap) (p : Proto) : Machine :=
  let (main, h) := addMain h p
  calling h (.native (.basic .xpcall)) #[main, .native (.debug .traceback)]

/-- The main function called as it is. -/
def plain (h : Heap) (p : Proto) : Machine :=
  let (main, h) := addMain h p
  calling h main #[]

end Machine

/-- A script that is loaded, or the reason why it was not. -/
inductive Execution where
  | refused (message : String)
  | loaded (m : Machine)
  deriving Inhabited

namespace Execution

/-- The place of the first NUL. -/
def nulAt? (b : Bytes) : Option Nat := b.toList.findIdx? (· = 0)

/-- Compiles a script under a chunk name, which can hold no NUL. A script in binary form is refused:
binary forms stand here for functions that were dumped on the same heap, and before a run there are
none. Code from other compilers is beyond this model. Mirrors the loading of the chunk in
`WorkerThread.run_chunk`. -/
def compileNamed (source : Bytes) (chunkName : String) : Except String Proto :=
  let name := Bytes.ofText ("=" ++ chunkName)
  match nulAt? name with
  | some i => .error s!"runtime error: invalid name: nul byte found in provided data at position: {i}"
  | none =>
    match Modules.codeOf {} source name with
    | .ok p => .ok p
    | .error e => .error e.toText

/-- The script of a run. Mirrors `WorkerThread.prepare`. -/
def launch (w : World) (p : Payload) (chunkName : String) : Execution :=
  match compileNamed p.source chunkName with
  | .error e => .refused e
  | .ok proto => .loaded (.protecting (Library.start { world := w, searchTemplates := p.pathPrefix }) proto)

/-! ## The end -/

/-- Calls the finalizer of a table; an error of it is dropped. -/
def finalize (t : Nat) : HostM Unit := do
  match ← HostM.view (·.metamethod (.table t) .gc) with
  | .nil => pure ()
  | f =>
    let _ ← HostM.ask (.protect f #[.table t] .nobody 0)

/-- Finalizes what is out of reach and then, when the host has let go of the interpreter, all the
rest. -/
def finalizeAll (lost : List Nat) : HostM (Array Value) := do
  lost.forM finalize
  HostM.update ({ · with deserted := true })
  (← HostM.view (·.finalizers)).forM finalize
  return #[]

/-- The machine of a script that has ended while it is closed: it finalizes what was marked, and the
hook is not told of it. Nothing is collected before, whatever the script asks of the collector. -/
def closing (m : Machine) : Machine :=
  if m.heap.finalizable.isEmpty then m
  else
    let within := m.marks
    let finalizable := m.heap.finalizable.filter fun t => within.has (.table t)
    { heap := { m.heap with finalizable }, stack := Machine.growTo #[] 40, threads := m.threads, noYield := 1
      frame := { kind := .native }
      todo := .act (finalizeAll (m.heap.finalizers.filter fun t => !within.has (.table t))) }

/-- The text of an error that no protected call has caught. -/
def uncaught (h : Heap) (v : Value) : String :=
  match v with
  | .str s => "runtime error: " ++ s.toText
  | .userdata u =>
    match h.userdata[u]? with
    | some (.failure e) => e.text.toText
    | _ => "runtime error: <unprintable error>"
  | _ => "runtime error: <unprintable error>"

/-- The text of an error that the protected call of the run has caught, if there is one. Mirrors the
end of `WorkerThread.run_chunk`. -/
def failureOf (h : Heap) : Ending → Option String
  | .failed v => some (uncaught h v)
  | .returned vs =>
    if (vs[0]?.getD Value.nil).truthy then none
    else
      match vs[1]?.getD Value.nil with
      | .str s => some s.toText
      | v => some s!"(error object is a {Output.typeName h v} value)"

/-! ## Between the script and its worker -/

def signal : Execution → Signal
  | .refused e => .ended (some e)
  | .loaded m =>
    match m.todo with
    | .line n => .line n
    | .outside (.write b) => if m.heap.deserted then .working else .write b.toList
    | .outside _ => .waiting
    | .ended e => .ended (failureOf m.heap e)
    | _ => .working

/-- Number of steps that a script makes in one go. -/
def slice : Nat := 1000

/-- The world serves a request, or the script waits on. -/
def serve (m : Machine) (r : Request) (w : World) : Machine × World :=
  match r with
  | .openGate name => (if w.files.gateState name = .shut then m else m.reply (.ok #[]), w)
  | .awaitGate name => (if w.files.gateState name = .released then m.reply (.ok #[]) else m, w)
  | .awaitInput size =>
    if size < w.stdin.size || !w.stdinOpen then (m.reply (.ok #[]), { w with wantsInput := false })
    else (m, { w with wantsInput := true })
  | .look x => if w.knows x then (m.reply (.ok #[]), w) else (m, { w with wanted := some x })
  | .emit toError b => (m.reply (.ok #[]), w.emit toError b)
  | .flush => (m.reply (.ok #[]), w.flush)
  | .exit code => (m, { w with exit := some (w.exit.getD code) })
  | .write _ => (m.reply (.failed (.text "Lua instance is destroyed")), w)
  | _ => (m, w)

/-- Nanoseconds that this takes. -/
def sliceCost : Nat := 20000

/-- Puts the world before the script's eyes while it works. -/
def seeing (m : Machine) (w : World) (f : Machine → Machine) : Machine × World :=
  let m := f { m with heap := { m.heap with world := w } }
  let w := m.heap.world
  ({ m with heap := { m.heap with world := {} } }, w)

/-- Goes on by itself, in the world as it is. -/
def work (p : Execution) (w : World) : Execution × World :=
  match p with
  | .refused e => (.refused e, w)
  | .loaded m =>
    match m.todo with
    | .outside r =>
      let (m, w) := serve m r w
      (.loaded m, w)
    | _ =>
      let (m, w) := seeing m w (Machine.run slice)
      (.loaded m, w.pass sliceCost)

/-- What a script that is stopped gets to see. -/
def cancelled : HostError := .external (Bytes.ofText "script execution cancelled")

/-- The script goes on with its line, or is stopped at it. Mirrors the answer of
`ExecutionHook.on_line`. -/
def answerLine (p : Execution) (stop : Bool) : Execution :=
  match p with
  | .refused e => .refused e
  | .loaded m => .loaded (if stop then m.interrupt cancelled else m.proceed)

def answerWrite (p : Execution) (failure : Option SystemError) : Execution :=
  match p with
  | .refused e => .refused e
  | .loaded m =>
    .loaded (m.reply (match failure with
      | none => .ok #[]
      | some e => .failed (.text e.text)))

def close : Execution → Execution
  | .refused e => .refused e
  | .loaded m => .loaded (closing m)

end Execution

/-- The interpreter of scripts. -/
def interpreter : Interpreter World Execution where
  launch := Execution.launch
  signal := Execution.signal
  work := Execution.work
  answerLine := Execution.answerLine
  answerWrite := Execution.answerWrite
  close := Execution.close

end ScriptHost.Script
