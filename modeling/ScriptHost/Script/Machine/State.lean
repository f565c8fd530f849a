import ScriptHost.Script.Library.Standard

/-!
# The state of the machine

A machine runs one coroutine at a time; `Thread` holds one that does not run.
A coroutine has a stack of values and a list of frames, the running one apart.
The frame of a script's function owns the registers from the one behind its
function on; the frame of a library function that waits for a reply keeps what
it does next. What the machine does in its next step is its `todo`.
-/
namespace ScriptHost.Script

/-- Which events of the next instruction are still to be shown to the hook. -/
inductive Watch where
  /-- The call of a function, which begins here, and all others. -/
  | entry
  /-- A count of instructions and a line. -/
  | full
  | line
  | quiet
  deriving DecidableEq, Repr, Inhabited

/-- What goes on after the hook has seen an event. -/
inductive AfterHook where
  | fetch (watch : Watch)
  | begin
  | leave
  deriving DecidableEq, Repr, Inhabited

/-- What happens with the results of a frame. -/
inductive Role where
  /-- They go where the function was. -/
  | call
  /-- As for `call`; the instruction behind is not watched. -/
  | iterator
  /-- The first is the result of the instruction just executed. -/
  | operand
  /-- The same, with truth and falsehood exchanged. -/
  | negated
  /-- The first is the last of `n` values to be concatenated. -/
  | concat (n : Nat)
  /-- They are dropped, and the instruction just executed is executed once more. -/
  | again
  /-- They are the reply to a request. -/
  | reply
  /-- They are the results of the calling function. -/
  | tail
  /-- The first is an error that its handler has seen. -/
  | handled
  /-- They are dropped, and variables go on being closed down to a slot, with an error. -/
  | unwinding (level : Nat) (error : Option Value)
  /-- They are dropped: the hook has seen its event. The values up to `top` are still in use. -/
  | hook (after : AfterHook) (top : Nat)
  /-- They are the results of the coroutine. -/
  | base
  deriving Inhabited

/-- How deep calls of a kind nest. -/
inductive Nesting where
  /-- From one function of the script to another: bounded by the stack only. -/
  | flat
  /-- Through a function of the library or a metamethod. -/
  | nested
  /-- The same, and no coroutine can yield inside. -/
  | fixed
  deriving DecidableEq, Repr

/-- A frame that catches errors: what it restores. -/
structure Guard where
  /-- The slot from which on variables are closed. -/
  level : Nat
  handler : Option Value
  allowHook : Bool
  depth : Nat
  noYield : Nat
  deriving Inhabited

/-- What runs in a frame. -/
inductive FrameKind where
  /-- The bottom of a coroutine. -/
  | base
  | script
  | native
  deriving DecidableEq, Repr, Inhabited

/-- An active function. -/
structure Frame where
  kind : FrameKind := .base
  /-- The slot of the function; its registers follow. -/
  func : Nat := 0
  /-- Where its results go: the slot the function was called at. -/
  dest : Nat := 0
  /-- The end of its registers. -/
  top : Nat := 1
  /-- Number of results wanted; none: all. -/
  wanted : Option Nat := none
  role : Role := .base
  isTail : Bool := false
  /-- The counters of nesting before the call. -/
  depth : Nat := 0
  noYield : Nat := 0
  closure : Nat := 0
  proto : Proto := default
  pc : Nat := 0
  /-- Number of arguments beyond the parameters. -/
  extra : Nat := 0
  /-- Number of results of a return that still has variables to close. -/
  returning : Option Nat := none
  /-- The results, while the hook is told that the function ends. -/
  results : Array Value := #[]
  /-- What a function of the library does with the reply it waits for. -/
  next : Option (Reply → Heap → Action (Array Value)) := none
  guard : Option Guard := none
  deriving Inhabited

/-- A function that is called for events of a coroutine. -/
inductive Hook where
  | none
  /-- The host is told every line. -/
  | host
  /-- A function of the script is told some events. -/
  | script (f : Value) (mask : Bytes) (count left : Nat)
  deriving Inhabited

def Hook.isNone : Hook → Bool
  | .none => true
  | _ => false

/-- A coroutine that does not run. -/
structure Thread where
  stack : Array Value := #[]
  frame : Frame := {}
  callers : List Frame := []
  top : Nat := 0
  openCells : List (Nat × Nat) := []
  closing : List Nat := []
  handler : Option Value := none
  depth : Nat := 0
  noYield : Nat := 0
  oldPc : Nat := 0
  hook : Hook := .none
  allowHook : Bool := true
  status : CoStatus := .suspended
  /-- The body of a coroutine that has not begun. -/
  body : Option Value := none
  /-- The error that ended it. -/
  failure : Option Value := none
  /-- Who resumed it. -/
  resumer : Nat := 0
  deriving Inhabited

/-- How a script ends. -/
inductive Ending where
  | returned (values : Array Value)
  | failed (error : Value)
  deriving Inhabited

/-- What the machine does next. -/
inductive Todo where
  /-- The next instruction. -/
  | fetch (watch : Watch)
  /-- A library function begins. -/
  | begin
  /-- The instruction just executed, once more. -/
  | again
  /-- Calls the value in a slot with the arguments behind it. -/
  | enter (func args : Nat) (wanted : Option Nat) (role : Role) (nesting : Nesting)
  /-- The same in place of the running function, whose results are those of the called one. -/
  | enterTail (func args : Nat)
  /-- Goes on with a function of the library. -/
  | act (f : HostM (Array Value))
  /-- Ends the running function with results. -/
  | give (values : Array Value)
  /-- The same with the results in the frame, whose event has been seen. -/
  | leave
  /-- An error is raised here. -/
  | raise (v : Value)
  /-- An error looks for a frame that catches it. -/
  | throw (v : Value)
  /-- Variables from a slot on are closed, with an error or without. -/
  | unwind (level : Nat) (error : Option Value)
  /-- The host hears of a line and decides whether the script goes on. -/
  | line (n : Int)
  /-- The host has to answer a request. -/
  | outside (r : Request)
  | ended (e : Ending)
  deriving Inhabited

structure Machine where
  heap : Heap := {}
  stack : Array Value := #[]
  frame : Frame := {}
  /-- The other frames, innermost first. -/
  callers : List Frame := []
  /-- The end of a list of values of variable length. -/
  top : Nat := 0
  /-- Captured registers and their cells, highest first. -/
  openCells : List (Nat × Nat) := []
  /-- Registers whose variables are to be closed, highest first. -/
  closing : List Nat := []
  /-- Who sees errors where they are raised. -/
  handler : Option Value := none
  /-- How deep calls are nested. -/
  depth : Nat := 0
  /-- How many of them no coroutine can yield through. -/
  noYield : Nat := 0
  /-- The instruction watched last. -/
  oldPc : Nat := 0
  hook : Hook := .none
  allowHook : Bool := true
  /-- The stack is beyond its limit. -/
  overflowed : Bool := false
  /-- The number of the running coroutine; 0 is the main one. -/
  id : Nat := 0
  resumer : Nat := 0
  threads : Array Thread := #[]
  todo : Todo := .fetch .full
  deriving Inhabited

namespace Machine

/-- How many values a stack can hold, and how many more while an overflow is handled. -/
def maxStack : Nat := 1000000
def extraStack : Nat := 200

/-- How deep calls through the library can nest. -/
def maxDepth : Nat := 200

/-- A heap that stands in for one that was taken away. -/
def noHeap : Heap := {}

/-! ## The stack -/

def slot (m : Machine) (i : Nat) : Value := m.stack[i]?.getD .nil

def setSlot (m : Machine) (i : Nat) (v : Value) : Machine :=
  { m with stack := m.stack.setIfInBounds i v }

/-- Appends nils up to a size. -/
def growTo (stack : Array Value) (size : Nat) : Array Value :=
  (size - stack.size).fold (fun _ _ s => s.push .nil) stack

/-- Makes slots up to `size`. -/
def reserve (m : Machine) (size : Nat) : Machine :=
  if size ≤ m.stack.size then m else { m with stack := growTo m.stack size }

/-- The slot of a register. -/
def base (m : Machine) : Nat := m.frame.func + 1

def reg (m : Machine) (i : Nat) : Value := m.stack[m.frame.func + 1 + i]?.getD .nil

def setReg (m : Machine) (i : Nat) (v : Value) : Machine :=
  { m with stack := m.stack.setIfInBounds (m.frame.func + 1 + i) v }

/-- The values of slots `first` to `first + count`. -/
def values (m : Machine) (first count : Nat) : Array Value := m.stack.extract first (first + count)

/-- Writes values from a slot on. -/
def putValues (m : Machine) (first : Nat) (vs : Array Value) : Machine :=
  let m := m.reserve (first + vs.size)
  { m with stack := (vs.foldl (fun (s, i) v => (s.setIfInBounds i v, i + 1)) (m.stack, first)).1 }

/-- Writes values from a slot on, `wanted` of them, or all and then `top` is behind them. -/
def putResults (m : Machine) (first : Nat) (vs : Array Value) (wanted : Option Nat) : Machine :=
  match wanted with
  | none => { m.putValues first vs with top := first + vs.size }
  | some 0 => m
  | some 1 => m.setSlot first (vs[0]?.getD .nil)
  | some n => m.putValues first ((vs.extract 0 n) ++ Array.replicate (n - vs.size) .nil)

/-! ## Captured variables -/

/-- The value of a captured variable. -/
def getCell (m : Machine) (cell : Nat) : Value :=
  match m.heap.cells[cell]? with
  | some (.closed v) => v
  | some (.open t i) =>
    if t = m.id then m.slot i else ((m.threads[t]?.getD {}).stack)[i]?.getD .nil
  | none => .nil

def setCell (m : Machine) (cell : Nat) (v : Value) : Machine :=
  match m.heap.cells[cell]? with
  | some (.open t i) =>
    if t = m.id then m.setSlot i v
    else { m with threads := m.threads.modify t fun th => { th with stack := th.stack.setIfInBounds i v } }
  | _ => { m with heap := { m.heap with cells := m.heap.cells.setIfInBounds cell (.closed v) } }

/-- The cell of captured variable `i` of the running function. -/
def captured (m : Machine) (i : Nat) : Nat :=
  ((m.heap.closures[m.frame.closure]?.getD default).cells)[i]?.getD 0

/-- Puts a cell into the list of open ones, which is sorted. -/
def insertCell (slot cell : Nat) : List (Nat × Nat) → List (Nat × Nat)
  | [] => [(slot, cell)]
  | (s, c) :: r => if s > slot then (s, c) :: insertCell slot cell r else (slot, cell) :: (s, c) :: r

/-- The cell of a register, a new one if it has none. -/
def cellOf (m : Machine) (slot : Nat) : Nat × Machine :=
  match m.openCells.find? (·.1 = slot) with
  | some (_, c) => (c, m)
  | none =>
    let (c, heap) := m.heap.newCell (.open m.id slot)
    (c, { m with heap, openCells := insertCell slot c m.openCells })

/-- Gives the captured variables from a slot on values of their own. -/
def closeCells (m : Machine) (level : Nat) : Machine :=
  let rec go (m : Machine) : List (Nat × Nat) → Machine
    | [] => { m with openCells := [] }
    | (s, c) :: r =>
      if s < level then { m with openCells := (s, c) :: r }
      else
        let v := m.slot s
        go { m with heap := { m.heap with cells := m.heap.cells.setIfInBounds c (.closed v) } } r
  match m.openCells with
  | [] => m
  | (s, _) :: _ => if s < level then m else go m m.openCells

/-! ## Coroutines -/

/-- The running coroutine as one that does not run. -/
def save (m : Machine) (status : CoStatus) : Thread :=
  { stack := m.stack, frame := m.frame, callers := m.callers, top := m.top, openCells := m.openCells
    closing := m.closing, handler := m.handler, depth := m.depth, noYield := m.noYield
    oldPc := m.oldPc, hook := m.hook, allowHook := m.allowHook, status, resumer := m.resumer }

/-- Makes a coroutine the running one. -/
def load (m : Machine) (id : Nat) : Machine :=
  let t := m.threads[id]?.getD {}
  { heap := m.heap, stack := t.stack, frame := t.frame, callers := t.callers, top := t.top
    openCells := t.openCells, closing := t.closing, handler := t.handler, depth := t.depth
    noYield := t.noYield, oldPc := t.oldPc, hook := t.hook, allowHook := t.allowHook
    overflowed := false, id, resumer := t.resumer
    threads := m.threads.modify id fun th => { th with stack := #[], status := .running }
    todo := m.todo }

/-- Leaves the running coroutine and goes on with another. -/
def switch (m : Machine) (status : CoStatus) (next : Nat) (f : Thread → Thread) : Machine :=
  let t := f (m.save status)
  load { m with stack := #[], threads := m.threads.setIfInBounds m.id t } next

/-- Gives the waiting function of the running frame its reply. -/
def reply (m : Machine) (r : Reply) : Machine :=
  match m.frame.next with
  | some next => { m with frame := { m.frame with next := none }, todo := .act (next r) }
  | none => m

/-! ## Lines -/

/-- The line of an instruction; -1 without information. -/
def lineAt (p : Proto) (pc : Nat) : Int :=
  match p.lines[pc]? with
  | some n => n
  | none => if p.lines.isEmpty then -1 else 0

/-- The line a frame of the script is at. -/
def currentLine (f : Frame) : Int :=
  match f.kind with
  | .script => lineAt f.proto (f.pc - 1)
  | _ => -1

end Machine
end ScriptHost.Script
