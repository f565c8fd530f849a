import ScriptHost.Script.Machine.Names

/-!
# Calls, results and errors

How a function is entered, where its results go, and what happens to an error:
it is raised, its handler sees it, it is thrown to the innermost frame that
catches errors, and the variables of the frames in between are closed.
-/
namespace ScriptHost.Script.Machine

/-! ## Raising -/

/-- The place of the running function as operations on values put it before their messages. -/
def ownPlace (m : Machine) : Bytes :=
  match m.frame.kind with
  | .script =>
    Bytes.cat [m.frame.proto.chunk, Bytes.ofText (":" ++ toString (currentLine m.frame) ++ ": ")]
  | _ => .empty

def raise (m : Machine) (v : Value) : Machine := { m with todo := .raise v }

/-- Raises a message of an operation on values. -/
def raiseBytes (m : Machine) (parts : List Bytes) : Machine :=
  m.raise (.str (Bytes.cat (m.ownPlace :: parts)))

def raiseText (m : Machine) (s : String) : Machine := m.raiseBytes [Bytes.ofText s]

/-- A variable in a message: nothing when it has no name. -/
def named : Option Label → Bytes
  | some (kind, n) => Bytes.cat [Bytes.ofText (" (" ++ kind ++ " '"), n, Bytes.ofText "')"]
  | none => .empty

/-- An operation met a value of a wrong type. -/
def raiseType (m : Machine) (operation : String) (v : Value) (name : Option Label) : Machine :=
  m.raiseBytes [Bytes.ofText ("attempt to " ++ operation ++ " a "), m.heap.typeName v,
    Bytes.ofText " value", named name]

/-- The name of a register of the running function. -/
def registerName (m : Machine) (reg : Nat) : Option Label :=
  match m.frame.kind with
  | .script => m.frame.proto.nameOf (m.frame.pc - 1) reg
  | _ => none

def capturedLabel (m : Machine) (i : Nat) : Option Label :=
  some ("upvalue", m.frame.proto.capturedName i)

/-- A value that is called is no function. -/
def raiseCall (m : Machine) (v : Value) : Machine :=
  let name := match m.frame.kind with
    | .script => m.frame.proto.calledName (m.frame.pc - 1)
    | _ => none
  m.raiseType "call" v name

/-- The error of a handler that fails again and again. -/
def errorInHandling : Value := .text "error in error handling"

/-! ## Entering -/

/-- How many values the stack may hold now. -/
def stackLimit (m : Machine) : Nat := if m.overflowed then maxStack + extraStack else maxStack

/-- The stack is too small for what is called. -/
def overflow (m : Machine) : Machine :=
  if m.overflowed then { m with todo := .throw errorInHandling }
  else raiseText { m with overflowed := true } "stack overflow"

/-- Puts a function and arguments behind the registers of the running function and calls it. -/
def callAbove (m : Machine) (slot : Nat) (f : Value) (args : Array Value) (wanted : Option Nat)
    (role : Role) (nesting : Nesting) : Machine :=
  let m := (m.reserve (slot + args.size + 4)).putValues slot (#[f] ++ args)
  { m with todo := .enter slot args.size wanted role nesting }

/-! ## The hook -/

/-- The hook is a function of the script and is told events of a kind. -/
def hookWants (m : Machine) (kind : Char) : Bool :=
  match m.hook with
  | .script _ mask _ _ => m.allowHook && mask.toList.contains (UInt8.ofNat kind.toNat)
  | _ => false

/-- Calls the hook for an event; no other hook is called meanwhile. -/
def callHook (m : Machine) (event : String) (line : Option Int) (after : AfterHook) : Machine :=
  match m.hook with
  | .script f .. =>
    let line := match line with
      | some n => if 0 ≤ n then Value.ofInt n else .nil
      | none => .nil
    callAbove { m with allowHook := false } (max m.frame.top m.top) f #[.text event, line] (some 0)
      (.hook after m.top) .fixed
  | _ => m

/-- What is watched in the first instruction of a function; the one that moves the arguments of a
function with extra ones is not. -/
def entryWatch (p : Proto) : Watch := if p.isVararg then .quiet else .entry

/-! ## Entering functions -/

/-- A script's function on top of the running one. -/
def enterScript (m : Machine) (c : Nat) (p : Proto) (f : Frame) (args : Nat) : Machine :=
  if f.func + 1 + args + p.stackSize > m.stackLimit then m.overflow
  else
    let m := m.reserve (f.func + 1 + p.stackSize + 8)
    let m := (p.params - args).fold (fun i _ (m : Machine) => m.setSlot (f.func + 1 + args + i) .nil) m
    { m with
      frame := { f with kind := .script, top := f.func + 1 + p.stackSize, closure := c, proto := p }
      callers := m.frame :: m.callers
      top := f.func + 1 + args
      oldPc := 0
      todo := .fetch (entryWatch p) }

/-- A library function on top of the running one. -/
def enterNative (m : Machine) (f : Frame) (args : Nat) : Machine :=
  let top := f.func + 1 + args
  if top + 20 > m.stackLimit then m.overflow
  else
    let m := { m with frame := { f with kind := .native, top }, callers := m.frame :: m.callers }
    if m.hookWants 'c' then m.callHook "call" none .begin else { m with todo := .begin }

/-- The running library function begins. -/
def begin (m : Machine) : Machine :=
  let vs := m.values m.base (m.frame.top - m.base)
  match m.slot m.frame.func with
  | .native fn => { m with todo := .act (fn.run 0 #[] vs) }
  | .bound id =>
    match m.heap.bound[id]? with
    | some (fn, state) => { m with todo := .act (fn.run id state vs) }
    | none => { m with todo := .give #[] }
  | _ => { m with todo := .give #[] }

/-- Puts a metamethod before the value it is called for and the arguments. -/
def insertHandler (m : Machine) (func args : Nat) (f : Value) : Machine :=
  let vs := m.values func (args + 1)
  (m.putValues (func + 1) vs).setSlot func f

/-- Calls the value in slot `func`. -/
def enter (m : Machine) (func args : Nat) (wanted : Option Nat) (role : Role) (nesting : Nesting) : Machine :=
  let depth := if nesting = .flat then m.depth else m.depth + 1
  let noYield := if nesting = .fixed then m.noYield + 1 else m.noYield
  if nesting ≠ .flat ∧ depth = maxDepth then raiseText { m with depth, noYield } "C stack overflow"
  else if nesting ≠ .flat ∧ depth ≥ maxDepth / 10 * 11 then { m with todo := .throw errorInHandling }
  else
    let f : Frame := { func, dest := func, wanted, role, depth := m.depth, noYield := m.noYield }
    match m.slot func with
    | .closure c => enterScript { m with depth, noYield } c (m.heap.closures[c]?.getD default).proto f args
    | .native _ | .bound _ => enterNative { m with depth, noYield } f args
    | v =>
      match m.heap.metamethod v .call with
      | .nil => m.raiseCall v
      | h =>
        let m := m.insertHandler func args h
        { m with todo := .enter func (args + 1) wanted role nesting }

/-- Calls the value in slot `func` in place of the running function. -/
def enterTail (m : Machine) (func args : Nat) : Machine :=
  match m.slot func with
  | .closure c =>
    let p := (m.heap.closures[c]?.getD default).proto
    let dest := m.frame.dest
    if func + 1 + args + p.stackSize > m.stackLimit then m.overflow
    else
      let vs := m.values func (args + 1)
      let m := (m.reserve (dest + 1 + p.stackSize + 8)).putValues dest vs
      let m := (p.params - args).fold (fun i _ (m : Machine) => m.setSlot (dest + 1 + args + i) .nil) m
      { m with
        frame := { m.frame with
          func := dest, top := dest + 1 + p.stackSize, isTail := true, closure := c, proto := p, pc := 0
          extra := 0 }
        top := dest + 1 + args
        oldPc := 0
        todo := .fetch (entryWatch p) }
  | .native _ | .bound _ => m.enter func args none .tail .flat
  | v =>
    match m.heap.metamethod v .call with
    | .nil => m.raiseCall v
    | h =>
      let m := m.insertHandler func args h
      { m with todo := .enterTail func (args + 1) }

/-! ## Results -/

/-- The jump behind a condition is taken when the condition is as the instruction says. -/
def branch (m : Machine) (cond k : Bool) : Machine :=
  let pc := m.frame.pc
  let pc := if cond = k then ((pc : Int) + (m.frame.proto.instr pc).j + 1).toNat else pc + 1
  { m with frame := { m.frame with pc }, todo := .fetch .full }

/-- A metamethod has given the result of the instruction just executed. -/
def finishOperand (m : Machine) (v : Value) : Machine :=
  let p := m.frame.proto
  let i := p.instr (m.frame.pc - 1)
  match i.op with
  | .mmbin | .mmbini | .mmbink =>
    { m.setReg (p.instr (m.frame.pc - 2)).a v with todo := .fetch .full }
  | .eq | .lt | .le | .lti | .lei | .gti | .gei => m.branch v.truthy i.k
  | _ => { m.setReg i.a v with todo := .fetch .full }

/-- A value can be concatenated without a metamethod. -/
def isJoinable (v : Value) : Bool := v.isString || v.isNumber

/-- The text of a string or number. -/
def joinText : Value → Bytes
  | .str b => b
  | v => Number.toBytes v

/-- The first of the slots `first` to `first + n` from which on all values can be joined; at least
the last two are looked at. -/
def joinStart (m : Machine) (first : Nat) : Nat → Nat
  | 0 => first
  | k + 1 => if isJoinable (m.slot (first + k)) then joinStart m first k else first + k + 1

/-- Concatenates the `n` values in the registers from `a` on, from the right. -/
def concat (m : Machine) (a n : Nat) : Machine :=
  let first := m.base + a
  if n ≤ 1 then { m with todo := .fetch .full }
  else
    let x := m.slot (first + n - 2)
    let y := m.slot (first + n - 1)
    if isJoinable x && isJoinable y then
      let start := m.joinStart first (n - 1)
      let text := (m.values start (first + n - start)).foldl (fun b v => b ++ joinText v) .empty
      let m := m.setSlot start (.str text)
      if start = first then { m with todo := .fetch .full }
      else
        let left := start - first + 1
        handle m first left (m.slot (start - 1)) (.str text)
    else handle m first n x y
where
  handle (m : Machine) (first n : Nat) (x y : Value) : Machine :=
    let f := m.heap.metamethod x .concat
    let f := if f.isNil then m.heap.metamethod y .concat else f
    if f.isNil then
      let (v, k) := if isJoinable x then (y, n - 1) else (x, n - 2)
      m.raiseType "concatenate" v (m.registerName (first + k - m.base))
    else m.callAbove m.frame.top f #[x, y] (some 1) (.concat (n - 1)) .nested

/-- Ends the running coroutine: whoever resumed it gets the reply. -/
def endThread (m : Machine) (r : Reply) (failure : Option Value) : Machine :=
  (m.switch .dead m.resumer fun t => { t with failure }).reply r

/-- A guarded call went well: its guard is taken away. -/
def unguard (m : Machine) : Machine :=
  match m.frame.guard with
  | some g => { m with handler := g.handler, frame := { m.frame with guard := none } }
  | none => m

/-- Hands the results of a frame that has ended to the frame below, which is the running one now. -/
def deliver (m : Machine) (role : Role) (dest : Nat) (wanted : Option Nat) (vs : Array Value) : Machine :=
  match role with
  | .call => { m.putResults dest vs wanted with todo := .fetch .full }
  | .iterator => { m.putResults dest vs wanted with todo := .fetch .quiet }
  | .operand => m.finishOperand (vs[0]?.getD .nil)
  | .negated => m.finishOperand (.bool (!(vs[0]?.getD Value.nil).truthy))
  | .concat n =>
    let a := (m.frame.proto.instr (m.frame.pc - 1)).a
    (m.setReg (a + n - 1) (vs[0]?.getD .nil)).concat a n
  | .again => { m with todo := .again }
  | .reply => m.unguard.reply (.ok vs)
  | .tail => { m with todo := .give vs }
  | .handled => { m with todo := .throw (vs[0]?.getD .nil) }
  | .unwinding level error => { m with todo := .unwind level error }
  | .hook after top =>
    let m := { m with allowHook := true, top }
    match after with
    | .fetch w => { m with frame := { m.frame with pc := m.frame.pc - 1 }, todo := .fetch w }
    | .begin => { m with todo := .begin }
    | .leave => { m with todo := .leave }
  | .base =>
    if m.id = 0 then { m with todo := .ended (.returned vs) } else m.endThread (.ok vs) none

/-- Goes back from the running function to its caller. -/
def leave (m : Machine) (vs : Array Value) : Machine :=
  match m.callers with
  | [] => { m with todo := .ended (.returned vs) }
  | caller :: rest =>
    let f := m.frame
    let m := { m with
      frame := caller, callers := rest, depth := f.depth, noYield := f.noYield
      oldPc := if caller.kind = FrameKind.script then caller.pc - 1 else m.oldPc }
    m.deliver f.role f.dest f.wanted vs

/-- Ends the running function with results. -/
def give (m : Machine) (vs : Array Value) : Machine :=
  if m.hookWants 'r' then
    callHook { m with frame := { m.frame with results := vs } } "return" none .leave
  else m.leave vs

/-! ## Errors -/

/-- Shows an error to its handler, where there is one, and throws it. -/
def handleError (m : Machine) (v : Value) : Machine :=
  match m.handler with
  | none => { m with todo := .throw v }
  | some f =>
    let slot := match m.frame.kind with
      | .script => max m.frame.top m.top
      | _ => m.frame.top
    m.callAbove slot f #[v] (some 1) .handled .fixed

/-- The frames from the innermost one on that catches errors. -/
def catcher? : List Frame → Option (Frame × Guard × List Frame)
  | [] => none
  | f :: r =>
    match f.guard with
    | some g => some (f, g, r)
    | none => catcher? r

/-- Finds who catches an error. A coroutine nobody catches it in is dead. -/
def throw (m : Machine) (v : Value) : Machine :=
  match catcher? (m.frame :: m.callers) with
  | some (f, g, rest) =>
    { m with frame := f, callers := rest, depth := g.depth, noYield := g.noYield, todo := .unwind g.level (some v) }
  | none =>
    if m.id = 0 then { m with todo := .ended (.failed v) } else m.endThread (.failed v) (some v)

/-- All variables are closed: the frame that catches goes on. -/
def afterUnwind (m : Machine) (level : Nat) (error : Option Value) : Machine :=
  let m := m.closeCells level
  let m := match m.frame.guard with
    | some g => { m with handler := g.handler, allowHook := g.allowHook, overflowed := false, frame := { m.frame with guard := none } }
    | none => m
  match m.frame.kind, error with
  | .base, some v =>
    if m.id = 0 then { m with todo := .ended (.failed v) } else m.endThread (.failed v) none
  | .base, none =>
    if m.id = 0 then { m with todo := .ended (.returned #[]) } else m.endThread (.ok #[]) none
  | _, some v => m.reply (.failed v)
  | _, none => m.reply (.ok #[])

/-- Closes the variables from a slot on, the youngest first. -/
def unwind (m : Machine) (level : Nat) (error : Option Value) : Machine :=
  match m.closing with
  | slot :: rest =>
    if slot ≥ level then
      let m := closeCells { m with closing := rest } slot
      let v := m.slot slot
      m.callAbove (slot + 2) (m.heap.metamethod v .close) #[v, error.getD .nil] (some 0)
        (.unwinding level error) .fixed
    else m.afterUnwind level error
  | [] => m.afterUnwind level error

/-! ## Coroutines -/

def newThread (m : Machine) (body : Value) : Machine :=
  let id := m.threads.size
  let t : Thread := { body := some body }
  reply { m with threads := m.threads.push t } (.ok #[.thread id])

def statusOf (m : Machine) (t : Nat) : CoStatus :=
  if t = m.id then .running else (m.threads[t]?.getD { status := .dead }).status

/-- All frames of a coroutine that is resumed are as deep as the resumption. -/
def flatten (depth : Nat) (f : Frame) : Frame := { f with depth }

def resume (m : Machine) (t : Nat) (args : Array Value) : Machine :=
  match m.statusOf t with
  | .dead => m.reply (.failed (.text "cannot resume dead coroutine"))
  | .running | .normal => m.reply (.failed (.text "cannot resume non-suspended coroutine"))
  | .suspended =>
    if m.depth ≥ maxDepth then m.reply (.failed (.text "C stack overflow"))
    else
      let from_ := m.id
      let depth := m.depth + 1
      let body := (m.threads[t]?.getD {}).body
      let m := m.switch .normal t fun th => th
      let m := { m with resumer := from_, depth, noYield := 0 }
      match body with
      | some f =>
        let m := { m with stack := #[.nil], threads := m.threads.modify t ({ · with body := none }) }
        m.callAbove 1 f args none .base .flat
      | none =>
        reply { m with frame := flatten depth m.frame, callers := m.callers.map (flatten depth) } (.ok args)

def yield (m : Machine) (vs : Array Value) : Machine :=
  if m.noYield > 0 then
    m.raise (.text (if m.id = 0 then "attempt to yield from outside a coroutine"
      else "attempt to yield across a C-call boundary"))
  else (m.switch .suspended m.resumer fun th => th).reply (.ok vs)

/-- Closes a coroutine that does not run: its variables are closed in it. -/
def closeThread (m : Machine) (t : Nat) : Machine :=
  let th := m.threads[t]?.getD {}
  if th.closing.isEmpty then
    let m := { m with
      threads := m.threads.modify t fun th => { th with
        status := .dead, body := none, failure := none, frame := {}, callers := [], openCells := [] }
      heap := th.openCells.foldl (fun (h : Heap) (open_ : Nat × Nat) =>
        { h with cells := h.cells.setIfInBounds open_.2 (.closed (th.stack[open_.1]?.getD .nil)) }) m.heap }
    match th.failure with
    | some v => m.reply (.failed v)
    | none => m.reply (.ok #[])
  else
    let from_ := m.id
    let depth := m.depth
    let m := m.switch .normal t fun th => th
    let guard : Guard := ⟨1, none, true, depth, 0⟩
    { m with
      resumer := from_, depth, noYield := 0, callers := [], handler := none
      frame := { kind := .base, guard := some guard }
      todo := .unwind 1 th.failure }

/-! ## Requests -/

/-- The value that a failure of a library function raises. -/
def fault (m : Machine) (f : Fault) : Machine :=
  let frames := m.frame :: m.callers
  let withPlace (parts : List Bytes) : Machine := m.raise (.str (Bytes.cat (m.position 1 :: parts)))
  match f with
  | .value v => m.raise v
  | .message b => withPlace [b]
  | .argument n b =>
    let text (n : Nat) (name : Bytes) : Machine :=
      withPlace [Bytes.ofText s!"bad argument #{n} to '", name, Bytes.ofText "' (", b, Bytes.ofText ")"]
    match callName frames 0 with
    | some ("method", name) =>
      if n ≤ 1 then withPlace [Bytes.ofText "calling '", name, Bytes.ofText "' on bad self (", b, Bytes.ofText ")"]
      else text (n - 1) name
    | some (_, name) => text n name
    | none => text n ((globalName? m.heap (m.slot m.frame.func)).getD (Bytes.ofText "?"))
  | .host e =>
    let trace := traceback m.heap m.stack frames none 0
    let (v, heap) := m.heap.newFailure (.callback e trace)
    raise { m with heap } v

/-- Changes the hook of a coroutine. -/
def setHook (m : Machine) (thread : Option Nat) (hook : Hook) : Machine :=
  let t := thread.getD m.id
  if t = m.id then { m with hook }
  else { m with threads := m.threads.modify t ({ · with hook }) }

def hookOf (m : Machine) (thread : Option Nat) : Hook :=
  let t := thread.getD m.id
  if t = m.id then m.hook else (m.threads[t]?.getD {}).hook

/-- What a hook is set for, and how it is shown. -/
def describeHook : Hook → Array Value
  | .none => #[.nil]
  | .host => #[.text "external hook", .text "l", .int 0]
  | .script f mask count _ => #[f, .str mask, .ofNat count]

/-- Calls a value and catches its errors. -/
def protect (m : Machine) (f : Value) (args : Array Value) (guarding : Guarding) (offset : Nat) : Machine :=
  let slot := if offset = 0 then m.frame.top else m.frame.func + 1 + offset
  let guard : Guard := ⟨slot, m.handler, m.allowHook, m.depth, m.noYield⟩
  let handler := match guarding with
    | .nobody => none
    | .handler h => some h
    | .inherited => m.handler
  let m := { m with frame := { m.frame with guard := some guard }, handler }
  m.callAbove slot f args none .reply (if offset = 0 then .fixed else .nested)

/-- Serves a request of the running library function. -/
def serve (m : Machine) (r : Request) : Machine :=
  match r with
  | .call f args yieldable =>
    m.callAbove m.frame.top f args none .reply (if yieldable then .nested else .fixed)
  | .protect f args guarding offset => m.protect f args guarding offset
  | .newThread body => m.newThread body
  | .resume t args => m.resume t args
  | .yield vs => m.yield vs
  | .closeThread t => m.closeThread t
  | .status t => m.reply (.ok #[.text (m.statusOf t).name])
  | .running => m.reply (.ok #[.thread m.id, .bool (m.id = 0)])
  | .isYieldable t =>
    let t := t.getD m.id
    let noYield := if t = m.id then m.noYield else (m.threads[t]?.getD {}).noYield
    m.reply (.ok #[.bool (t != 0 && noYield = 0)])
  | .position level => m.reply (.ok #[.str (m.position level)])
  | .traceback thread message level =>
    let (stack, frames) := m.framesOf thread
    m.reply (.ok #[.str (traceback m.heap stack frames message level)])
  | .info thread subject => m.reply (.info (m.info thread subject))
  | .getLocal thread level n =>
    match m.localVariable? thread level n with
    | none => m.reply (.failed .nil)
    | some none => m.reply (.ok #[.nil])
    | some (some (name, slot)) =>
      let v := ((m.framesOf thread).1)[slot]?.getD .nil
      m.reply (.ok #[.str name, v])
  | .setLocal thread level n v =>
    match m.localVariable? thread level n with
    | none => m.reply (.failed .nil)
    | some none => m.reply (.ok #[.nil])
    | some (some (name, slot)) =>
      let t := thread.getD m.id
      let m := if t = m.id then m.setSlot slot v
        else { m with threads := m.threads.modify t fun th => { th with stack := th.stack.setIfInBounds slot v } }
      m.reply (.ok #[.str name])
  | .getCell cell => m.reply (.ok #[m.getCell cell])
  | .setCell cell v => (m.setCell cell v).reply (.ok #[])
  | .setHook thread f mask count =>
    let hook : Hook := if f.isNil || (mask.isEmpty && count = 0) then .none else .script f mask count count
    (m.setHook thread hook).reply (.ok #[])
  | .getHook thread => m.reply (.ok (describeHook (m.hookOf thread)))
  | r => { m with todo := .outside r }

/-- Goes on with the running library function. -/
def act (m : Machine) (f : HostM (Array Value)) : Machine :=
  let h := m.heap
  let m := { m with heap := noHeap, todo := .leave }
  match f h with
  | .done vs h => { m with heap := h, todo := .give vs }
  | .fail f h => fault { m with heap := h } f
  | .ask r h next => serve { m with heap := h, frame := { m.frame with next := some next } } r

end ScriptHost.Script.Machine
