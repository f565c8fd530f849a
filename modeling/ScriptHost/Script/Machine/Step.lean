import ScriptHost.Script.Machine.Execute

/-!
# Steps

The machine goes on step by step until the host has to answer: it hears of a
line, of a request it has to serve, or of the end. A line is reported before its
first instruction is executed, and once more whenever the code jumps back.
-/
namespace ScriptHost.Script.Machine

/-! ## Events of the hook -/

/-- Two instructions belong to different lines. -/
def changesLine (p : Proto) (old new : Nat) : Bool :=
  !p.lines.isEmpty && lineAt p old != lineAt p new

/-- The running function has the next instruction behind it, as when it is executed. -/
def ahead (m : Machine) : Machine := { m with frame := { m.frame with pc := m.frame.pc + 1 } }

/-- Shows a new line to the hook, or executes the next instruction. -/
def fetchLine (m : Machine) : Machine :=
  let p := m.frame.proto
  let pc := m.frame.pc
  let old := if m.oldPc < p.code.size then m.oldPc else 0
  let isNew := pc ≤ old || changesLine p old pc
  let m := { m with oldPc := pc }
  if isNew && m.allowHook then
    match m.hook with
    | .host => { m.ahead with todo := .line (lineAt p pc) }
    | .script .. => m.ahead.callHook "line" (some (lineAt p pc)) (.fetch .quiet)
    | .none => m.execute
  else m.execute

/-- Counts an instruction and shows its line. -/
def fetchFull (m : Machine) : Machine :=
  match m.hook with
  | .none => m.execute
  | .host => m.fetchLine
  | .script f mask count left =>
    let wantsLine := mask.toList.contains (UInt8.ofNat 'l'.toNat)
    let m := { m with hook := .script f mask count (if left ≤ 1 then count else left - 1) }
    if left = 1 && m.allowHook then
      m.ahead.callHook "count" none (.fetch (if wantsLine then .line else .quiet))
    else if wantsLine then m.fetchLine
    else m.execute

/-- Shows the call of the running function to the hook. -/
def fetchEntry (m : Machine) : Machine :=
  if m.hookWants 'c' then
    m.ahead.callHook (if m.frame.isTail then "tail call" else "call") (some (lineAt m.frame.proto m.frame.pc))
      (.fetch .full)
  else m.fetchFull

def fetch (m : Machine) (w : Watch) : Machine :=
  match w with
  | .entry => m.fetchEntry
  | .full => m.fetchFull
  | .line => m.fetchLine
  | .quiet => m.execute

/-! ## Steps -/

/-- One step. -/
def step (m : Machine) : Machine :=
  match m.todo with
  | .fetch w => m.fetch w
  | .begin => m.begin
  | .again => m.repeatInstr
  | .enter func args wanted role nesting => m.enter func args wanted role nesting
  | .enterTail func args => m.enterTail func args
  | .act f => m.act f
  | .give vs => m.give vs
  | .leave => m.leave m.frame.results
  | .raise v => m.handleError v
  | .throw v => m.throw v
  | .unwind level error => m.unwind level error
  | .line _ | .outside _ | .ended _ => m

/-- The machine waits for the host. -/
def isResting (m : Machine) : Bool :=
  match m.todo with
  | .line _ | .outside _ | .ended _ => true
  | _ => false

/-- At most so many steps, until the host has to answer. -/
def run : Nat → Machine → Machine
  | 0, m => m
  | n + 1, m => if m.isResting then m else run n m.step

/-! ## Answers of the host -/

/-- The host lets the script go on after a line. -/
def proceed (m : Machine) : Machine := { m with todo := .again }

/-- The host stops the script at a line with an error. No line is reported any more until the error
is caught. -/
def interrupt (m : Machine) (e : HostError) : Machine := fault { m with allowHook := false } (.host e)

end ScriptHost.Script.Machine
