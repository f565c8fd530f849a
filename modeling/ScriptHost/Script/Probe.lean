import ScriptHost.Queue
import ScriptHost.Script.Execution

/-!
# Watching a script from inside

A script that runs on its own, without a worker, and can look at its own
notifications: `poll()` takes those that are queued, and `cancel()` requests its
stop. Its main function is called unprotected, and it has no access to the
machine's inside.
-/
namespace ScriptHost.Script

structure Probe where
  machine : Machine
  queue : Queue
  /-- A stop was requested. -/
  token : Bool
  /-- The script was stopped at a line. -/
  tripped : Bool := false
  /-- What each poll took, newest first. -/
  polled : List (List Event) := []
  output : Bytes := .empty
  deriving Inhabited

/-- What is known when the script has ended. -/
structure Probe.Report where
  ok : Bool
  tripped : Bool
  polled : List (List Event)
  /-- Notifications nobody has taken. -/
  rest : List Event
  output : String

namespace Probe

/-- The number of the only run. -/
def run : Nat := 0

/-- Answers what the machine waits for. -/
def answer (p : Probe) : Probe :=
  let m := p.machine
  let p := { p with machine := default }
  match m.todo with
  | .line n =>
    let queue := if 0 ≤ n then p.queue.publish run (UInt32.ofNat n.toNat) else p.queue
    if p.token then { p with queue, tripped := true, machine := m.interrupt Execution.cancelled }
    else { p with queue, machine := m.proceed }
  | .outside (.write b) => { p with machine := m.reply (.ok #[]), output := p.output ++ b }
  | .outside .poll =>
    let (events, queue) := p.queue.drain
    { p with machine := m.reply (.ok #[]), queue, polled := events :: p.polled }
  | .outside .cancel => { p with machine := m.reply (.ok #[]), token := true }
  | .outside (.emit ..) | .outside .flush | .outside (.look _) => { p with machine := m.reply (.ok #[]) }
  | _ => { p with machine := m }

/-- Goes on for so many slices or until the script has ended. -/
def advance : Nat → Probe → Probe
  | 0, p => p
  | n + 1, p =>
    match p.machine.todo with
    | .ended _ => p
    | _ =>
      let m := p.machine
      let p := { p with machine := default }
      advance n { p with machine := m.run Execution.slice }.answer

def report (p : Probe) : Report :=
  let ok := match p.machine.todo with
    | .ended (.returned _) => true
    | _ => false
  let (rest, _) := p.queue.drain
  ⟨ok, p.tripped, p.polled.reverse, rest, p.output.toText⟩

/-- Runs a script; `token` when its stop is requested from the start. -/
def observe (fuel : Nat) (source : Bytes) (token : Bool) : Report :=
  match Execution.compileNamed source "script" with
  | .error _ => ⟨false, false, [], [], ""⟩
  | .ok proto =>
    let h := Library.start { safe := true, probes := true }
    report (advance fuel ⟨.plain h proto, (Queue.openRun {}).2, token, false, [], .empty⟩)

end Probe
end ScriptHost.Script
