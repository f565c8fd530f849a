import ScriptHost.Text.Json

/-!
# Events of a run

What the controller is told about a run, and the JSON line of an event.
-/
namespace ScriptHost

/-- How a run ended. Mirrors `RunOutcome`. -/
inductive Outcome where
  /-- The script ran to its end. -/
  | finished
  /-- The script did not parse or raised an error; the message is in the output. -/
  | failed
  /-- The script was stopped on request. -/
  | cancelled
  /-- The output channel could not be opened, and the script never ran. -/
  | channelFailure
  /-- The worker thread could not be made, and the script never ran. -/
  | spawnFailure
  deriving DecidableEq, Repr

/-- The outcome in one word. -/
def Outcome.name : Outcome → String
  | .finished => "finished"
  | .failed => "failed"
  | .cancelled => "cancelled"
  | .channelFailure => "channel_failure"
  | .spawnFailure => "spawn_failure"

/-- All outcomes. -/
def Outcome.all : List Outcome := [.finished, .failed, .cancelled, .channelFailure, .spawnFailure]

/-- The outcome with a given name. -/
def Outcome.ofName? (s : String) : Option Outcome := Outcome.all.find? (·.name = s)

/-- Exit code of the program: 0 to 2 for a script that ended, and the code of an interrupted program
for a stopped one. Mirrors `run.exit_code`. -/
def Outcome.exitCode : Outcome → Nat
  | .finished => 0
  | .failed => 1
  | .cancelled => 130
  | .channelFailure | .spawnFailure => 2

/-- A notification to the controller. Mirrors `EngineEvent`. -/
inductive Event where
  /-- The worker began. -/
  | started
  /-- The worker ended; nothing of the run follows. -/
  | stopped (outcome : Outcome)
  /-- A piece of decoded output. -/
  | output (text : String)
  /-- The line that is being executed. -/
  | currentLine (line : UInt32)
  deriving DecidableEq, Repr

namespace Event

/-- The event as one compact JSON object. -/
def toJson : Event → String
  | .started => "\x7b\"event\":\"started\"\x7d"
  | .stopped o => "\x7b\"event\":\"stopped\",\"data\":\x7b\"outcome\":" ++ Json.quote o.name ++ "\x7d\x7d"
  | .output t => "\x7b\"event\":\"output\",\"data\":" ++ Json.quote t ++ "\x7d"
  | .currentLine n => "\x7b\"event\":\"current_line\",\"data\":" ++ toString n.toNat ++ "\x7d"

/-- Neighbouring outputs joined into one. -/
def merge : List Event → List Event
  | .output a :: rest =>
    match merge rest with
    | .output b :: rest => .output (a ++ b) :: rest
    | rest => .output a :: rest
  | e :: rest => e :: merge rest
  | [] => []

end Event
end ScriptHost
