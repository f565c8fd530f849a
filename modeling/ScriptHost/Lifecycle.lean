/-!
# Phases of a run

A phase only moves forward: from starting to running, to a requested stop, to
the end.
-/
namespace ScriptHost

/-- Where the engine's current run is. Mirrors `EngineState`. -/
inductive Phase where
  /-- No run has been started. -/
  | idle
  /-- A worker exists and has not announced itself. -/
  | starting
  /-- The worker executes the script. -/
  | running
  /-- A stop was requested and the worker has not ended. -/
  | stopRequested
  /-- The last run is over. -/
  | stopped
  deriving DecidableEq, Repr, Inhabited

namespace Phase

/-- The phase in one word. -/
def name : Phase → String
  | .idle => "idle"
  | .starting => "starting"
  | .running => "running"
  | .stopRequested => "stop_requested"
  | .stopped => "stopped"

/-- All phases, in the order in which a run passes them. -/
def all : List Phase := [.idle, .starting, .running, .stopRequested, .stopped]

/-- The phase with a given name. -/
def ofName? (s : String) : Option Phase := all.find? (·.name = s)

/-- Moves to `target` when the present phase is one of `sources`, and says whether it was. Mirrors
`SharedState.transition`. -/
def transition (p : Phase) (sources : List Phase) (target : Phase) : Bool × Phase :=
  if sources.contains p then (true, target) else (false, p)

/-- The worker announces itself; a stop requested before stays requested. -/
def begin (p : Phase) : Phase := (p.transition [.starting] .running).2

/-- A stop is requested; a run that is over stays so. -/
def requestStop (p : Phase) : Phase := (p.transition [.starting, .running] .stopRequested).2

end Phase
end ScriptHost
