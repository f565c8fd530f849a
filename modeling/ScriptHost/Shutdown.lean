import ScriptHost.Engine
import ScriptHost.Instant

/-!
# Shutting down by the clock

A shutdown requests a stop, takes the worker out of the engine and looks at it
from time to time until it has ended or a deadline is reached; then the worker
is abandoned. The deadline is the moment of the call plus the join timeout,
which the clock may be unable to tell.
-/
namespace ScriptHost

/-- What a shutdown has to wait for. -/
inductive Shutdown where
  | nothing
  | worker (id : Nat) (deadline : Instant)
  /-- The clock cannot tell the deadline. -/
  | overflow
  deriving DecidableEq, Repr

namespace Engine

variable {ω σ : Type}

/-- Begins a shutdown at a moment. Mirrors `ScriptEngine.shutdown` up to its wait. -/
def shutdownAt (e : Engine ω σ) (now : Instant) : Shutdown × Engine ω σ :=
  match e.beginShutdown with
  | (none, e) => (.nothing, e)
  | (some id, e) =>
    match now.after? e.settings.joinTimeout with
    | some deadline => (.worker id deadline, e)
    | none => (.overflow, e)

/-- One look at a worker: the result of the wait, if it is over. Mirrors the loop of
`ScriptEngine.shutdown`. -/
def poll (e : Engine ω σ) (id : Nat) (deadline now : Instant) :
    Option (Except Failure Unit) × Engine ω σ :=
  if e.isAlive id then
    if deadline ≤ now then
      let (f, e) := e.abandon id
      (some (.error f), e)
    else (none, e)
  else (some (.ok ()), e)

end Engine
end ScriptHost
