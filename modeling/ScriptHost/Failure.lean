import ScriptHost.Duration
import ScriptHost.SystemError

/-!
# Failures of the engine

A failing *script* is no failure of the engine: it shows as output and as the
outcome of its run. These are the errors of the engine's own operations, each
with a message and, for a person, a hint what to do.
-/
namespace ScriptHost

/-- What can go wrong in an operation of the engine. Mirrors `Error`. -/
inductive Failure where
  /-- The output channel could not be opened. -/
  | channel (cause : SystemError)
  /-- The worker thread could not be made. -/
  | spawn (cause : SystemError)
  /-- The worker did not end in time and was abandoned. -/
  | joinTimeout (limit : Duration)
  /-- The worker broke down outside the script. -/
  | workerPanic (text : String)
  /-- The operation is not allowed now. -/
  | invalidOperation (text : String)
  /-- There is nothing to drive the controller's side. -/
  | runtime (text : String)
  /-- An error of the system, passed on. -/
  | io (cause : SystemError)
  deriving DecidableEq, Repr

namespace Failure

/-- An engine cannot be made where no runtime drives its controller. -/
def noRuntime : Failure :=
  .runtime "there is no reactor running, must be called from the context of a Tokio 1.x runtime"

/-- One line that says what went wrong. -/
def message : Failure → String
  | .channel e => "output channel failure: " ++ e.text
  | .spawn e => "failed to spawn worker thread: " ++ e.text
  | .joinTimeout d => "worker thread did not stop within " ++ d.text ++ " and was abandoned"
  | .workerPanic t => "worker thread panicked: " ++ t
  | .invalidOperation t => "invalid operation: " ++ t
  | .runtime t => "no async runtime available: " ++ t
  | .io e => "IO error: " ++ e.text

/-- What a person can do about it; an error passed on has no hint. -/
def hint? : Failure → Option String
  | .channel _ => some ("The platform pipe/socket backing script output could not be created. " ++
      "Check the process file descriptor limit.")
  | .spawn _ => some "The OS refused to create a thread. Check system resource limits."
  | .joinTimeout _ => some
      ("The script is blocked outside the interpreter (e.g. in os.execute or io.read) " ++
      "and could not observe the stop request.")
  | .workerPanic _ => some "This is a bug in lunar; please report it."
  | .invalidOperation _ => some "Stop the running script and wait for it to finish first."
  | .runtime _ => some "Create the engine from inside a tokio runtime."
  | .io _ => none

/-- The message and, on a line of its own, the hint. Mirrors `Error.with_hint`. -/
def withHint (f : Failure) : String :=
  match f.hint? with
  | some h => f.message ++ "\n  hint: " ++ h
  | none => f.message

/-- The system's error behind it. -/
def source? : Failure → Option SystemError
  | .channel e | .spawn e | .io e => some e
  | _ => none

end Failure
end ScriptHost
