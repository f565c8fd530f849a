import ScriptHost.Duration

/-!
# Settings of an engine
-/
namespace ScriptHost

/-- Tunables of an engine. Mirrors `EngineConfig`. -/
structure Settings where
  /-- How long a shutdown waits for the worker before abandoning it. -/
  joinTimeout : Duration := .ofParts 10 0
  /-- How long a worker waits for its output to be taken before it announces its end. -/
  drainTimeout : Duration := .ofParts 2 0
  /-- Name of the script in messages and tracebacks. -/
  chunkName : String := "script"
  /-- Name of the worker threads. -/
  threadName : String := "lunar-worker"
  deriving DecidableEq, Repr, Inhabited

end ScriptHost
