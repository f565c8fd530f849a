import ScriptHost.Script.Files

/-!
# The world outside

What all scripts of a program share: the files, standard input, the environment,
the clock, and the program's own standard output and standard error. Files and
variables may be all known from the start, or be looked up as scripts ask for
them.
-/
namespace ScriptHost.Script

/-- Something outside that a script asks for. -/
inductive Wanted where
  | path (p : String)
  | variable (name : String)
  deriving DecidableEq, Repr

structure World where
  files : Files := {}
  /-- All files and variables are known. -/
  complete : Bool := true
  /-- What has been looked up. -/
  looked : List Wanted := []
  /-- What a script asks for and is to be looked up. -/
  wanted : Option Wanted := none
  /-- What is not yet read of standard input. -/
  stdin : Bytes := .empty
  /-- Standard input stays open after its last byte. -/
  stdinOpen : Bool := false
  /-- A script waits for more of it. -/
  wantsInput : Bool := false
  environment : List (String × String) := []
  /-- Nanoseconds since 1970, and nanoseconds that the scripts have worked. -/
  time : Nat := 1700000000000000000
  spent : Nat := 1000000
  /-- What is written to standard output and held back until the end or a flush. -/
  held : Bytes := .empty
  out : Bytes := .empty
  err : Bytes := .empty
  /-- A script has ended the program. -/
  exit : Option Int := none
  deriving Inhabited

namespace World

/-- The value of a variable of the environment. -/
def fromEnvironment? (w : World) (name : String) : Option String :=
  (w.environment.find? (·.1 = name)).map (·.2)

/-- Writes to standard output, which holds it back, or, if `toError`, to standard error. -/
def emit (w : World) (toError : Bool) (bytes : Bytes) : World :=
  if toError then { w with err := w.err ++ bytes } else { w with held := w.held ++ bytes }

/-- Lets go of what is held back. -/
def flush (w : World) : World := { w with out := w.out ++ w.held, held := .empty }

/-- The other side of a gate is opened or closed. -/
def setGate (w : World) (name : String) (s : GateState) : World :=
  { w with files := w.files.setGate name s }

def modifyFiles (w : World) (f : Files → Files) : World := { w with files := f w.files }

/-- It is known, whatever it is. -/
def knows (w : World) (x : Wanted) : Bool := w.complete || w.looked.contains x

/-- It has been looked up. -/
def noteLooked (w : World) (x : Wanted) : World :=
  { w with looked := x :: w.looked, wanted := none }

/-- Time passes while scripts work. -/
def pass (w : World) (nanos : Nat) : World := { w with time := w.time + nanos, spent := w.spent + nanos }

end World
end ScriptHost.Script
