import ScriptHost.Payload
import ScriptHost.SystemError

/-!
# What a worker needs of an interpreter

The worker of a run does not look into the interpreter. It loads a script, lets
it work, and answers when the script begins a line or writes; at the end it
gets the text of an error or nothing. Then it closes the interpreter, and what
the script has left to be done at that moment, its finalizers, goes on in the
same way: it works and writes, and at last it ends. `ω` is the world that all
scripts share: files, pipes, standard streams.
-/
namespace ScriptHost

/-- What a script lets its worker see. -/
inductive Signal where
  /-- It goes on by itself. -/
  | working
  /-- It goes on when the world outside lets it. -/
  | waiting
  /-- A line begins; a negative number stands for no usable line. -/
  | line (n : Int)
  /-- It writes to its output channel. -/
  | write (bytes : List UInt8)
  /-- It has ended, perhaps with the text of an error. Behind the closing: nothing is left to be
  done. -/
  | ended (failure : Option String)
  deriving Inhabited

/-- An interpreter with states `σ` in a world `ω`. -/
structure Interpreter (ω σ : Type) where
  /-- Loads a script under a chunk name. One that cannot be loaded has ended with an error. -/
  launch : ω → Payload → String → σ
  signal : σ → Signal
  /-- Goes on by itself; does nothing while it waits in vain. -/
  work : σ → ω → σ × ω
  /-- Answers a line: whether the script has to stop there. -/
  answerLine : σ → Bool → σ
  /-- Answers a write: the error, if it failed. -/
  answerWrite : σ → Option SystemError → σ
  /-- Closes the interpreter of a script that has ended: its finalizers go on from there. -/
  close : σ → σ

end ScriptHost
