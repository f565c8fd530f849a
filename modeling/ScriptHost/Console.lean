import ScriptHost.Event

/-!
# Events on a terminal

The script's output goes to standard output untouched; everything else goes to
standard error. In JSON mode every event is one line on standard output.
-/
namespace ScriptHost.Console

def reset : String := "\x1b[0m"
def bold : String := "\x1b[1m"
def dim : String := "\x1b[2m"
def green : String := "\x1b[32m"
def yellow : String := "\x1b[33m"
def cyan : String := "\x1b[36m"
def red : String := "\x1b[31m"

/-- A text in a colour. -/
def paint (colour text : String) : String := colour ++ text ++ reset

/-- How events are rendered. Mirrors `OutputMode`. -/
inductive Mode where
  /-- Output as it is; with `lines`, the course of the run on standard error. -/
  | text (lines : Bool)
  /-- One JSON object per event. -/
  | json
  deriving DecidableEq, Repr

/-- What is written to the two streams. -/
structure Written where
  out : String := ""
  err : String := ""
  deriving DecidableEq, Repr, Inhabited

instance : Append Written := ⟨fun a b => ⟨a.out ++ b.out, a.err ++ b.err⟩⟩

/-- A line on standard error. -/
def note (text : String) : Written := { err := text ++ "\n" }

/-- What the end of a run looks like. Mirrors `output.print_stopped`. -/
def renderStopped (lines : Bool) : Outcome → Written
  | .cancelled => note (paint yellow "Script stopped.")
  | .finished => if lines then note (paint green "finished") else {}
  | .failed => if lines then note (paint red "failed") else {}
  | .channelFailure | .spawnFailure => {}

/-- What an event looks like. Mirrors `EventPrinter.print` and `output.print_text`. -/
def render : Mode → Event → Written
  | .json, e => { out := e.toJson ++ "\n" }
  | .text _, .output t => { out := t }
  | .text lines, .stopped o => renderStopped lines o
  | .text true, .started => note (paint dim "started")
  | .text true, .currentLine n => note (paint dim ("line " ++ toString n.toNat))
  | .text false, _ => {}

end ScriptHost.Console
