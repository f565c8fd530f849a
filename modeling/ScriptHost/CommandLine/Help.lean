import ScriptHost.CommandLine.Arguments
import ScriptHost.Console

/-!
# What the program says of itself

Its version, its help, and what it answers to faulty arguments.
-/
namespace ScriptHost.CommandLine

def programName : String := "lunar"

def versionNumber : String := "0.1.0"

/-- An option as the help lists it. -/
def Key.helpLine (k : Key) : String :=
  let short := match k.short? with
    | some c => String.ofList ['-', c] ++ ", "
    | none => "    "
  "  " ++ short ++ k.text ++ "\n"

def Place.usage : Place → String
  | .top => "Usage: " ++ programName ++ " [OPTIONS] <COMMAND>"
  | .run => "Usage: " ++ programName ++ " run [OPTIONS] <SCRIPT>"
  | .watch => "Usage: " ++ programName ++ " watch [OPTIONS] <SCRIPT>"

/-- The help text of a place. -/
def Place.help (p : Place) : String :=
  let commands := match p with
    | .top => "\nCommands:\n  run    Run a script once\n  watch  Watch a script and re-run it on changes\n"
    | _ => ""
  p.usage ++ "\n" ++ commands ++ "\nOptions:\n" ++ String.join (p.keys.map Key.helpLine)

/-- The exit code after faulty arguments. -/
def faultCode : Nat := 2

/-- What arguments that name nothing to be done are answered with, and the exit code. -/
def Halt.answer : Halt → Console.Written × Nat
  | .fault f => ({ err := "error: " ++ f.message ++ "\n\nFor more information, try '--help'.\n" }, faultCode)
  | .help => ({ out := Place.top.help }, 0)
  | .version => ({ out := programName ++ " " ++ versionNumber ++ "\n" }, 0)
  | .bare => ({ err := Place.top.help }, faultCode)

end ScriptHost.CommandLine
