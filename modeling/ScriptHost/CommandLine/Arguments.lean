import ScriptHost.Seconds

/-!
# The arguments of the program

A command, the options before and behind its name, and the script. An option
is long (`--include`) or short (`-I`); one that takes a value finds it behind
`=`, in the rest of a cluster of short options, or in the next argument. Behind
`--` there are no options any more.

An option whose value is the next argument is *pending*: it is entered, and its
value read, only when the next argument that is no value turns up. So a faulty
value is found later than an unknown option behind it.
-/
namespace ScriptHost.CommandLine

/-! ## Vocabulary -/

/-- The options. -/
inductive Key where
  | verbose | version | help | include | json | lines | joinTimeout | clear
  deriving DecidableEq, Repr

namespace Key

def long : Key → String
  | .verbose => "verbose" | .version => "version" | .help => "help" | .include => "include"
  | .json => "json" | .lines => "lines" | .joinTimeout => "join-timeout" | .clear => "clear"

def short? : Key → Option Char
  | .verbose => some 'v' | .version => some 'V' | .help => some 'h' | .include => some 'I'
  | _ => none

/-- What its value is called, if it takes one. -/
def value? : Key → Option String
  | .include => some "DIR" | .joinTimeout => some "SECS"
  | _ => none

/-- The option as messages show it. -/
def text (k : Key) : String :=
  "--" ++ k.long ++ match k.value? with
    | some v => " <" ++ v ++ ">"
    | none => ""

/-- It may be given more than once. -/
def isRepeatable (k : Key) : Bool := k = .include

end Key

/-- Where an argument stands: before the command's name or behind it. -/
inductive Place where
  | top | run | watch
  deriving DecidableEq, Repr

def Place.keys : Place → List Key
  | .top => [.verbose, .version, .help]
  | .run => [.include, .json, .lines, .joinTimeout, .verbose, .help]
  | .watch => [.include, .json, .clear, .verbose, .help]

def Place.long? (p : Place) (name : List Char) : Option Key :=
  p.keys.find? (·.long.toList = name)

def Place.short? (p : Place) (c : Char) : Option Key := p.keys.find? (·.short? = some c)

/-! ## Faults -/

/-- What is wrong with the arguments. -/
inductive Fault where
  | unknownCommand (name : String)
  | commandMissing
  | unexpected (argument : String)
  | valueMissing (k : Key)
  | valueUnexpected (k : Key) (value : String)
  | valueInvalid (k : Key) (value : String) (why : Seconds.Refusal)
  | repeated (k : Key)
  | conflict (first second : Key)
  | scriptMissing
  deriving DecidableEq, Repr

def quoted (s : String) : String := "'" ++ s ++ "'"

/-- The fault in one line, unless the arguments have more. -/
def Fault.message : Fault → String
  | .unknownCommand n => "unrecognized subcommand " ++ quoted n
  | .commandMissing => "'lunar' requires a subcommand but one was not provided"
  | .unexpected a => "unexpected argument " ++ quoted a ++ " found"
  | .valueMissing k => "a value is required for " ++ quoted k.text ++ " but none was supplied"
  | .valueUnexpected k v =>
    "unexpected value " ++ quoted v ++ " for " ++ quoted k.text ++ " found; no more were expected"
  | .valueInvalid k v why =>
    "invalid value " ++ quoted v ++ " for " ++ quoted k.text ++ ": " ++ why.message
  | .repeated k => "the argument " ++ quoted k.text ++ " cannot be used multiple times"
  | .conflict a b => "the argument " ++ quoted a.text ++ " cannot be used with " ++ quoted b.text
  | .scriptMissing => "the following required arguments were not provided:\n  <SCRIPT>"

/-- Why the arguments name nothing to be done. -/
inductive Halt where
  | fault (f : Fault)
  | help
  | version
  /-- No arguments at all. -/
  | bare
  deriving DecidableEq, Repr

/-! ## Reading a command's arguments -/

/-- What has been read behind a place. -/
structure Reading where
  place : Place
  /-- The options entered, in their order. -/
  given : List Key := []
  included : List String := []
  joinTimeout : Option Seconds := none
  script : Option String := none
  /-- An option that is not yet entered, and its value if that has turned up. -/
  pending : Option (Key × Option String) := none
  deriving Repr

namespace Reading

/-- Enters an option with the value it takes. -/
def enter (r : Reading) (k : Key) (value : String) : Except Halt Reading :=
  if r.given.contains k && !k.isRepeatable then .error (.fault (.repeated k))
  else
    let r := { r with given := r.given ++ [k] }
    match k with
    | .help => .error .help
    | .version => .error .version
    | .include => .ok { r with included := r.included ++ [value] }
    | .joinTimeout =>
      match Seconds.read value with
      | .ok s => .ok { r with joinTimeout := some s }
      | .error why => .error (.fault (.valueInvalid k value why))
    | .verbose | .json | .lines | .clear => .ok r

/-- Enters the pending option. -/
def settle (r : Reading) : Except Halt Reading :=
  match r.pending with
  | none => .ok r
  | some (k, none) => .error (.fault (.valueMissing k))
  | some (k, some v) => { r with pending := none }.enter k v

/-- A known option turns up, with the value that is attached to it. -/
def option (r : Reading) (k : Key) (attached : Option String) : Except Halt Reading :=
  match k.value?, attached with
  | none, some v => .error (.fault (.valueUnexpected k v))
  | some _, none => do
    let r ← r.settle
    pure { r with pending := some (k, none) }
  | _, _ => do
    let r ← r.settle
    r.enter k (attached.getD "")

/-- A cluster of short options. -/
def cluster (r : Reading) : List Char → Except Halt Reading
  | [] => .ok r
  | c :: rest =>
    match r.place.short? c with
    | none => .error (.fault (.unexpected (String.ofList ['-', c])))
    | some k =>
      if k.value?.isSome then
        r.option k (match rest with
          | [] => none
          | '=' :: v => some (String.ofList v)
          | v => some (String.ofList v))
      else do
        let r ← r.option k none
        r.cluster rest

/-- A long option without its dashes. -/
def longOption (r : Reading) (a : List Char) : Except Halt Reading :=
  let name := a.takeWhile (· ≠ '=')
  match r.place.long? name with
  | none => .error (.fault (.unexpected ("--" ++ String.ofList name)))
  | some k =>
    r.option k (match a.drop name.length with
      | [] => none
      | _ :: v => some (String.ofList v))

/-- An argument that is no option. -/
def positional (r : Reading) (a : String) : Except Halt Reading :=
  if r.script.isSome then .error (.fault (.unexpected a))
  else do
    let r ← r.settle
    pure { r with script := some a }

/-- An argument that is the value of the pending option, or else stands for itself. -/
def word (r : Reading) (a : String) : Except Halt Reading :=
  match r.pending with
  | some (k, none) => .ok { r with pending := some (k, some a) }
  | _ => r.positional a

/-- Reads the arguments behind a command's name. -/
def readAll (r : Reading) : List String → Except Halt Reading
  | [] => r.settle
  | a :: rest =>
    match a.toList with
    | ['-', '-'] => do
      let r ← rest.foldlM (fun r a => r.positional a) r
      r.settle
    | '-' :: '-' :: name => do (← r.longOption name).readAll rest
    | '-' :: c :: cs => do (← r.cluster (c :: cs)).readAll rest
    | _ => do (← r.word a).readAll rest

/-- Two options that exclude each other, the one given first in front. -/
def conflict? (r : Reading) : Option (Key × Key) :=
  match r.given.filter (fun k => k = .json ∨ k = .lines) with
  | a :: b :: _ => some (a, b)
  | _ => none

end Reading

/-! ## Commands -/

/-- What is to be done. -/
inductive Command where
  /-- Runs a script once. -/
  | run (script : String) (included : List String) (json lines : Bool) (joinTimeout : Option Seconds)
  /-- Runs a script again whenever it changes. -/
  | watch (script : String) (included : List String) (json clear : Bool)
  deriving Repr

structure Invocation where
  verbose : Bool
  command : Command
  deriving Repr

/-- The command whose arguments have been read. -/
def Reading.command (r : Reading) : Except Halt Command :=
  let has (k : Key) := r.given.contains k
  match r.conflict?, r.script with
  | some (a, b), _ => .error (.fault (.conflict a b))
  | none, none => .error (.fault .scriptMissing)
  | none, some script => .ok <| match r.place with
    | .watch => .watch script r.included (has .json) (has .clear)
    | _ => .run script r.included (has .json) (has .lines) r.joinTimeout

def commandNames : List String := ["run", "watch", "help"]

/-- The arguments behind `help`: at most one command. -/
def readHelp : List String → Halt
  | [] => .help
  | c :: rest =>
    if commandNames.contains c then
      match rest with
      | [] => .help
      | d :: _ => .fault (.unknownCommand d)
    else .fault (.unknownCommand c)

/-- The place behind a command's name. -/
def Place.ofName? (s : String) : Option Place :=
  if s = "run" then some .run else if s = "watch" then some .watch else none

/-- Reads the arguments from the program's name on. -/
def readTop (r : Reading) : List String → Except Halt Invocation
  | [] => .error (if r.given.isEmpty then .bare else .fault .commandMissing)
  | a :: rest =>
    match Place.ofName? a with
    | some place => do
      let below ← ({ place } : Reading).readAll rest
      let command ← below.command
      pure ⟨r.given.contains .verbose || below.given.contains .verbose, command⟩
    | none =>
      if a = "help" then .error (readHelp rest)
      else match a.toList with
        | ['-', '-'] => .error <| match rest with
          | [] => if r.given.isEmpty then .bare else .fault .commandMissing
          | b :: _ => .fault (if commandNames.contains b then .unexpected b else .unknownCommand b)
        | '-' :: '-' :: name => do readTop (← r.longOption name) rest
        | '-' :: c :: cs => do readTop (← r.cluster (c :: cs)) rest
        | _ => .error (.fault (.unknownCommand a))

/-- What the arguments ask for. -/
def Invocation.read (args : List String) : Except Halt Invocation := readTop { place := .top } args

end ScriptHost.CommandLine
