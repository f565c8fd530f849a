import ScriptHost.Script.Host

/-!
# Output of a script

`print`, `io.write` and the stand-in for standard output put all their
arguments together first and then write once. An argument that cannot be
converted stops the call before anything is written. Their errors are errors
of the host.
-/
namespace ScriptHost.Script.Output

open HostM

def raise {α : Type} (e : HostError) : HostM α := fail (.host e)

def runtimeError {α : Type} (text : String) : HostM α := raise (.runtime (Bytes.ofText text))

/-- Calls a value; a failure of it is a failure of the host. -/
def guarded (f : Value) (args : Array Value) : HostM (Array Value) := do
  match ← ask (.protect f args (.handler (.native (.host .withTraceback))) 0) with
  | .failed (.str s) => raise (.runtime s)
  | .failed (.userdata u) => do
    match ← view (·.userdata[u]?) with
    | some (.failure e) => raise e
    | _ => runtimeError "<unprintable error>"
  | .failed _ => runtimeError "<unprintable error>"
  | r => pure (valuesOf r)

/-- The type of a value as the host names it. -/
def typeName (h : Heap) (v : Value) : String :=
  match v with
  | .userdata u => match h.userdata[u]? with
    | some (.failure _) => "error"
    | _ => "userdata"
  | v => v.typeName

/-- A value has a type that cannot be converted. -/
def conversionError {α : Type} (v : Value) (wanted : String) : HostM α := do
  let given ← view (typeName · v)
  raise (.external (Bytes.ofText s!"error converting Lua {given} to {wanted}"))

/-- The current global function `tostring`. -/
def currentToText : HostM Value := do
  let globals ← view (·.globals)
  let f ← index (.table globals) (.text "tostring")
  if f.isFunction then pure f else conversionError f "function"

/-- Writes to the output channel. -/
def emit (b : Bytes) : HostM Unit := do
  match ← ask (.write b) with
  | .failed (.str s) => raise (.external s)
  | _ => pure ()

/-- Arguments as the words of a line. Mirrors `stdio.format_print_args`. -/
def words (toText : Value) : List Value → Bool → Bytes → HostM Bytes
  | [], _, out => pure out
  | v :: r, first, out => do
    let out := if first then out else out.push 0x09
    match arg (← guarded toText #[v]) 1 with
    | .str s => words toText r false (out ++ s)
    | _ => runtimeError "'tostring' must return a string to 'print'"

def print (args : Args) : HostM (Array Value) := do
  let toText ← currentToText
  let line ← words toText args.toList true .empty
  emit (line.push 0x0A)
  pure #[]

/-- Strings as they are and numbers by `tostring`, one behind the other. -/
def pieces : List Value → Nat → Bytes → HostM Bytes
  | [], _, out => pure out
  | v :: r, n, out => do
    match v with
    | .str s => pieces r (n + 1) (out ++ s)
    | .int _ | .float _ => do
      let toText ← currentToText
      match arg (← guarded toText #[v]) 1 with
      | .str s => pieces r (n + 1) (out ++ s)
      | w =>
        if w.isNumber then pieces r (n + 1) (out ++ Number.toBytes w)
        else conversionError w "string (expected string or number)"
    | v => do
      let given ← view (typeName · v)
      runtimeError s!"bad argument #{n} to 'write' (string expected, got {given})"

/-- Writes the arguments to the stand-in `output`, which is the result. Mirrors
`stdio.write_values`. -/
def write (output : Value) (args : List Value) : HostM (Array Value) := do
  let isOutput ← view fun h => match output with
    | .userdata u => match h.userdata[u]? with
      | some .output => true
      | _ => false
    | _ => false
  if !isOutput then raise (.external (Bytes.ofText "userdata is not expected type"))
  else
    emit (← pieces args 1 .empty)
    pure #[output]

/-- The stand-in a method is applied to. -/
def receiver (args : Args) (method : String) : HostM Value := do
  let v := arg args 1
  let given ← view (typeName · v)
  if given = "userdata" then pure v
  else
    raise (.external (Bytes.ofText
      s!"bad argument #1 to `ScriptStdout.{method}`: error converting Lua {given} to userdata"))

/-- An error with the calls that led to it; errors of the host keep their own. -/
def withTraceback (args : Args) : HostM (Array Value) := do
  let v := arg args 1
  if (← view (typeName · v)) = "error" then pure #[v]
  else request (.traceback none (some (← toText v)) 0)

/-- Applies a function of the host. -/
def run (f : HostFn) (state : Array Value) (args : Args) : HostM (Array Value) :=
  match f with
  | .write => write (arg state 1) args.toList
  | .stdoutWrite => do
    let out ← receiver args "write"
    write out (args.toList.drop 1)
  | .stdoutFlush => do return #[← receiver args "flush"]
  | .stdoutSetvbuf => pure #[.bool true]
  | .stdoutClose => pure #[.nil, .text "cannot close standard file"]
  | .stdoutText => do
    match ← view fun h => match arg args 1 with
      | .userdata u => match h.userdata[u]? with
        | some .output => true
        | _ => false
      | _ => false with
    | true => pure #[.text "file (stdout)"]
    | false => raise (.external (Bytes.ofText
        "bad argument `self` to `ScriptStdout.__tostring`: userdata is not expected type"))
  | .failureText => do
    match arg args 1 with
    | .userdata u => do
      match ← view (·.userdata[u]?) with
      | some (.failure e) => pure #[.str e.text]
      | _ => pure #[.text "<unknown>"]
    | _ => pure #[.text "<unknown>"]
  | .withTraceback => withTraceback args
  | .poll => request .poll
  | .cancel => request .cancel

end ScriptHost.Script.Output
