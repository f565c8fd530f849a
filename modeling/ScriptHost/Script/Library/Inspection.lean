import ScriptHost.Script.Library.Strings

/-!
# Looking into the machine

Functions that show active functions, their variables and tracebacks, and that
set a hook.
-/
namespace ScriptHost.Script.Inspection

open HostM

/-- An optional coroutine as first argument, and the number of arguments it takes. -/
def target (args : Args) : Option Nat × Nat :=
  match arg args 1 with
  | .thread t => (some t, 1)
  | _ => (none, 0)

/-- The options of `getinfo` that select fields. -/
def isOption (c : Char) : Bool := "SlnrutLf".toList.contains c

/-- The table that `getinfo` gives. -/
def infoTable (i : Info) (has : Char → Bool) : HostM Value := do
  let put (name : String) (v : Value) (t : Table) : Table := t.setText name v
  let t : Table := {}
  let t := if !has 'S' then t else
    put "what" (.text i.what) <| put "lastlinedefined" (.ofInt i.lastLine) <|
      put "linedefined" (.ofInt i.firstLine) <| put "short_src" (.str i.shortSource) <|
        put "source" (.str i.source) t
  let t := if !has 'l' then t else put "currentline" (.ofInt i.currentLine) t
  let t := if !has 'u' then t else
    put "isvararg" (.bool i.isVararg) <| put "nparams" (.ofNat i.params) <| put "nups" (.ofNat i.captures) t
  let t := if !has 'n' then t else
    put "namewhat" (.text i.nameKind) <| if i.nameKind = "" then t else put "name" (.str i.name) t
  let t := if !has 'r' then t else put "ntransfer" (.int 0) <| put "ftransfer" (.int 0) t
  let t := if !has 't' then t else put "istailcall" (.bool i.isTail) t
  let t ← if !has 'L' then pure t else match i.activeLines with
    | none => pure t
    | some lines => do
      let set := lines.foldl (fun s n => s.setInt (Int64.ofNat n) (.bool true)) ({} : Table)
      let v ← newTable set
      pure (put "activelines" v t)
  let t := if !has 'f' then t else put "func" i.func t
  newTable t

def getinfo (args : Args) : HostM (Array Value) := do
  let (thread, k) := target args
  let opts ← optString args (k + 2) (Bytes.ofText "flnSrtu")
  if Bytes.at0 opts 0 = 0x3E then badArg (k + 2) "invalid option '>'"
  let subject : Subject ← do
    let v := arg args (k + 1)
    if v.isFunction then pure (.value v)
    else do
      let n ← checkInt args (k + 1)
      -- a negative level is as far away as one that is too large
      pure (.level (if n < 0 then plenty else n.toInt.toNat))
  let letters := opts.toList.map fun c => Char.ofNat c.toNat
  match ← ask (.info thread subject) with
  | .info (some i) =>
    if !letters.all isOption then badArg (k + 2) "invalid option"
    else pure #[← infoTable i letters.contains]
  | _ => pure #[.nil]

def traceback (args : Args) : HostM (Array Value) := do
  let (thread, k) := target args
  let msg := arg args (k + 1)
  let text? : Option (Option Bytes) := match msg with
    | .nil => some none
    | .str s => some (some s)
    | v => if v.isNumber then some (some (Number.toBytes v)) else none
  match text? with
  | none => pure #[msg]
  | some text =>
    let level ← optInt args (k + 2) (if thread.isSome then 0 else 1)
    request (.traceback thread text (if level < 0 then plenty else level.toInt.toNat))

/-! ## Captured variables -/

/-- The name of the `n`-th captured variable of a function of the script, and its cell. -/
def captured? (h : Heap) (f : Value) (n : Int64) : Option (Bytes × Nat) :=
  match f with
  | .closure c =>
    let cl := h.closures[c]?.getD default
    if n < 1 then none
    else
      let i := (n - 1).toInt.toNat
      match cl.proto.captures[i]?, cl.cells[i]? with
      | some cap, some cell => some (cap.name, cell)
      | _, _ => none
  | _ => none

/-- The name a captured variable is shown under; one without a name has a sign in its place. -/
def shownName (name : Bytes) : Value := if name.isEmpty then .text "(no name)" else .str name

def getupvalue (args : Args) : HostM (Array Value) := do
  let n ← checkInt args 2
  let f ← checkFunction args 1
  match ← view (captured? · f n) with
  | none => pure #[]
  | some (name, cell) => pure #[shownName name, ← request1 (.getCell cell)]

def setupvalue (args : Args) : HostM (Array Value) := do
  let v ← checkAny args 3
  let n ← checkInt args 2
  let f ← checkFunction args 1
  match ← view (captured? · f n) with
  | none => pure #[]
  | some (name, cell) =>
    let _ ← request (.setCell cell v)
    pure #[shownName name]

/-- The cell of a captured variable that is asked for by its number. -/
def cellArg (args : Args) (fArg nArg : Nat) : HostM (Value × Int64 × Option Nat) := do
  let n ← checkInt args nArg
  let f ← checkFunction args fArg
  pure (f, n, (← view (captured? · f n)).map (·.2))

def upvalueid (args : Args) : HostM (Array Value) := do
  match ← cellArg args 1 2 with
  | (_, _, some cell) => pure #[.userdata (1000000000 + cell)]
  | _ => pure #[.nil]

def upvaluejoin (args : Args) : HostM (Array Value) := do
  let (f, n, a) ← cellArg args 1 2
  if a.isNone then badArg 2 "invalid upvalue index"
  else
    let (_, _, b) ← cellArg args 3 4
    match f, b with
    | .closure c, some cell =>
      update fun h => { h with
        closures := h.closures.modify c fun cl =>
          { cl with cells := cl.cells.setIfInBounds (n - 1).toInt.toNat cell } }
      pure #[]
    | _, _ => badArg 4 "invalid upvalue index"

/-! ## Local variables -/

def levelArg (args : Args) (n : Nat) : HostM Nat := do
  let l ← checkInt args n
  pure (if l < 0 then plenty else l.toInt.toNat)

/-- The name of a parameter of a function that is not active. -/
def parameterName (h : Heap) (f : Value) (n : Int) : Value :=
  match f with
  | .closure c =>
    match (h.closures[c]?.getD default).proto.localName? n.toNat 0 with
    | some name => .str name
    | none => .nil
  | _ => .nil

def getlocal (args : Args) : HostM (Array Value) := do
  let (thread, k) := target args
  let n := (← checkInt args (k + 2)).toInt
  let f := arg args (k + 1)
  if f.isFunction then do
    pure #[← view (parameterName · f n)]
  else
    let level ← levelArg args (k + 1)
    match ← ask (.getLocal thread level n) with
    | .failed _ => badArg (k + 1) "level out of range"
    | r => pure (valuesOf r)

def setlocal (args : Args) : HostM (Array Value) := do
  let (thread, k) := target args
  let level ← levelArg args (k + 1)
  let n := (← checkInt args (k + 2)).toInt
  let v ← checkAny args (k + 3)
  match ← ask (.setLocal thread level n v) with
  | .failed _ => badArg (k + 1) "level out of range"
  | r => pure (valuesOf r)

/-! ## Metatables and hooks -/

def getmetatable (args : Args) : HostM (Array Value) := do
  let v ← checkAny args 1
  match ← view (·.metatable? v) with
  | some m => pure #[.table m]
  | none => pure #[.nil]

/-- Gives a value, or all values of its type, a metatable. -/
def Heap.setMetatable (h : Heap) (v : Value) (m : Option Nat) : Heap :=
  match v with
  | .table t => h.setTableMeta t m
  | .str _ => { h with stringMeta := m }
  | .userdata u =>
    match h.userdata[u]? with
    | some .output => { h with outputMeta := m }
    | some (.failure _) => { h with failureMeta := m }
    | some (.file _) => { h with fileMeta := m }
    | none => h
  | v =>
    let rest := h.typeMetas.filter (·.1 != v.typeName)
    { h with typeMetas := match m with
      | some m => (v.typeName, m) :: rest
      | none => rest }

def setmetatable (args : Args) : HostM (Array Value) := do
  let v := arg args 1
  match arg args 2 with
  | .nil =>
    if isNone args 2 then typeError args 2 "nil or table"
    else
      update (Heap.setMetatable · v none)
      pure #[v]
  | .table m =>
    update (Heap.setMetatable · v (some m))
    pure #[v]
  | _ => typeError args 2 "nil or table"

def sethook (args : Args) : HostM (Array Value) := do
  let (thread, k) := target args
  if isNoneOrNil args (k + 1) then request (.setHook thread .nil .empty 0)
  else
    let mask ← checkString args (k + 2)
    let f ← checkFunction args (k + 1)
    let count ← optInt args (k + 3) 0
    let count := if count < 0 then 0 else count.toInt.toNat
    request (.setHook thread f mask count)

/-- Applies a function that looks into the machine. -/
def run (f : DebugFn) (args : Args) : HostM (Array Value) :=
  match f with
  | .gethook => request (.getHook (target args).1)
  | .getinfo => getinfo args
  | .getlocal => getlocal args
  | .setlocal => setlocal args
  | .getmetatable => getmetatable args
  | .setmetatable => setmetatable args
  | .getregistry => do return #[.table (← view (·.registry))]
  | .getupvalue => getupvalue args
  | .setupvalue => setupvalue args
  | .upvalueid => upvalueid args
  | .upvaluejoin => upvaluejoin args
  | .getuservalue => pure #[.nil]
  | .setuservalue => pure #[.nil]
  | .setcstacklimit => pure #[.int 200]
  | .sethook => sethook args
  | .traceback => traceback args
  | .debug => pure #[]

end ScriptHost.Script.Inspection
