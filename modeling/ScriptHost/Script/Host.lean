import ScriptHost.Script.Heap

/-!
# Functions of the library as trees of requests

A function that is not written in the script's language works on the heap and
may ask the machine for something: to call a value, to write output, to say
where its caller is. `Action` is the tree of its requests; every reply of the
machine selects a subtree. So the library is defined without the machine, and
what a function does can be read off its tree.
-/
namespace ScriptHost.Script

/-- Why a function of the library fails. -/
inductive Fault where
  /-- Any value, raised as it is. -/
  | value (v : Value)
  /-- A message; the caller's place is put before it. -/
  | message (text : Bytes)
  /-- Something is wrong with the `n`-th argument. -/
  | argument (n : Nat) (text : Bytes)
  /-- An error of the host. -/
  | host (e : HostError)
  deriving Inhabited

/-- What is known about an active function or about a function value. -/
structure Info where
  func : Value := .nil
  /-- How the function was called: `global`, `local`, `method`, `field` and the like; empty if unknown. -/
  nameKind : String := ""
  name : Bytes := .empty
  /-- The function's source as it was given, and as messages show it. -/
  source : Bytes := .empty
  shortSource : Bytes := .empty
  what : String := "C"
  currentLine : Int := -1
  firstLine : Int := -1
  lastLine : Int := -1
  captures : Nat := 0
  params : Nat := 0
  isVararg : Bool := true
  isTail : Bool := false
  activeLines : Option (List Nat) := none
  deriving Inhabited

/-- Which function is meant: an active one by its level, or a value. -/
inductive Subject where
  | level (n : Nat)
  | value (v : Value)
  deriving Inhabited

/-- Who sees an error at the place where it is raised, before it is caught. -/
inductive Guarding where
  | nobody
  | handler (f : Value)
  /-- Whoever would see it without the guard. -/
  | inherited
  deriving Inhabited

/-- The state of a coroutine. -/
inductive CoStatus where
  | suspended | running | normal | dead
  deriving DecidableEq, Repr, Inhabited

def CoStatus.name : CoStatus → String
  | .suspended => "suspended" | .running => "running" | .normal => "normal" | .dead => "dead"

/-- What a function of the library asks the machine for. -/
inductive Request where
  /-- Calls a value. Inside, a coroutine can yield only if the call is `yieldable`. -/
  | call (f : Value) (args : Array Value) (yieldable : Bool)
  /-- Calls a value and catches its errors. The called function stands `offset` registers behind
  the caller. -/
  | protect (f : Value) (args : Array Value) (guarding : Guarding) (offset : Nat)
  /-- A new coroutine with a body. -/
  | newThread (body : Value)
  | resume (thread : Nat) (args : Array Value)
  | yield (values : Array Value)
  | closeThread (thread : Nat)
  /-- The state of a coroutine, as a text. -/
  | status (thread : Nat)
  /-- The running coroutine, and whether it is the main one. -/
  | running
  | isYieldable (thread : Option Nat)
  /-- The place of an active function as it stands before messages. -/
  | position (level : Nat)
  | traceback (thread : Option Nat) (message : Option Bytes) (level : Nat)
  | info (thread : Option Nat) (subject : Subject)
  /-- Name and value of a variable of an active function. -/
  | getLocal (thread : Option Nat) (level : Nat) (n : Int)
  | setLocal (thread : Option Nat) (level : Nat) (n : Int) (v : Value)
  /-- Reads and writes the captured variable in a cell. -/
  | getCell (cell : Nat)
  | setCell (cell : Nat) (v : Value)
  /-- Sets a function that is called for the events in `mask`, or takes the hook away. -/
  | setHook (thread : Option Nat) (f : Value) (mask : Bytes) (count : Nat)
  | getHook (thread : Option Nat)
  /-- Writes to the run's output channel. -/
  | write (bytes : Bytes)
  /-- Waits until the other side of a gate is open. -/
  | openGate (name : String)
  /-- Waits until the other side of a gate is closed. -/
  | awaitGate (name : String)
  /-- Waits until standard input holds more than so many bytes or is closed. -/
  | awaitInput (size : Nat)
  /-- Has something outside looked up. -/
  | look (x : Wanted)
  /-- Writes to the program's own standard output or, if `toError`, standard error. -/
  | emit (toError : Bool) (bytes : Bytes)
  /-- Lets go of what is held back of the program's own standard output. -/
  | flush
  /-- Takes the events that are queued. -/
  | poll
  /-- Requests that the run stops. -/
  | cancel
  /-- Ends the program. -/
  | exit (code : Int)
  deriving Inhabited

/-- The machine's answer to a request. -/
inductive Reply where
  | ok (values : Array Value)
  | failed (v : Value)
  | info (i : Option Info)
  deriving Inhabited

/-- What a function of the library does from some moment on. -/
inductive Action (α : Type) where
  | done (a : α) (h : Heap)
  | fail (f : Fault) (h : Heap)
  | ask (r : Request) (h : Heap) (next : Reply → Heap → Action α)

namespace Action

variable {α β : Type}

/-- What comes after an action. -/
def bind : Action α → (α → Heap → Action β) → Action β
  | .done a h, f => f a h
  | .fail e h, _ => .fail e h
  | .ask r h next, f => .ask r h fun x h => (next x h).bind f

instance : Inhabited (Action α) := ⟨.fail default default⟩

end Action

/-- A computation on the heap that may ask the machine. -/
def HostM (α : Type) : Type := Heap → Action α

namespace HostM

variable {α β : Type}

@[inline] protected def pure (a : α) : HostM α := fun h => .done a h

@[inline] protected def bind (x : HostM α) (f : α → HostM β) : HostM β := fun h =>
  match x h with
  | .done a h => f a h
  | .fail e h => .fail e h
  | .ask r h next => .ask r h fun x h => (next x h).bind f

instance : Monad HostM where
  pure := HostM.pure
  bind := HostM.bind

instance : Inhabited (HostM α) := ⟨fun h => .fail default h⟩

/-- Fails. -/
def fail (f : Fault) : HostM α := fun h => .fail f h

/-- Fails with a message that names the caller's place. -/
def error (text : String) : HostM α := fail (.message (Bytes.ofText text))

def errorBytes (parts : List Bytes) : HostM α := fail (.message (Bytes.cat parts))

/-- Fails with a message without a place, as operations on values do. -/
def failText (parts : List Bytes) : HostM α := fail (.value (.str (Bytes.cat parts)))

/-- The `n`-th argument (from 1) is wrong. -/
def badArg (n : Nat) (text : String) : HostM α := fail (.argument n (Bytes.ofText text))

/-- A value computed from the heap. -/
@[inline] def view (f : Heap → α) : HostM α := fun h =>
  let a := f h
  .done a h

/-- A step that changes the heap. -/
@[inline] def change (f : Heap → α × Heap) : HostM α := fun h =>
  let (a, h) := f h
  .done a h

@[inline] def update (f : Heap → Heap) : HostM Unit := fun h => .done () (f h)

def ask (r : Request) : HostM Reply := fun h => .ask r h .done

/-- The values of a reply. -/
def valuesOf : Reply → Array Value
  | .ok vs => vs
  | _ => #[]

def request (r : Request) : HostM (Array Value) := do return valuesOf (← ask r)

def request1 (r : Request) : HostM Value := do return (valuesOf (← ask r))[0]?.getD .nil

/-- Has a path looked up before the files are asked for it. -/
def look (path : Bytes) : HostM Unit := do
  let _ ← ask (.look (.path path.toText))

/-- Calls a value; its errors pass through. -/
def call (f : Value) (args : Array Value) : HostM (Array Value) := request (.call f args false)

def call1 (f : Value) (args : Array Value) : HostM Value := do return (← call f args)[0]?.getD .nil

/-! ## Arguments -/

/-- The arguments of a call. -/
abbrev Args := Array Value

/-- The `n`-th argument, from 1; nil when it is absent. -/
def arg (args : Args) (n : Nat) : Value := args[n - 1]?.getD .nil

def isNone (args : Args) (n : Nat) : Bool := args.size < n

def isNoneOrNil (args : Args) (n : Nat) : Bool := (arg args n).isNil

/-- The `n`-th argument has another type than the one expected. -/
def typeError (args : Args) (n : Nat) (wanted : String) : HostM α := do
  let given ← view fun h =>
    if isNone args n then Bytes.ofText "no value"
    else match h.metafield (arg args n) (.text "__name") with
      | .str s => s
      | _ => Bytes.ofText (arg args n).typeName
  fail (.argument n (Bytes.cat [Bytes.ofText (wanted ++ " expected, got "), given]))

def checkAny (args : Args) (n : Nat) : HostM Value :=
  if isNone args n then badArg n "value expected" else pure (arg args n)

def checkTable (args : Args) (n : Nat) : HostM Nat :=
  match arg args n with
  | .table t => pure t
  | _ => typeError args n "table"

def checkFunction (args : Args) (n : Nat) : HostM Value :=
  if (arg args n).isFunction then pure (arg args n) else typeError args n "function"

def checkInt (args : Args) (n : Nat) : HostM Int64 :=
  match arg args n with
  | .int i => pure i
  | v =>
    match Number.coerceInt? v with
    | some i => pure i
    | none =>
      if (Number.ofValue? v).isSome then badArg n "number has no integer representation"
      else typeError args n "number"

def optInt (args : Args) (n : Nat) (dflt : Int64) : HostM Int64 :=
  if isNoneOrNil args n then pure dflt else checkInt args n

/-- The argument as a number. -/
def checkNumber (args : Args) (n : Nat) : HostM Value :=
  match Number.ofValue? (arg args n) with
  | some v => pure v
  | none => typeError args n "number"

def checkFloat (args : Args) (n : Nat) : HostM Float :=
  match Number.coerceFloat? (arg args n) with
  | some f => pure f
  | none => typeError args n "number"

def checkString (args : Args) (n : Nat) : HostM Bytes :=
  match arg args n with
  | .str s => pure s
  | v => if v.isNumber then pure (Number.toBytes v) else typeError args n "string"

/-- A string that a function in C takes: a name, a path or an option. -/
def checkCString (args : Args) (n : Nat) : HostM Bytes := do return (← checkString args n).untilNul

def optString (args : Args) (n : Nat) (dflt : Bytes) : HostM Bytes :=
  if isNoneOrNil args n then pure dflt else checkString args n

/-- The argument is one of a list of words. -/
def checkOption (args : Args) (n : Nat) (dflt : Option String) (words : List String) : HostM String := do
  let b ← match dflt with
    | some d => do pure (← optString args n (Bytes.ofText d)).untilNul
    | none => checkCString args n
  match words.find? (fun w => Bytes.ofText w == b) with
  | some w => pure w
  | none => fail (.argument n (Bytes.cat [Bytes.ofText "invalid option '", b, Bytes.ofText "'"]))

/-- A coroutine as an argument. -/
def checkThread (args : Args) (n : Nat) : HostM Nat :=
  match arg args n with
  | .thread t => pure t
  | _ => typeError args n "thread"

end HostM

/-! ## Values and their metatables -/

/-- More than any script can need of anything. -/
def plenty : Nat := 0x10000000000

/-- How far chains of `__index` and `__newindex` are followed. -/
def maxChain : Nat := 2000

/-- What indexing a value comes to. -/
inductive Lookup where
  | value (v : Value)
  /-- A function has to be called with the value and the key. -/
  | handler (f self : Value)
  /-- The value cannot be indexed; `direct` when it is the value that the script indexes. -/
  | bad (v : Value) (direct : Bool)
  | endless

/-- Reads `v[key]`; `direct` while `v` is the value that the script indexes. -/
def Heap.lookUp (h : Heap) (v key : Value) (direct : Bool) : Nat → Lookup
  | 0 => .endless
  | fuel + 1 =>
    match v with
    | .table t =>
      let tab := h.table t
      match tab.get key with
      | .nil =>
        match tab.metatable with
        | none => .value .nil
        | some m =>
          match h.rawGet m MetaEvent.index.key with
          | .nil => .value .nil
          | f => if f.isFunction then .handler f v else h.lookUp f key false fuel
      | r => .value r
    | _ =>
      match h.metamethod v .index with
      | .nil => .bad v direct
      | f => if f.isFunction then .handler f v else h.lookUp f key false fuel

/-- What setting an index comes to. -/
inductive Target where
  /-- The table takes the pair. -/
  | table (t : Nat)
  | handler (f self : Value)
  | bad (v : Value) (direct : Bool)
  | endless

/-- Finds where `v[key]` is to be stored. -/
def Heap.target (h : Heap) (v key : Value) (direct : Bool) : Nat → Target
  | 0 => .endless
  | fuel + 1 =>
    match v with
    | .table t =>
      let tab := h.table t
      match tab.metatable with
      | none => .table t
      | some m =>
        if !(tab.get key).isNil then .table t
        else match h.rawGet m MetaEvent.newindex.key with
          | .nil => .table t
          | f => if f.isFunction then .handler f v else h.target f key false fuel
    | _ =>
      match h.metamethod v .newindex with
      | .nil => .bad v direct
      | f => if f.isFunction then .handler f v else h.target f key false fuel

/-- What a bad key of a table is reported as. -/
def Table.BadKey.text : Table.BadKey → String
  | .nil => "table index is nil"
  | .nan => "table index is NaN"

namespace HostM

/-- Reads `v[key]` with metamethods. -/
def index (v key : Value) : HostM Value := do
  match ← view (·.lookUp v key true maxChain) with
  | .value r => pure r
  | .handler f self => call1 f #[self, key]
  | .bad v _ => do
    let name ← view (·.typeName v)
    failText [Bytes.ofText "attempt to index a ", name, Bytes.ofText " value"]
  | .endless => failText [Bytes.ofText "'__index' chain too long; possibly a loop"]

/-- Sets `v[key]` without metamethods. -/
def rawSet (t : Nat) (key val : Value) : HostM Unit := fun h =>
  match Table.badKey? key with
  | some e => .fail (.value (.text e.text)) h
  | none => .done () (h.rawSet t key val)

/-- Sets `v[key]` with metamethods. -/
def setIndex (v key val : Value) : HostM Unit := do
  match ← view (·.target v key true maxChain) with
  | .table t => rawSet t key val
  | .handler f self =>
    let _ ← call f #[self, key, val]
  | .bad v _ => do
    let name ← view (·.typeName v)
    failText [Bytes.ofText "attempt to index a ", name, Bytes.ofText " value"]
  | .endless => failText [Bytes.ofText "'__newindex' chain too long; possibly a loop"]

/-- The text that stands for a value without a metamethod. -/
def plainText (h : Heap) (v : Value) : Bytes :=
  match v with
  | .nil => Bytes.ofText "nil"
  | .bool b => Bytes.ofText (if b then "true" else "false")
  | .int _ | .float _ => Number.toBytes v
  | .str s => s
  | _ =>
    let kind := match h.metafield v (.text "__name") with
      | .str s => s
      | _ => Bytes.ofText v.typeName
    Bytes.cat [kind, Bytes.ofText ": ", Bytes.ofText (Heap.address v)]

/-- The text of a value, by its metamethod if there is one. -/
def toText (v : Value) : HostM Bytes := do
  match ← view (·.metafield v (.text "__tostring")) with
  | .nil => view (plainText · v)
  | f =>
    match ← call1 f #[v] with
    | .str s => pure s
    | r => if r.isNumber then pure (Number.toBytes r) else error "'__tostring' must return a string"

/-- A new table as a value. -/
def newTable (t : Table) : HostM Value := change fun h =>
  let (i, h) := h.newTable t
  (.table i, h)

/-- The length of a value, by its metamethod if there is one. -/
def lengthOf (v : Value) : HostM Value := do
  match v with
  | .str s => pure (.ofNat s.size)
  | _ =>
    match ← view (·.metamethod v .len) with
    | .nil =>
      match v with
      | .table t => change fun h =>
        let (n, tab) := (h.table t).border
        (.ofNat n, h.modifyTable t fun _ => tab)
      | _ => do
        let name ← view (·.typeName v)
        failText [Bytes.ofText "attempt to get length of a ", name, Bytes.ofText " value"]
    | f => call1 f #[v]

/-- The length as an integer. -/
def checkLength (v : Value) : HostM Int64 := do
  match Number.toInt? (← lengthOf v) with
  | some n => pure n
  | none => error "object length is not an integer"

/-- The message for two values that have no order. -/
def orderMessage (h : Heap) (a b : Value) : Bytes :=
  let x := h.typeName a
  let y := h.typeName b
  if x == y then Bytes.cat [Bytes.ofText "attempt to compare two ", x, Bytes.ofText " values"]
  else Bytes.cat [Bytes.ofText "attempt to compare ", x, Bytes.ofText " with ", y]

/-- `a < b` with metamethods. -/
def lessThan (a b : Value) : HostM Bool := do
  match Number.lt? a b with
  | some r => pure r
  | none =>
    match a, b with
    | .str x, .str y => pure (Bytes.less x y)
    | _, _ =>
      let f ← view fun h =>
        let f := h.metamethod a .lt
        if f.isNil then h.metamethod b .lt else f
      if f.isNil then do
        failText [← view (orderMessage · a b)]
      else return (← call1 f #[a, b]).truthy

/-- `a == b` with metamethods. -/
def equal (a b : Value) : HostM Bool := do
  if a.rawEq b then pure true
  else
    match a, b with
    | .table _, .table _ | .userdata _, .userdata _ =>
      let f ← view fun h =>
        let f := h.metamethod a .eq
        if f.isNil then h.metamethod b .eq else f
      if f.isNil then pure false else return (← call1 f #[a, b]).truthy
    | _, _ => pure false

end HostM
end ScriptHost.Script
