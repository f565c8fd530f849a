import ScriptHost.Script.Code
import ScriptHost.Script.Table
import ScriptHost.Script.World

/-!
# The heap

Everything that values refer to, and the world outside as the script sees it.
-/
namespace ScriptHost.Script

/-- A captured variable: a register of a running function, or a value of its own once that
function has ended. -/
inductive Cell where
  | open (thread slot : Nat)
  | closed (v : Value)
  deriving Inhabited

/-- A function of the script with its captured variables. -/
structure Closure where
  proto : Proto
  cells : Array Nat := #[]
  deriving Inhabited

/-- An error that a function of the host raises. -/
inductive HostError where
  /-- A message of a failed call. -/
  | runtime (text : Bytes)
  /-- An error of the host's own. -/
  | external (text : Bytes)
  /-- What a failing function of the host reports: the cause, and the calls at that moment. -/
  | callback (cause : HostError) (traceback : Bytes)
  deriving Inhabited

/-- The innermost cause, and the tracebacks on the way, outermost first. -/
def HostError.unfold : HostError → HostError × List Bytes
  | .callback cause traceback =>
    let (root, rest) := cause.unfold
    (root, traceback :: rest)
  | e => (e, [])

/-- Leading and trailing blanks taken off. -/
def trimBlank (b : Bytes) : Bytes :=
  let l := b.toList.dropWhile Bytes.isSpace
  Bytes.ofList (l.reverse.dropWhile Bytes.isSpace).reverse

def trimBlankEnd (b : Bytes) : Bytes :=
  Bytes.ofList (b.toList.reverse.dropWhile Bytes.isSpace).reverse

/-- The text of a host error; in nested tracebacks the part of the outer one is marked. -/
def HostError.text (e : HostError) : Bytes :=
  let (root, tracebacks) := e.unfold
  let cause := match root with
    | .runtime t => Bytes.ofText "runtime error: " ++ t
    | .external t => t
    | .callback .. => .empty
  let newline := Bytes.ofText "\n"
  match tracebacks with
  | [] => cause
  | [t] => Bytes.cat [cause, newline, trimBlankEnd t, newline]
  | t :: rest =>
    let full := rest.getLast?.getD .empty
    let header := Bytes.ofText "stack traceback:"
    let local_ := trimBlank (if t.isAt header 0 then t.extract header.size t.size else t)
    match full.find? local_ 0 with
    | some i => Bytes.cat [cause, newline, full.extract 0 i, Bytes.ofText ">",
        trimBlankEnd (full.extract i full.size), newline]
    | none => Bytes.cat [cause, newline, trimBlankEnd full, newline]

/-- What a file handle reads and writes. -/
inductive Stream where
  | file (route : Route)
  | directory
  | gate (name : String)
  | stdin
  | stdout
  | stderr
  deriving Inhabited

/-- An open file. -/
structure Handle where
  stream : Stream
  pos : Nat := 0
  readable : Bool := true
  writable : Bool := false
  append : Bool := false
  closed : Bool := false
  /-- A standard stream, which cannot be closed. -/
  standard : Bool := false
  deriving Inhabited

/-- What a userdata holds. -/
inductive Userdata where
  /-- The stand-in for standard output. -/
  | output
  | failure (e : HostError)
  | file (handle : Nat)
  deriving Inhabited

/-- The state of the generator of random numbers. -/
structure RandomState where
  s0 : UInt64 := 0x3ab02c52d1cd3a6b
  s1 : UInt64 := 0xff
  s2 : UInt64 := 0x7c41f3fe5a1d7b9d
  s3 : UInt64 := 0x9a3c62f7b1d40c15
  deriving Inhabited

structure Heap where
  tables : Array Table := #[]
  cells : Array Cell := #[]
  closures : Array Closure := #[]
  /-- Functions of the library with values of their own. -/
  bound : Array (Native × Array Value) := #[]
  userdata : Array Userdata := #[]
  handles : Array Handle := #[]
  /-- The table of global variables. -/
  globals : Nat := 0
  /-- The table of loaded modules. -/
  loaded : Nat := 0
  registry : Nat := 0
  /-- The table of the module library, and that of loaders of preloaded modules. -/
  package : Nat := 0
  preload : Nat := 0
  /-- Metatables that types other than tables share. -/
  stringMeta : Option Nat := none
  typeMetas : List (String × Nat) := []
  outputMeta : Option Nat := none
  failureMeta : Option Nat := none
  fileMeta : Option Nat := none
  /-- The default input and output files. -/
  input : Value := .nil
  output : Value := .nil
  world : World := {}
  random : RandomState := {}
  /-- The code of functions in binary form. -/
  dumped : Array Proto := #[]
  /-- The tables that were given a metatable with a finalizer, in that order. -/
  finalizable : Array Nat := #[]
  /-- The host is gone: what is written reaches nobody. -/
  deserted : Bool := false
  deriving Inhabited

namespace Heap

/-! ## Allocation -/

def newTable (h : Heap) (t : Table := {}) : Nat × Heap :=
  (h.tables.size, { h with tables := h.tables.push t })

def newCell (h : Heap) (c : Cell) : Nat × Heap :=
  (h.cells.size, { h with cells := h.cells.push c })

def newClosure (h : Heap) (c : Closure) : Nat × Heap :=
  (h.closures.size, { h with closures := h.closures.push c })

def newBound (h : Heap) (f : Native) (vs : Array Value) : Value × Heap :=
  (.bound h.bound.size, { h with bound := h.bound.push (f, vs) })

def newUserdata (h : Heap) (u : Userdata) : Value × Heap :=
  (.userdata h.userdata.size, { h with userdata := h.userdata.push u })

/-- Changes the files. -/
def modifyFiles (h : Heap) (f : Files → Files) : Heap := { h with world := h.world.modifyFiles f }

def newFailure (h : Heap) (e : HostError) : Value × Heap := h.newUserdata (.failure e)

/-! ## Tables -/

def table (h : Heap) (t : Nat) : Table := h.tables[t]?.getD {}

def modifyTable (h : Heap) (t : Nat) (f : Table → Table) : Heap :=
  { h with tables := h.tables.modify t f }

def rawGet (h : Heap) (t : Nat) (k : Value) : Value := (h.table t).get k

def rawGetText (h : Heap) (t : Nat) (k : String) : Value := (h.table t).getText k

/-- Sets a value without metamethods; the key must not be nil or a NaN. -/
def rawSet (h : Heap) (t : Nat) (k v : Value) : Heap :=
  h.modifyTable t (·.set k v)

def rawSetText (h : Heap) (t : Nat) (k : String) (v : Value) : Heap :=
  h.modifyTable t (·.setText k v)

/-! ## Metatables -/

def metatable? (h : Heap) : Value → Option Nat
  | .table t => (h.table t).metatable
  | .str _ => h.stringMeta
  | .userdata u =>
    match h.userdata[u]? with
    | some .output => h.outputMeta
    | some (.failure _) => h.failureMeta
    | some (.file _) => h.fileMeta
    | none => none
  | v => (h.typeMetas.find? (·.1 = v.typeName)).map (·.2)

end Heap

/-- The field of a metatable that handles an event. -/
def MetaEvent.key : MetaEvent → Value
  | .index => .text "__index" | .newindex => .text "__newindex" | .gc => .text "__gc"
  | .mode => .text "__mode" | .len => .text "__len" | .eq => .text "__eq" | .add => .text "__add"
  | .sub => .text "__sub" | .mul => .text "__mul" | .mod => .text "__mod" | .pow => .text "__pow"
  | .div => .text "__div" | .idiv => .text "__idiv" | .band => .text "__band"
  | .bor => .text "__bor" | .bxor => .text "__bxor" | .shl => .text "__shl" | .shr => .text "__shr"
  | .unm => .text "__unm" | .bnot => .text "__bnot" | .lt => .text "__lt" | .le => .text "__le"
  | .concat => .text "__concat" | .call => .text "__call" | .close => .text "__close"

namespace Heap

/-- A field of a value's metatable, nil when there is none. -/
def metafield (h : Heap) (v : Value) (key : Value) : Value :=
  match h.metatable? v with
  | some m => h.rawGet m key
  | none => .nil

/-- The metamethod of a value for an event. -/
def metamethod (h : Heap) (v : Value) (e : MetaEvent) : Value := h.metafield v e.key

/-- Gives a table a metatable, which marks it for finalization if it has a finalizer. -/
def setTableMeta (h : Heap) (t : Nat) (m : Option Nat) : Heap :=
  let h := h.modifyTable t fun tab => { tab with metatable := m }
  if (h.metamethod (.table t) .gc).isNil then h else { h with finalizable := h.finalizable.push t }

/-- The tables that are still to be finalized, those marked last first; a table that was marked before
is not marked again. -/
def finalizers (h : Heap) : List Nat := h.finalizable.toList.eraseDups.reverse

/-- The type of a value as error messages name it: a metatable may give a name of its own. -/
def typeName (h : Heap) (v : Value) : Bytes :=
  let own := match v with
    | .table _ | .userdata _ => h.metafield v (.text "__name")
    | _ => .nil
  match own with
  | .str s => s
  | _ => Bytes.ofText v.typeName

/-- A text that tells references apart. -/
def address (v : Value) : String :=
  let n : Nat := match v with
    | .table n => 0x1000 + n * 64
    | .closure n => 0x2000 + n * 64 + 16
    | .native f => 0x3000 + (hash (reprStr f)).toNat % 0x100000 * 16
    | .bound n => 0x4000 + n * 64 + 32
    | .userdata n => 0x5000 + n * 64 + 48
    | .thread n => 0x6000 + n * 64 + 8
    | _ => 0
  "0x" ++ String.ofList ((Nat.toDigits 16 (0x560000000000 + n)).drop 0)

end Heap
end ScriptHost.Script
