import ScriptHost.Script.Library.Modules
import ScriptHost.Script.Library.Output
import ScriptHost.Script.Library.Tables

/-!
# Global functions
-/
namespace ScriptHost.Script.Basic

open HostM

/-- Raises its first argument; a text gets the place of the function at a level of calls. -/
def raiseAt (v : Value) (level : Int64) : HostM (Array Value) := do
  match v with
  | .str s =>
    if level > 0 then
      match ← request1 (.position level.toInt.toNat) with
      | .str place => fail (.value (.str (place ++ s)))
      | _ => fail (.value v)
    else fail (.value v)
  | _ => fail (.value v)

def assert (args : Args) : HostM (Array Value) := do
  if (arg args 1).truthy then pure args
  else
    let _ ← checkAny args 1
    raiseAt (if isNone args 2 then .text "assertion failed!" else arg args 2) 1

def error (args : Args) : HostM (Array Value) := do
  let level ← optInt args 2 1
  raiseAt (arg args 1) level

def select (args : Args) : HostM (Array Value) := do
  match arg args 1 with
  | .str s =>
    if Bytes.at0 s 0 = 0x23 then pure #[.ofNat (args.size - 1)] else pick
  | _ => pick
where
  pick : HostM (Array Value) := do
    let n ← checkInt args 1
    let size : Int := args.size
    let i : Int := if n < 0 then size + n.toInt else min n.toInt size
    if i < 1 then badArg 1 "index out of range" else pure (args.extract i.toNat args.size)

/-- The digits of a numeral in a base; none when it is malformed. -/
def readBase? (s : List UInt8) (base : Nat) : Option Int :=
  let (negative, r) := Number.takeSign (Number.skipSpace s)
  let ds := r.takeWhile Bytes.isAlnum
  let value (c : UInt8) : Nat := if Bytes.isDigit c then (c - 48).toNat else (Bytes.toUpper c - 55).toNat
  if ds.isEmpty || ds.any (value · ≥ base) || !Number.atEnd (r.drop ds.length) then none
  else
    let n : Int := ds.foldl (fun n d => n * base + value d) 0
    some (if negative then -n else n)

def tonumber (args : Args) : HostM (Array Value) := do
  if isNoneOrNil args 2 then
    match arg args 1 with
    | .str s => pure #[(Number.read? s).getD .nil]
    | v =>
      if v.isNumber then pure #[v]
      else
        let _ ← checkAny args 1
        pure #[.nil]
  else
    let base ← checkInt args 2
    match arg args 1 with
    | .str s =>
      if 2 ≤ base ∧ base ≤ 36 then
        match readBase? s.toList base.toInt.toNat with
        | some n => pure #[.ofInt n]
        | none => pure #[.nil]
      else badArg 2 "base out of range"
    | _ => typeError args 1 "string"

def setmetatable (args : Args) : HostM (Array Value) := do
  let m ← match arg args 2 with
    | .nil => if isNone args 2 then pure none else pure (some none)
    | .table m => pure (some (some m))
    | _ => pure none
  let t ← checkTable args 1
  match m with
  | none => typeError args 2 "nil or table"
  | some m =>
    if !(← view (·.metafield (.table t) (.text "__metatable"))).isNil then
      HostM.error "cannot change a protected metatable"
    else
      update (·.setTableMeta t m)
      pure #[arg args 1]

def getmetatable (args : Args) : HostM (Array Value) := do
  let v ← checkAny args 1
  match ← view (·.metatable? v) with
  | none => pure #[.nil]
  | some m =>
    match ← view (·.rawGet m (.text "__metatable")) with
    | .nil => pure #[.table m]
    | guard => pure #[guard]

def pairs (args : Args) : HostM (Array Value) := do
  let v ← checkAny args 1
  match ← view (·.metafield v (.text "__pairs")) with
  | .nil => pure #[.native (.basic .next), v, .nil]
  | f =>
    let r ← request (.call f #[v] true)
    pure #[arg r 1, arg r 2, arg r 3]

def next (args : Args) : HostM (Array Value) := do
  let t ← checkTable args 1
  match ← view fun h => (h.table t).next? (arg args 2) with
  | none => failText [Bytes.ofText "invalid key to 'next'"]
  | some none => pure #[.nil]
  | some (some (k, v)) => pure #[k, v]

def ipairsStep (args : Args) : HostM (Array Value) := do
  let i := (← checkInt args 2) + 1
  match ← index (arg args 1) (.int i) with
  | .nil => pure #[.nil]
  | v => pure #[.int i, v]

def collectgarbage (args : Args) : HostM (Array Value) := do
  let what ← checkOption args 1 (some "collect")
    ["stop", "restart", "collect", "count", "step", "setpause", "setstepmul", "isrunning",
      "generational", "incremental"]
  match what with
  | "count" => do
    let size ← view fun h => h.tables.size * 64 + h.closures.size * 48 + h.cells.size * 32 + 24576
    pure #[.float (Float.ofNat size / 1024)]
  | "step" | "isrunning" => pure #[.bool true]
  | "setpause" => pure #[.int 200]
  | "setstepmul" => pure #[.int 100]
  | "generational" | "incremental" => pure #[.text "incremental"]
  | _ => pure #[.int 0]

def pcall (args : Args) : HostM (Array Value) := do
  let f ← checkAny args 1
  match ← ask (.protect f (args.extract 1 args.size) .nobody 1) with
  | .failed e => pure #[.bool false, e]
  | r => pure (#[Value.bool true] ++ valuesOf r)

def xpcall (args : Args) : HostM (Array Value) := do
  let handler ← checkFunction args 2
  match ← ask (.protect (arg args 1) (args.extract 2 args.size) (.handler handler) 3) with
  | .failed e => pure #[.bool false, e]
  | r => pure (#[Value.bool true] ++ valuesOf r)

/-- Applies a global function. -/
def run (f : BasicFn) (args : Args) : HostM (Array Value) :=
  match f with
  | .assert => assert args
  | .collectgarbage => collectgarbage args
  | .dofile => Modules.dofile args
  | .error => error args
  | .getmetatable => getmetatable args
  | .ipairs => do
    let v ← checkAny args 1
    return #[.native (.basic .ipairsStep), v, .int 0]
  | .ipairsStep => ipairsStep args
  | .load => Modules.load args
  | .loadfile => Modules.loadfile args
  | .next => next args
  | .pairs => pairs args
  | .pcall => pcall args
  | .print => Output.print args
  | .rawequal => do
    let a ← checkAny args 1
    return #[.bool (a.rawEq (← checkAny args 2))]
  | .rawget => do
    let t ← checkTable args 1
    let k ← checkAny args 2
    return #[← view (·.rawGet t k)]
  | .rawlen => do
    match arg args 1 with
    | .table t => change fun h =>
      let (n, tab) := (h.table t).border
      (#[.ofNat n], h.modifyTable t fun _ => tab)
    | .str s => return #[.ofNat s.size]
    | _ => typeError args 1 "table or string"
  | .rawset => do
    let t ← checkTable args 1
    let k ← checkAny args 2
    rawSet t k (← checkAny args 3)
    return #[arg args 1]
  | .select => select args
  | .setmetatable => setmetatable args
  | .tonumber => tonumber args
  | .tostring => do
    let v ← checkAny args 1
    return #[.str (← toText v)]
  | .type => do
    let v ← checkAny args 1
    return #[.text v.typeName]
  | .warn => do
    let _ ← checkString args 1
    for i in List.range args.size do
      let _ ← checkString args (i + 1)
    return #[]
  | .xpcall => xpcall args

end ScriptHost.Script.Basic
