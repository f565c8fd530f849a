import ScriptHost.Script.Library.Strings
import ScriptHost.Script.Machine.Calls

/-!
# Instructions

What one instruction does. The counter of the running function already points
behind it, and the next instruction is what the machine does next unless the
instruction calls something, jumps, returns or raises an error.
-/
namespace ScriptHost.Script.Machine

/-! ## Operands -/

def constant (m : Machine) (n : Nat) : Value := m.frame.proto.constants[n]?.getD .nil

/-- The last operand: a constant or a register. -/
def operand (m : Machine) (i : Instr) : Value := if i.k then m.constant i.c else m.reg i.c

/-- Skips the next instruction. -/
def skip (m : Machine) : Machine := { m with frame := { m.frame with pc := m.frame.pc + 1 } }

/-- Goes on at a distance from the next instruction. -/
def jump (m : Machine) (distance : Int) : Machine :=
  { m with frame := { m.frame with pc := ((m.frame.pc : Int) + distance).toNat } }

/-- The argument of the instruction behind the present one. -/
def extraArg (m : Machine) : Nat := (m.frame.proto.instr m.frame.pc).j.toNat

/-- Calls a metamethod for the instruction. -/
def callMeta (m : Machine) (f : Value) (args : Array Value) (role : Role) : Machine :=
  m.callAbove m.frame.top f args (some 1) role .nested

/-- The metamethod of the first of two values that has one. -/
def metaOf (m : Machine) (x y : Value) (e : MetaEvent) : Value :=
  let f := m.heap.metamethod x e
  if f.isNil then m.heap.metamethod y e else f

/-! ## Tables -/

/-- Reading an integer index moves the border hint of the table. -/
def touch (m : Machine) (v key : Value) : Machine :=
  match v, key with
  | .table t, .int n =>
    let tab := m.heap.table t
    if tab.limit = tab.array.size then m
    else { m with heap := m.heap.modifyTable t (·.touch n) }
  | _, _ => m

/-- Register `a` becomes `v[key]`; `name` is what `v` is called in a message. -/
def readIndex (m : Machine) (a : Nat) (v key : Value) (name : Machine → Option Label) : Machine :=
  match m.heap.lookUp v key true maxChain with
  | .value r => (m.touch v key).setReg a r
  | .handler f self => m.callMeta f #[self, key] .operand
  | .bad v direct => m.raiseType "index" v (if direct then name m else none)
  | .endless => m.raiseText "'__index' chain too long; possibly a loop"

/-- Sets `v[key]`. -/
def writeIndex (m : Machine) (v key val : Value) (name : Machine → Option Label) : Machine :=
  match m.heap.target v key true maxChain with
  | .table t =>
    match Table.badKey? key with
    | some e => m.raiseText e.text
    | none => { m with heap := m.heap.rawSet t key val }
  | .handler f self => m.callAbove m.frame.top f #[self, key, val] (some 0) .call .nested
  | .bad v direct => m.raiseType "index" v (if direct then name m else none)
  | .endless => m.raiseText "'__newindex' chain too long; possibly a loop"

/-- A new table with room for pairs and list items. -/
def newTable (m : Machine) (i : Instr) : Machine :=
  let nodes := if i.b = 0 then 0 else Nat.pow 2 (i.b - 1)
  let size := if i.k then i.c + m.extraArg * 256 else i.c
  let t : Table := if nodes = 0 ∧ size = 0 then {} else Table.resize {} size nodes
  let (id, heap) := m.heap.newTable t
  (setReg { m with heap } i.a (.table id)).skip

/-- Stores list items from the registers behind a table. -/
def setList (m : Machine) (i : Instr) : Machine :=
  let first := m.base + i.a + 1
  let n := if i.b = 0 then m.top - first else i.b
  let (done, m) := if i.k then (i.c + m.extraArg * 256, m.skip) else (i.c, m)
  match m.reg i.a with
  | .table t =>
    let vs := m.values first n
    { m with heap := m.heap.modifyTable t fun tab =>
        let tab := if done + n > tab.array.size then tab.resize (done + n) tab.nodes.size else tab
        (vs.foldl (fun (tab, k) v => (tab.setInt (Int64.ofNat k) v, k + 1)) (tab, done + 1)).1 }
  | _ => m

/-! ## Arithmetic -/

/-- An operation on numbers. Where it has no result, the instruction behind calls a metamethod. -/
def arith (m : Machine) (op : Number.Op) (a : Nat) (x y : Value) : Machine :=
  match Number.arith op x y with
  | .ok v => (m.setReg a v).skip
  | .error .notNumber | .error .notInteger => m
  | .error t => m.raiseText (Strings.troubleText t)

/-- No metamethod for an operation: which of the operands is wrong. -/
def raiseOperands (m : Machine) (event : MetaEvent) (x y : Value) (xName yName : Option Label) : Machine :=
  match event with
  | .concat => m.raiseType "concatenate" x xName
  | .band | .bor | .bxor | .shl | .shr | .bnot =>
    if x.isNumber && y.isNumber then
      let name := if (Number.toInt? x).isSome then yName else xName
      m.raiseBytes [Bytes.ofText "number", named name, Bytes.ofText " has no integer representation"]
    else wrong "perform bitwise operation on"
  | _ => wrong "perform arithmetic on"
where
  wrong (operation : String) : Machine :=
    if x.isNumber then m.raiseType operation y yName else m.raiseType operation x xName

/-- Calls the metamethod of an operation on two values. -/
def metaArith (m : Machine) (event : MetaEvent) (x y : Value) (xName yName : Machine → Option Label) : Machine :=
  let f := m.metaOf x y event
  if f.isNil then m.raiseOperands event x y (xName m) (yName m) else m.callMeta f #[x, y] .operand

/-- A metamethod call behind an operation whose second operand `y` is not in a register. -/
def metaImmediate (m : Machine) (i : Instr) (y : Value) : Machine :=
  let name (m : Machine) : Option Label := m.registerName i.a
  if i.k then m.metaArith i.event y (m.reg i.a) (fun _ => none) name
  else m.metaArith i.event (m.reg i.a) y name fun _ => none

/-- A unary operation on a number. -/
def unary (m : Machine) (op : Number.Op) (event : MetaEvent) (i : Instr) : Machine :=
  let v := m.reg i.b
  match Number.arith op v v with
  | .ok r => m.setReg i.a r
  | .error _ =>
    let name (m : Machine) : Option Label := m.registerName i.b
    m.metaArith event v v name name

/-- The length of a value. -/
def length (m : Machine) (i : Instr) : Machine :=
  let v := m.reg i.b
  match v with
  | .str s => m.setReg i.a (.ofNat s.size)
  | _ =>
    match m.heap.metamethod v .len with
    | .nil =>
      match v with
      | .table t =>
        let (n, tab) := (m.heap.table t).border
        let m := if tab.limit = (m.heap.table t).limit then m
          else { m with heap := m.heap.modifyTable t ({ · with limit := tab.limit }) }
        m.setReg i.a (.ofNat n)
      | _ => m.raiseType "get length of" v (m.registerName i.b)
    | f => m.callMeta f #[v, v] .operand

/-! ## Comparison -/

/-- Two values have no order. -/
def raiseOrder (m : Machine) (x y : Value) : Machine := m.raiseBytes [HostM.orderMessage m.heap x y]

def equal (m : Machine) (x y : Value) (k : Bool) : Machine :=
  if x.rawEq y then m.branch true k
  else
    match x, y with
    | .table _, .table _ | .userdata _, .userdata _ =>
      let f := m.metaOf x y .eq
      if f.isNil then m.branch false k else m.callMeta f #[x, y] .operand
    | _, _ => m.branch false k

def less (m : Machine) (x y : Value) (k : Bool) : Machine :=
  match Number.lt? x y, x, y with
  | some r, _, _ => m.branch r k
  | none, .str a, .str b => m.branch (Bytes.less a b) k
  | none, _, _ =>
    let f := m.metaOf x y .lt
    if f.isNil then m.raiseOrder x y else m.callMeta f #[x, y] .operand

/-- `x ≤ y`; without a metamethod of its own it is what `y < x` is not. -/
def lessEqual (m : Machine) (x y : Value) (k : Bool) : Machine :=
  match Number.le? x y, x, y with
  | some r, _, _ => m.branch r k
  | none, .str a, .str b => m.branch (!Bytes.less b a) k
  | none, _, _ =>
    let f := m.metaOf x y .le
    if f.isNil then
      let g := m.metaOf y x .lt
      if g.isNil then m.raiseOrder x y else m.callMeta g #[y, x] .negated
    else m.callMeta f #[x, y] .operand

/-- The number in a comparison with a small constant. -/
def smallNumber (i : Instr) : Value :=
  if i.c = 0 then .ofInt i.j else .float (Number.intToFloat (Int64.ofInt i.j))

/-! ## Loops -/

/-- A control value of a loop is no number. -/
def raiseLoop (m : Machine) (what : String) (v : Value) : Machine :=
  m.raiseBytes [Bytes.ofText s!"bad 'for' {what} (number expected, got ", m.heap.typeName v, Bytes.ofText ")"]

/-- The last integer a loop can reach; none when it does not run at all, an error for a limit that
is no number. -/
def loopLimit (start : Int64) (limit : Value) (step : Int64) : Except Unit (Option Int64) :=
  let mode : Number.Rounding := if step < 0 then .ceil else .floor
  let reachable (l : Int64) : Option Int64 :=
    if (if 0 < step then start > l else start < l) then none else some l
  let clipped (f : Float) : Option Int64 :=
    if 0 < f then (if step < 0 then none else reachable Int64.maxValue)
    else (if 0 < step then none else reachable Int64.minValue)
  match Number.ofValue? limit with
  | some (.int n) => .ok (reachable n)
  | some (.float f) =>
    match Number.floatToInt? mode f with
    | some n => .ok (reachable n)
    | none => .ok (clipped f)
  | _ => .error ()

/-- How often an integer loop goes on after its first round. -/
def loopCount (start limit step : Int64) : Int64 :=
  let n := if 0 < step then (limit.toInt - start.toInt) / step.toInt else (start.toInt - limit.toInt) / -step.toInt
  Int64.ofInt n

/-- Prepares a loop over numbers; it is skipped when there is nothing to run. -/
def prepareLoop (m : Machine) (i : Instr) : Machine :=
  let start := m.reg i.a
  let limit := m.reg (i.a + 1)
  let step := m.reg (i.a + 2)
  let skipLoop (m : Machine) : Machine := m.jump (i.j + 1)
  match start, step with
  | .int s, .int d =>
    if d = 0 then m.raiseText "'for' step is zero"
    else
      match loopLimit s limit d with
      | .error _ => m.raiseLoop "limit" limit
      | .ok none => skipLoop m
      | .ok (some l) => (m.setReg (i.a + 1) (.int (loopCount s l d))).setReg (i.a + 3) start
  | _, _ =>
    match Number.coerceFloat? limit, Number.coerceFloat? step, Number.coerceFloat? start with
    | none, _, _ => m.raiseLoop "limit" limit
    | _, none, _ => m.raiseLoop "step" step
    | _, _, none => m.raiseLoop "initial value" start
    | some l, some d, some s =>
      if d == 0 then m.raiseText "'for' step is zero"
      else if (if 0 < d then l < s else s < l) then skipLoop m
      else
        (((m.setReg i.a (.float s)).setReg (i.a + 1) (.float l)).setReg (i.a + 2) (.float d)).setReg
          (i.a + 3) (.float s)

/-- The end of a loop over numbers. -/
def endLoop (m : Machine) (i : Instr) : Machine :=
  let next (m : Machine) (v : Value) : Machine := ((m.setReg i.a v).setReg (i.a + 3) v).jump (-i.j)
  match m.reg i.a, m.reg (i.a + 1), m.reg (i.a + 2) with
  | .int n, .int count, .int d =>
    if count = 0 then m else next (m.setReg (i.a + 1) (.int (count - 1))) (.int (n + d))
  | .float x, .float l, .float d =>
    let x := x + d
    if (if 0 < d then x ≤ l else l ≤ x) then next m (.float x) else m
  | _, _, _ => m

/-- Calls the iterator of a loop. -/
def iterate (m : Machine) (i : Instr) : Machine :=
  let first := m.base + i.a + 4
  let vs := m.values (m.base + i.a) 3
  let m := (m.reserve (first + 8)).putValues first vs
  { m with todo := .enter first 2 (some i.c) .iterator .nested }

/-! ## Variables to be closed -/

/-- From now on the variable in a register is closed when it goes out of scope. -/
def markClosing (m : Machine) (reg : Nat) (next : Machine → Machine) : Machine :=
  let v := m.reg reg
  if !v.truthy then next m
  else if (m.heap.metamethod v .close).isNil then
    let name := (m.frame.proto.localName? (reg + 1) (m.frame.pc - 1)).getD (Bytes.ofText "?")
    m.raiseBytes [Bytes.ofText "variable '", name, Bytes.ofText "' got a non-closable value"]
  else next { m with closing := (m.base + reg) :: m.closing }

/-- Closes the variables from a slot on, one at each execution of the instruction. -/
def closeVars (m : Machine) (level : Nat) (next : Machine → Machine) : Machine :=
  let m := m.closeCells level
  match m.closing with
  | slot :: rest =>
    if level ≤ slot then
      let v := m.slot slot
      callAbove { m with closing := rest } (max m.frame.top m.top) (m.heap.metamethod v .close) #[v, .nil]
        (some 0) .again .nested
    else next m
  | [] => next m

/-- Returns `n` values; variables are closed before. -/
def returnValues (m : Machine) (i : Instr) : Machine :=
  let first := m.base + i.a
  let n := match m.frame.returning with
    | some n => n
    | none => if i.b = 0 then m.top - first else i.b - 1
  if i.k then
    closeVars { m with frame := { m.frame with returning := some n } } m.base fun m => m.give (m.values first n)
  else m.give (m.values first n)

/-! ## Functions -/

/-- A function with the variables it captures. -/
def makeClosure (m : Machine) (i : Instr) : Machine :=
  let proto := m.frame.proto.protos[i.j.toNat]?.getD default
  let (cells, m) := proto.captures.foldl (fun (cells, m) c =>
    if c.inStack then
      let (cell, m) := m.cellOf (m.base + c.index)
      (cells.push cell, m)
    else (cells.push (m.captured c.index), m)) ((#[] : Array Nat), m)
  let (id, heap) := m.heap.newClosure { proto, cells }
  setReg { m with heap } i.a (.closure id)

/-- The extra arguments of the running function, all or a number of them. -/
def extraArguments (m : Machine) (i : Instr) : Machine :=
  let extra := m.frame.extra
  let first := m.base + i.a
  let vs := m.values (m.frame.func - extra) extra
  if first + vs.size > m.stackLimit then m.overflow
  else m.putResults first vs (if i.c = 0 then none else some (i.c - 1))

/-- Moves the function and its parameters behind the arguments. -/
def moveArguments (m : Machine) (i : Instr) : Machine :=
  let func := m.frame.func
  let actual := max (m.top - func - 1) i.a
  let dest := func + actual + 1
  let size := m.frame.proto.stackSize
  if dest + 1 + size > m.stackLimit then m.overflow
  else
    let vs := m.values func (i.a + 1)
    let m := (m.reserve (dest + 1 + size + 8)).putValues dest vs
    { m with
      frame := { m.frame with func := dest, top := m.frame.top + actual + 1, extra := actual - i.a }
      oldPc := if m.hook.isNone then m.oldPc else 1
      todo := .fetch .entry }

/-- Where the arguments of a call end: a fixed number of them, or up to `top`. -/
def argumentCount (m : Machine) (i : Instr) : Nat :=
  if i.b = 0 then m.top - (m.base + i.a + 1) else i.b - 1

/-! ## All instructions -/

/-- Arithmetic on two registers. -/
def arithReg (m : Machine) (op : Number.Op) (i : Instr) : Machine := m.arith op i.a (m.reg i.b) (m.reg i.c)

/-- Arithmetic on a register and a constant. -/
def arithConst (m : Machine) (op : Number.Op) (i : Instr) : Machine := m.arith op i.a (m.reg i.b) (m.constant i.c)

/-- Executes an instruction. -/
def perform (m : Machine) (i : Instr) : Machine :=
  let byRegister (m : Machine) : Option Label := m.registerName i.b
  let byTarget (m : Machine) : Option Label := m.registerName i.a
  match i.op with
  | .move => m.setReg i.a (m.reg i.b)
  | .loadi => m.setReg i.a (.ofInt i.j)
  | .loadf => m.setReg i.a (.float (Number.intToFloat (Int64.ofInt i.j)))
  | .loadk => m.setReg i.a (m.constant i.j.toNat)
  | .loadkx => (m.setReg i.a (m.constant m.extraArg)).skip
  | .loadfalse => m.setReg i.a (.bool false)
  | .lfalseskip => (m.setReg i.a (.bool false)).skip
  | .loadtrue => m.setReg i.a (.bool true)
  | .loadnil => (i.b + 1).fold (fun n _ (m : Machine) => m.setReg (i.a + n) .nil) m
  | .getupval => m.setReg i.a (m.getCell (m.captured i.b))
  | .setupval => m.setCell (m.captured i.b) (m.reg i.a)
  | .gettabup => m.readIndex i.a (m.getCell (m.captured i.b)) (m.constant i.c) (·.capturedLabel i.b)
  | .gettable => m.readIndex i.a (m.reg i.b) (m.reg i.c) byRegister
  | .geti => m.readIndex i.a (m.reg i.b) (.ofNat i.c) byRegister
  | .getfield => m.readIndex i.a (m.reg i.b) (m.constant i.c) byRegister
  | .settabup => m.writeIndex (m.getCell (m.captured i.a)) (m.constant i.b) (m.operand i) (·.capturedLabel i.a)
  | .settable => m.writeIndex (m.reg i.a) (m.reg i.b) (m.operand i) byTarget
  | .seti => m.writeIndex (m.reg i.a) (.ofNat i.b) (m.operand i) byTarget
  | .setfield => m.writeIndex (m.reg i.a) (m.constant i.b) (m.operand i) byTarget
  | .newtable => m.newTable i
  | .self =>
    let v := m.reg i.b
    (m.setReg (i.a + 1) v).readIndex i.a v (m.operand i) byRegister
  | .addi => m.arith .add i.a (m.reg i.b) (.ofInt i.j)
  | .addk => m.arithConst .add i
  | .subk => m.arithConst .sub i
  | .mulk => m.arithConst .mul i
  | .modk => m.arithConst .mod i
  | .powk => m.arithConst .pow i
  | .divk => m.arithConst .div i
  | .idivk => m.arithConst .idiv i
  | .bandk => m.arithConst .band i
  | .bork => m.arithConst .bor i
  | .bxork => m.arithConst .bxor i
  | .shri => m.arith .shr i.a (m.reg i.b) (.ofInt i.j)
  | .shli => m.arith .shl i.a (.ofInt i.j) (m.reg i.b)
  | .add => m.arithReg .add i
  | .sub => m.arithReg .sub i
  | .mul => m.arithReg .mul i
  | .mod => m.arithReg .mod i
  | .pow => m.arithReg .pow i
  | .div => m.arithReg .div i
  | .idiv => m.arithReg .idiv i
  | .band => m.arithReg .band i
  | .bor => m.arithReg .bor i
  | .bxor => m.arithReg .bxor i
  | .shl => m.arithReg .shl i
  | .shr => m.arithReg .shr i
  | .mmbin => m.metaArith i.event (m.reg i.a) (m.reg i.b) byTarget byRegister
  | .mmbini => m.metaImmediate i (.ofInt i.j)
  | .mmbink => m.metaImmediate i (m.constant i.b)
  | .unm => m.unary .unm .unm i
  | .bnot => m.unary .bnot .bnot i
  | .not => m.setReg i.a (.bool (!(m.reg i.b).truthy))
  | .len => m.length i
  | .concat => m.concat i.a i.b
  | .close => m.closeVars (m.base + i.a) fun m => { m with todo := .fetch .full }
  | .tbc => m.markClosing i.a fun m => m
  | .jmp => m.jump i.j
  | .eq => m.equal (m.reg i.a) (m.reg i.b) i.k
  | .lt => m.less (m.reg i.a) (m.reg i.b) i.k
  | .le => m.lessEqual (m.reg i.a) (m.reg i.b) i.k
  | .eqk => m.branch ((m.reg i.a).rawEq (m.constant i.b)) i.k
  | .eqi => m.branch ((m.reg i.a).rawEq (.ofInt i.j)) i.k
  | .lti => m.less (m.reg i.a) (smallNumber i) i.k
  | .lei => m.lessEqual (m.reg i.a) (smallNumber i) i.k
  | .gti => m.less (smallNumber i) (m.reg i.a) i.k
  | .gei => m.lessEqual (smallNumber i) (m.reg i.a) i.k
  | .test => m.branch (m.reg i.a).truthy i.k
  | .testset =>
    let v := m.reg i.b
    if v.truthy = i.k then (m.setReg i.a v).branch i.k i.k else m.skip
  | .call =>
    let wanted := if i.c = 0 then none else some (i.c - 1)
    { m with todo := .enter (m.base + i.a) (m.argumentCount i) wanted .call .flat }
  | .tailcall =>
    let args := m.argumentCount i
    let m := if i.k then m.closeCells m.base else m
    { m with todo := .enterTail (m.base + i.a) args }
  | .ret => m.returnValues i
  | .return0 => m.give #[]
  | .return1 => m.give #[m.reg i.a]
  | .forloop => m.endLoop i
  | .forprep => m.prepareLoop i
  | .tforprep =>
    -- the call of the iterator, at the end of the loop, is executed at once
    m.markClosing (i.a + 3) fun m =>
      let m := m.jump i.j
      (m.skip).iterate (m.frame.proto.instr m.frame.pc)
  | .tforcall => m.iterate i
  | .tforloop =>
    let v := m.reg (i.a + 4)
    if v.isNil then m else (m.setReg (i.a + 2) v).jump (-i.j)
  | .setlist => m.setList i
  | .closure => m.makeClosure i
  | .vararg => m.extraArguments i
  | .varargprep => m.moveArguments i
  | .extraarg => m

/-- Executes the next instruction. -/
def execute (m : Machine) : Machine :=
  let f := m.frame
  let i := f.proto.instr f.pc
  perform { m with frame := { f with pc := f.pc + 1 }, todo := .fetch .full } i

/-- Executes the instruction before once more. -/
def repeatInstr (m : Machine) : Machine :=
  perform { m with todo := .fetch .full } (m.frame.proto.instr (m.frame.pc - 1))

end ScriptHost.Script.Machine
