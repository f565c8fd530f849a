import Std.Data.HashMap
import ScriptHost.Script.Code
import ScriptHost.Script.Scanner

/-!
# The state of a compilation

A script is compiled in one pass: while its tokens are read, the functions
that enclose the present place are under construction. This module holds that
state, the reading of tokens, the scopes of variables and the appending of
instructions. An instruction has the line of the token read last, unless the
construct it belongs to gives it another.
-/
namespace ScriptHost.Script.Compile

/-- A local variable in scope. -/
structure Var where
  name : Bytes
  kind : VarKind := .regular
  register : Nat := 0
  /-- Index of the variable in the function's table of locals. -/
  debugIndex : Nat := 0
  /-- The value of a compile-time constant. -/
  value : Value := .nil
  deriving Inhabited

/-- A block of statements. -/
structure Block where
  isLoop : Bool
  /-- Number of variables in scope at its start. -/
  activeVars : Nat
  firstLabel : Nat
  firstGoto : Nat
  /-- Some variable of the block is captured. -/
  captured : Bool := false
  /-- The block is inside the scope of a variable that is to be closed. -/
  insideClose : Bool := false
  deriving Inhabited

/-- A label, or a jump that waits for one. -/
structure Label where
  name : Bytes
  /-- A place in the code, or a list of jumps. -/
  pc : Int
  line : Nat
  activeVars : Nat
  /-- The jump leaves the scope of a captured variable. -/
  close : Bool := false
  deriving Inhabited

/-- A constant, up to the distinctions that constants of a function make. -/
inductive ConstKey where
  | nil
  | bool (b : Bool)
  | int (n : Int64)
  | float (bits : UInt64)
  | str (s : Bytes)
  deriving BEq, Hashable

/-- A function under construction. -/
structure Func where
  code : Array Instr := #[]
  lines : Array Nat := #[]
  constants : Array Value := #[]
  constantIndex : Std.HashMap ConstKey Nat := {}
  protos : Array Proto := #[]
  captures : Array Capture := #[]
  locals : Array LocalVar := #[]
  params : Nat := 0
  isVararg : Bool := false
  stackSize : Nat := 2
  firstLine : Nat := 0
  lastLine : Nat := 0
  /-- The last place that is a jump's target. -/
  lastTarget : Nat := 0
  /-- The first register that holds nothing. -/
  freeReg : Nat := 0
  activeVars : Nat := 0
  /-- Where the function's variables and labels begin. -/
  firstLocal : Nat := 0
  firstLabel : Nat := 0
  /-- The function has variables to close when it returns. -/
  needClose : Bool := false
  /-- The innermost block first. -/
  blocks : List Block := []

/-- The state of a compilation. -/
structure State where
  scanner : Scanner
  token : Token := .eof
  ahead : Option Token := none
  /-- The line of the token read last. -/
  lastLine : Nat := 1
  func : Func := {}
  /-- The enclosing functions, innermost first. -/
  outer : List Func := []
  vars : Array Var := #[]
  gotos : Array Label := #[]
  labels : Array Label := #[]
  /-- How deep statements and expressions are nested. -/
  depth : Nat := 0
  sourceName : Bytes := .empty

/-- A step of a compilation: it fails with a message. -/
abbrev Comp := StateT State (Except Bytes)

/-! ## Tokens and errors -/

def failAt {α : Type} (msg : Bytes) (near : Option Token) : Comp α := fun s =>
  .error (s.scanner.message msg near)

/-- An error at the current token. -/
def syntaxError {α : Type} (msg : String) : Comp α := fun s =>
  .error (s.scanner.message (Bytes.ofText msg) (some s.token))

/-- An error of meaning, which points at no token. -/
def meaningError {α : Type} (parts : List Bytes) : Comp α :=
  failAt (Bytes.cat parts) none

/-- Reads one token. -/
def readToken : Comp Token := fun s =>
  match Scanner.next s.scanner with
  | .ok (t, scanner) => .ok (t, { s with scanner })
  | .error e => .error e

/-- Goes to the next token. -/
def nextToken : Comp Unit := do
  modify fun s => { s with lastLine := s.scanner.line }
  match (← get).ahead with
  | some t => modify fun s => { s with token := t, ahead := none }
  | none =>
    let t ← readToken
    modify fun s => { s with token := t }

/-- The token behind the current one. -/
def lookAhead : Comp Token := do
  let t ← readToken
  modify fun s => { s with ahead := some t }
  pure t

def token : Comp Token := do pure (← get).token
def line : Comp Nat := do pure (← get).scanner.line

def isWord (w : String) : Comp Bool := do pure ((← get).token.isWord w)
def isChar (c : Char) : Comp Bool := do pure ((← get).token.isChar c)

def expected {α : Type} (t : Token) : Comp α := fun s =>
  .error (s.scanner.message (t.describe ++ Bytes.ofText " expected") (some s.token))

/-- Takes the token when it is the given character. -/
def acceptChar (c : Char) : Comp Bool := do
  if ← isChar c then
    nextToken
    pure true
  else pure false

/-- Takes the token when it is the given word. -/
def acceptWord (w : String) : Comp Bool := do
  if ← isWord w then
    nextToken
    pure true
  else pure false

def charToken (c : Char) : Token := .char (UInt8.ofNat c.toNat)

def expectChar (c : Char) : Comp Unit := do
  if !(← acceptChar c) then expected (charToken c)

def expectWord (w : String) : Comp Unit := do
  if !(← acceptWord w) then expected (.word w)

/-- Takes `what`, which closes the `opening` of an earlier line. -/
def expectClosing (what opening : Token) (accepted : Bool) (openingLine : Nat) : Comp Unit := do
  if !accepted then
    if openingLine = (← line) then expected what
    else
      let t ← token
      failAt (Bytes.cat [what.describe, Bytes.ofText " expected (to close ", opening.describe,
        Bytes.ofText (" at line " ++ toString openingLine ++ ")")]) (some t)

def closeWord (what opening : String) (openingLine : Nat) : Comp Unit := do
  expectClosing (.word what) (.word opening) (← acceptWord what) openingLine

def closeChar (what opening : Char) (openingLine : Nat) : Comp Unit := do
  expectClosing (charToken what) (charToken opening) (← acceptChar what) openingLine

/-- A name. -/
def expectName : Comp Bytes := do
  match ← token with
  | .name s =>
    nextToken
    pure s
  | _ => expected (.name .empty)

/-- Repeats a step while it says so. Every repetition takes a token, so the size of the source
bounds their number. -/
def whileTrue (step : Comp Bool) : Nat → Comp Unit
  | 0 => pure ()
  | fuel + 1 => do if ← step then whileTrue step fuel

def fuel : Comp Nat := do pure ((← get).scanner.source.size + 2)

/-- Runs a nested construct; the nesting is limited. -/
def nested {α : Type} (body : Comp α) : Comp α := do
  modify fun s => { s with depth := s.depth + 1 }
  if (← get).depth ≥ 198 then failAt (Bytes.ofText "C stack overflow") none
  let a ← body
  modify fun s => { s with depth := s.depth - 1 }
  pure a

/-! ## Instructions -/

def func : Comp Func := do pure (← get).func

def modifyFunc (f : Func → Func) : Comp Unit := modify fun s => { s with func := f s.func }

/-- Number of instructions so far. -/
def pc : Comp Nat := do pure (← get).func.code.size

/-- Appends an instruction. -/
def emit (i : Instr) : Comp Nat := do
  let s ← get
  let at_ := s.func.code.size
  let l := s.lastLine
  modifyFunc fun f => { f with code := f.code.push i, lines := f.lines.push l }
  pure at_

def emitABC (op : Opcode) (a b c : Nat) : Comp Nat := emit { op, a, b, c }

/-- Gives the last instruction a line. -/
def fixLine (l : Nat) : Comp Unit :=
  modifyFunc fun f => { f with lines := f.lines.setIfInBounds (f.lines.size - 1) l }

def instrAt (i : Nat) : Comp Instr := do pure ((← get).func.code[i]?.getD default)

def modifyInstr (i : Nat) (g : Instr → Instr) : Comp Unit :=
  modifyFunc fun f => { f with code := f.code.modify i g }

/-- Takes the last instruction back. -/
def removeLast : Comp Unit :=
  modifyFunc fun f => { f with code := f.code.pop, lines := f.lines.pop }

/-- The last instruction, unless a jump may lead behind it. -/
def previous? : Comp (Option Instr) := do
  let f ← func
  pure (if f.lastTarget < f.code.size then f.code.back? else none)

/-- Marks the present place as a jump's target. -/
def label : Comp Nat := do
  modifyFunc fun f => { f with lastTarget := f.code.size }
  pc

/-! ## Registers -/

def maxRegisters : Nat := 255

/-- Makes sure that there are `n` registers more. -/
def checkStack (n : Nat) : Comp Unit := do
  let f ← func
  let size := f.freeReg + n
  if size > f.stackSize then
    if size ≥ maxRegisters then syntaxError "function or expression needs too many registers"
    modifyFunc fun f => { f with stackSize := size }

def reserve (n : Nat) : Comp Unit := do
  checkStack n
  modifyFunc fun f => { f with freeReg := f.freeReg + n }

def freeReg : Comp Nat := do pure (← get).func.freeReg

def setFreeReg (n : Nat) : Comp Unit := modifyFunc fun f => { f with freeReg := n }

/-! ## Variables -/

def maxVars : Nat := 200
def maxCaptures : Nat := 255

/-- The function has too many of something. -/
def limitError {α : Type} (limit : Nat) (what : String) (f : Func) : Comp α :=
  let where_ := if f.firstLine = 0 then "main function" else "function at line " ++ toString f.firstLine
  syntaxError ("too many " ++ what ++ " (limit is " ++ toString limit ++ ") in " ++ where_)

def checkLimit (n limit : Nat) (what : String) : Comp Unit := do
  if n > limit then limitError limit what (← func)

/-- A new local variable, not yet in scope; its index in the function. -/
def newVar (name : Bytes) : Comp Nat := do
  let s ← get
  checkLimit (s.vars.size + 1 - s.func.firstLocal) maxVars "local variables"
  modify fun s => { s with vars := s.vars.push { name } }
  pure (s.vars.size - s.func.firstLocal)

def newInternalVar (name : String) : Comp Unit := do
  let _ ← newVar (Bytes.ofText name)

/-- The `i`-th variable of a function. -/
def varOf (vars : Array Var) (f : Func) (i : Nat) : Var := vars[f.firstLocal + i]?.getD default

def var (i : Nat) : Comp Var := do
  let s ← get
  pure (varOf s.vars s.func i)

def modifyVar (i : Nat) (g : Var → Var) : Comp Unit :=
  modify fun s => { s with vars := s.vars.modify (s.func.firstLocal + i) g }

/-- Registers that the first `n` variables of a function take. -/
def registerLevel (vars : Array Var) (f : Func) : Nat → Nat
  | 0 => 0
  | n + 1 =>
    let v := varOf vars f n
    if v.kind = .compileTime then registerLevel vars f n else v.register + 1

/-- Registers that the first `n` variables take. -/
def levelOf (n : Nat) : Comp Nat := do
  let s ← get
  pure (registerLevel s.vars s.func n)

/-- Registers that the variables in scope take. -/
def varLevel : Comp Nat := do levelOf (← func).activeVars

/-- Brings the next `n` variables into scope. -/
def enterScope (n : Nat) : Comp Unit := do
  let level ← varLevel
  for i in List.range n do
    let f ← func
    let index := f.activeVars
    let v ← var index
    modifyVar index fun v => { v with register := level + i, debugIndex := f.locals.size }
    modifyFunc fun f => { f with
      activeVars := f.activeVars + 1
      locals := f.locals.push { name := v.name, start := f.code.size } }

/-- Takes the variables from the `level`-th on out of scope. -/
def leaveScope (level : Nat) : Comp Unit := do
  let f ← func
  for i in List.range (f.activeVars - level) do
    let index := f.activeVars - 1 - i
    let v ← var index
    if v.kind != .compileTime then
      modifyFunc fun f => { f with
        locals := f.locals.modify v.debugIndex fun l => { l with stop := f.code.size } }
  modifyFunc fun f => { f with activeVars := level }
  modify fun s => { s with vars := s.vars.extract 0 (s.vars.size - (f.activeVars - level)) }

/-! ## Constants -/

/-- The index of a constant, which is added when it is new. -/
def constant (key : ConstKey) (v : Value) : Comp Nat := do
  let f ← func
  match f.constantIndex[key]? with
  | some i => pure i
  | none =>
    let i := f.constants.size
    modifyFunc fun f => { f with
      constants := f.constants.push v
      constantIndex := f.constantIndex.insert key i }
    pure i

def stringConstant (s : Bytes) : Comp Nat := constant (.str s) (.str s)
def intConstant (n : Int64) : Comp Nat := constant (.int n) (.int n)
def floatConstant (f : Float) : Comp Nat := constant (.float f.toBits) (.float f)
def boolConstant (b : Bool) : Comp Nat := constant (.bool b) (.bool b)
def nilConstant : Comp Nat := constant .nil .nil

/-! ## Jumps

Jumps that go to one unknown place form a list: each holds the distance to the
next one until the place is known. -/

def noJump : Int := -1

/-- The jump behind `at_` in its list. -/
def jumpTarget (code : Array Instr) (at_ : Int) : Int :=
  let offset := (code[at_.toNat]?.getD default).j
  if offset = noJump then noJump else at_ + 1 + offset

/-- The members of a list of jumps. -/
def jumpList (code : Array Instr) : Nat → Int → List Nat
  | 0, _ => []
  | fuel + 1, at_ => if at_ = noJump then [] else at_.toNat :: jumpList code fuel (jumpTarget code at_)

def jumpsOf (list : Int) : Comp (List Nat) := do
  let code := (← func).code
  pure (jumpList code (code.size + 1) list)

/-- Makes the jump at `at_` lead to `target`. -/
def fixJump (at_ target : Nat) : Comp Unit := do
  let offset : Int := (target : Int) - (at_ + 1)
  if offset < -16777215 ∨ 16777216 < offset then syntaxError "control structure too long"
  modifyInstr at_ fun i => { i with j := offset }

/-- Appends a list of jumps to another. -/
def joinJumps (a b : Int) : Comp Int := do
  if b = noJump then pure a
  else if a = noJump then pure b
  else
    match (← jumpsOf a).getLast? with
    | some last => do
      fixJump last b.toNat
      pure a
    | none => pure b

/-- A jump to a place that is not known yet. -/
def emitJump : Comp Nat := emit { op := .jmp, j := noJump }

/-- The instruction that decides about a jump: the test before it, or the jump itself. -/
def controlOf (code : Array Instr) (jump : Nat) : Nat :=
  if 0 < jump ∧ (code[jump - 1]?.getD default).op.isTest then jump - 1 else jump

/-- Lets the test before a jump leave its value in a register (none: nowhere); false for tests
that leave no value. -/
def patchTest (jump : Nat) (register : Option Nat) : Comp Bool := do
  let code := (← func).code
  let at_ := controlOf code jump
  let i := code[at_]?.getD default
  if i.op != .testset then pure false
  else
    match register with
    | some r =>
      if r != i.b then modifyInstr at_ fun i => { i with a := r }
      else modifyInstr at_ fun i => { op := .test, a := i.b, k := i.k }
    | none => modifyInstr at_ fun i => { op := .test, a := i.b, k := i.k }
    pure true

/-- Resolves a list: jumps with a value go to `valueTarget`, the others to `target`. -/
def patchJumps (list : Int) (valueTarget : Nat) (register : Option Nat) (target : Nat) : Comp Unit := do
  for j in ← jumpsOf list do
    if ← patchTest j register then fixJump j valueTarget else fixJump j target

/-- Makes a list of jumps lead to `target`. -/
def patchTo (list : Int) (target : Nat) : Comp Unit := patchJumps list target none target

/-- Makes a list of jumps lead to the present place. -/
def patchHere (list : Int) : Comp Unit := do
  let here ← label
  patchTo list here

/-- A return of `n` values (none: as many as there are) from register `first` on. -/
def emitReturn (first : Nat) (n : Option Nat) : Comp Unit := do
  let _ ← match n with
    | some 0 => emitABC .return0 first 1 0
    | some 1 => emitABC .return1 first 2 0
    | some n => emitABC .ret first (n + 1) 0
    | none => emitABC .ret first 0 0

/-! ## Blocks -/

def enterBlock (isLoop : Bool) : Comp Unit := modify fun s =>
  let b : Block := {
    isLoop, activeVars := s.func.activeVars, firstLabel := s.labels.size, firstGoto := s.gotos.size
    insideClose := (s.func.blocks.head?.map (·.insideClose)).getD false }
  { s with func := { s.func with blocks := b :: s.func.blocks } }

def modifyBlock (g : Block → Block) : Comp Unit :=
  modifyFunc fun f => match f.blocks with
    | b :: rest => { f with blocks := g b :: rest }
    | [] => f

/-- The innermost block holds a variable that is to be closed. -/
def markToClose : Comp Unit := do
  modifyBlock fun b => { b with captured := true, insideClose := true }
  modifyFunc fun f => { f with needClose := true }

/-- The label of a jump lies behind a declaration that the jump would skip. -/
def scopeError {α : Type} (g : Label) : Comp α := do
  let v ← var g.activeVars
  meaningError [Bytes.ofText "<goto ", g.name,
    Bytes.ofText (s!"> at line {g.line} jumps into the scope of local '"), v.name, Bytes.ofText "'"]

/-- Resolves the waiting jumps of the block that fit a label; whether one of them needs a close. -/
def solveGotos (l : Label) : Comp Bool := do
  let s ← get
  let first := ((s.func.blocks.head?).map (·.firstGoto)).getD 0
  let mine := (s.gotos.toList.drop first).filter (·.name == l.name)
  for g in mine do
    if g.activeVars < l.activeVars then scopeError g
    patchTo g.pc l.pc.toNat
  modify fun s => { s with gotos :=
    (s.gotos.toList.take first ++ (s.gotos.toList.drop first).filter (·.name != l.name)).toArray }
  pure (mine.any (·.close))

/-- A label at the present place; `last` says that nothing follows it in its block. Whether a
close was written. -/
def createLabel (name : Bytes) (l : Nat) (last : Bool) : Comp Bool := do
  let here ← label
  let f ← func
  let vars := if last then ((f.blocks.head?).map (·.activeVars)).getD 0 else f.activeVars
  let entry : Label := { name, pc := here, line := l, activeVars := vars }
  modify fun s => { s with labels := s.labels.push entry }
  if ← solveGotos entry then
    let level ← varLevel
    let _ ← emitABC .close level 0 0
    pure true
  else pure false

/-- A label of the function by its name. -/
def findLabel (name : Bytes) : Comp (Option Label) := do
  let s ← get
  pure ((s.labels.toList.drop s.func.firstLabel).find? (·.name == name))

def newGoto (name : Bytes) (l : Nat) (jump : Int) : Comp Unit := do
  modify fun s => { s with
    gotos := s.gotos.push { name, pc := jump, line := l, activeVars := s.func.activeVars } }

def breakName : Bytes := Bytes.ofText "break"

/-- A jump that met no label. -/
def missingLabel {α : Type} (g : Label) : Comp α :=
  if g.name == breakName then
    meaningError [Bytes.ofText s!"break outside loop at line {g.line}"]
  else
    meaningError [Bytes.ofText "no visible label '", g.name,
      Bytes.ofText s!"' for <goto> at line {g.line}"]

/-- Leaves a block: its variables and labels go, and its waiting jumps move to the block around
it. -/
def leaveBlock : Comp Unit := do
  let f ← func
  match f.blocks with
  | [] => pure ()
  | block :: rest =>
    let level ← levelOf block.activeVars
    let outerLevel (s : State) (n : Nat) := registerLevel s.vars s.func n
    let before ← get
    leaveScope block.activeVars
    let closed ← if block.isLoop then createLabel breakName 0 false else pure false
    if !closed && !rest.isEmpty && block.captured then
      let _ ← emitABC .close level 0 0
    setFreeReg level
    modify fun s => { s with
      labels := s.labels.extract 0 block.firstLabel
      func := { s.func with blocks := rest } }
    if rest.isEmpty then
      let s ← get
      match s.gotos[block.firstGoto]? with
      | some g => missingLabel g
      | none => pure ()
    else
      modify fun s => { s with gotos := s.gotos.mapIdx fun i g =>
        if i < block.firstGoto then g
        else
          { g with
            close := g.close || (block.captured &&
              decide (outerLevel before g.activeVars > outerLevel before block.activeVars))
            activeVars := block.activeVars } }

end ScriptHost.Script.Compile
