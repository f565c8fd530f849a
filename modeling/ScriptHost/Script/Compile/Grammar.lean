import ScriptHost.Script.Compile.Operator

/-!
# The grammar

Expressions and statements are read and compiled at the same time. What is
nested (an operand, a statement of a block) is read through `Inner`, one level
of nesting deeper; `levels` ties the levels together.
-/
namespace ScriptHost.Script.Compile

/-- How nested constructs are read. -/
structure Inner where
  /-- An expression of operators that bind tighter than a limit, and the operator behind it. -/
  operand : Nat → Comp (Exp × Option BinaryOp)
  statement : Comp Unit

/-- The current token ends a block. -/
def blockEnds (withUntil : Bool) : Comp Bool := do
  match ← token with
  | .eof => pure true
  | .word w => pure (w == "else" || w == "elseif" || w == "end" || (withUntil && w == "until"))
  | _ => pure false

/-! ## Variables -/

/-- A variable of a function by its name, the innermost first. -/
def searchVar (vars : Array Var) (f : Func) (name : Bytes) : Nat → Option (Nat × Var)
  | 0 => none
  | n + 1 =>
    let v := varOf vars f n
    if v.name == name then some (n, v) else searchVar vars f name n

/-- Marks the block of a variable as one with captured variables. -/
def markCaptured (f : Func) (index : Nat) : Func :=
  let rec go : List Block → List Block
    | [] => []
    | b :: rest => if b.activeVars > index then b :: go rest else { b with captured := true } :: rest
  { f with blocks := go f.blocks, needClose := true }

/-- Looks a name up in a chain of functions, innermost first; captures are added on the way.
`base` says that the first function is the one that uses the name. -/
def resolve (vars : Array Var) (name : Bytes) (base : Bool) :
    List Func → Except Func (Exp × List Func)
  | [] => .ok ({ place := .void }, [])
  | f :: outer =>
    match searchVar vars f name f.activeVars with
    | some (i, v) =>
      if v.kind = .compileTime then .ok ({ place := .named (f.firstLocal + i) }, f :: outer)
      else .ok ({ place := .local v.register i }, (if base then f else markCaptured f i) :: outer)
    | none =>
      match f.captures.findIdx? (·.name == name) with
      | some i => .ok ({ place := .captured i }, f :: outer)
      | none =>
        match resolve vars name false outer with
        | .error g => .error g
        | .ok (e, outer) =>
          let add (inStack : Bool) (index : Nat) (kind : VarKind) : Except Func (Exp × List Func) :=
            if f.captures.size + 1 > maxCaptures then .error f
            else .ok ({ place := .captured f.captures.size },
              { f with captures := f.captures.push ⟨name, inStack, index, kind⟩ } :: outer)
          match e.place, outer with
          | .local r i, g :: _ => add true r (varOf vars g i).kind
          | .captured i, g :: _ => add false i ((g.captures[i]?.map (·.kind)).getD .regular)
          | _, _ => .ok (e, f :: outer)

/-- The variable with a name; `void` when it is neither local nor captured. -/
def lookUp (name : Bytes) : Comp Exp := do
  let s ← get
  match resolve s.vars name true (s.func :: s.outer) with
  | .ok (e, f :: outer) =>
    set { s with func := f, outer }
    pure e
  | .ok (e, []) => pure e
  | .error f => limitError maxCaptures "upvalues" f

def environmentName : Bytes := Bytes.ofText "_ENV"

/-- The variable a name stands for; a global is a field of the environment. -/
def singleVar : Comp Exp := do
  let name ← expectName
  let e ← lookUp name
  match e.place with
  | .void => do
    let env ← toAnyOrCaptured (← lookUp environmentName)
    index env { place := .str name }
  | _ => pure e

/-- Refuses an assignment to a constant. -/
def checkWritable (e : Exp) : Comp Unit := do
  let s ← get
  let name := match e.place with
    | .named i => (s.vars[i]?).map (·.name)
    | .local _ i =>
      let v := varOf s.vars s.func i
      if v.kind = .regular then none else some v.name
    | .captured i =>
      match s.func.captures[i]? with
      | some c => if c.kind = .regular then none else some c.name
      | none => none
    | _ => none
  match name with
  | some n => meaningError [Bytes.ofText "attempt to assign to const variable '", n, Bytes.ofText "'"]
  | none => pure ()

/-! ## Functions -/

/-- Begins a function inside the present one. -/
def openFunction (firstLine : Nat) : Comp Unit := do
  modify fun s => { s with
    func := { firstLine, firstLocal := s.vars.size, firstLabel := s.labels.size }
    outer := s.func :: s.outer }
  enterBlock false

/-- Follows a chain of jumps to where it ends. -/
def finalTarget (code : Array Instr) : Nat → Nat → Nat
  | 0, i => i
  | fuel + 1, i =>
    let x := code[i]?.getD default
    if x.op = .jmp then finalTarget code fuel (i + 1 + x.j).toNat else i

/-- The last touches: returns that have to close variables or to give back a vararg frame, and
jumps to jumps. -/
def finishCode : Comp Unit := do
  let f ← func
  for i in List.range f.code.size do
    let x ← instrAt i
    match x.op with
    | .return0 | .return1 | .ret | .tailcall =>
      let short := x.op = .return0 || x.op = .return1
      if !short || f.needClose || f.isVararg then
        modifyInstr i fun x => { x with
          op := if short then .ret else x.op
          k := x.k || f.needClose
          c := if f.isVararg then f.params + 1 else x.c }
    | .jmp => fixJump i (finalTarget (← func).code 100 i)
    | _ => pure ()

/-- Ends the function: its prototype. -/
def closeFunction : Comp Proto := do
  emitReturn (← varLevel) (some 0)
  leaveBlock
  finishCode
  let s ← get
  let f := s.func
  match s.outer with
  | g :: rest => set { s with func := g, outer := rest }
  | [] => pure ()
  pure (.mk f.code f.lines f.constants f.protos f.captures f.locals f.params f.isVararg
    f.stackSize f.firstLine f.lastLine s.scanner.chunk s.sourceName)

def setVararg (params : Nat) : Comp Unit := do
  modifyFunc fun f => { f with isVararg := true }
  let _ ← emitABC .varargprep params 0 0

/-- The parameters of a function. -/
def parameters : Comp Unit := do
  if !(← isChar ')') then
    whileTrue (do
      match ← token with
      | .name s =>
        nextToken
        let _ ← newVar s
        acceptChar ','
      | .word "..." =>
        nextToken
        modifyFunc fun f => { f with isVararg := true }
        pure false
      | _ => syntaxError "<name> or '...' expected") (← fuel)
  let f ← func
  let s ← get
  enterScope (s.vars.size - f.firstLocal - f.activeVars)
  modifyFunc fun f => { f with params := f.activeVars }
  let f ← func
  if f.isVararg then setVararg f.params
  reserve f.activeVars

def statements (inner : Inner) : Comp Unit := do
  whileTrue (do
    if ← blockEnds true then pure false
    else if ← isWord "return" then
      inner.statement
      pure false
    else
      inner.statement
      pure true) (← fuel)

/-- The parameters and the body of a function. -/
def functionBody (inner : Inner) (isMethod : Bool) (l : Nat) : Comp Exp := do
  openFunction l
  expectChar '('
  if isMethod then
    newInternalVar "self"
    enterScope 1
  parameters
  expectChar ')'
  statements inner
  let last ← line
  modifyFunc fun f => { f with lastLine := last }
  closeWord "end" "function" l
  -- the instruction that makes the function has the line of its end
  let proto ← closeFunction
  modifyFunc fun f => { f with protos := f.protos.push proto }
  let i ← emit { op := .closure, j := (← func).protos.size - 1 }
  toNext { place := .open i }

/-! ## Expressions -/

def expression (inner : Inner) : Comp Exp := do pure (← inner.operand 0).1

/-- A list of expressions, all but the last in registers; their number. -/
def expressions (inner : Inner) : Comp (Exp × Nat) := do
  let first ← expression inner
  go first 1 (← fuel)
where
  go (e : Exp) (n : Nat) : Nat → Comp (Exp × Nat)
    | 0 => pure (e, n)
    | fuel + 1 => do
      if ← acceptChar ',' then
        let _ ← toNext e
        go (← expression inner) (n + 1) fuel
      else pure (e, n)

/-- `.name` or `:name` behind a value. -/
def field (e : Exp) : Comp Exp := do
  let e ← toAnyOrCaptured e
  nextToken
  let name ← expectName
  index e { place := .str name }

/-- `[key]`. -/
def bracketed (inner : Inner) : Comp Exp := do
  nextToken
  let k ← toValue (← expression inner)
  expectChar ']'
  pure k

/-- A table constructor under way. -/
structure Constructor where
  table : Exp
  /-- The list item read last. -/
  item : Exp := { place := .void }
  fields : Nat := 0
  items : Nat := 0
  /-- Items in registers that are not stored yet. -/
  pending : Nat := 0

def emitSetList (base items : Nat) (pending : Option Nat) : Comp Unit := do
  let b := pending.getD 0
  if items ≤ 255 then
    let _ ← emitABC .setlist base b items
  else
    let _ ← emit { op := .setlist, a := base, b := b, c := items % 256, k := true }
    emitExtra (items / 256)
  setFreeReg (base + 1)

/-- `name = value` or `[key] = value`. -/
def recordField (inner : Inner) (c : Constructor) : Comp Constructor := do
  let free ← freeReg
  let key ← match ← token with
    | .name s =>
      nextToken
      pure { place := .str s }
    | _ => bracketed inner
  expectChar '='
  let target ← index c.table key
  store target (← expression inner)
  setFreeReg free
  pure { c with fields := c.fields + 1 }

/-- Puts the last item into a register, and stores the items when there are enough of them. -/
def closeItem (c : Constructor) : Comp Constructor := do
  match c.item.place with
  | .void => pure c
  | _ =>
    let _ ← toNext c.item
    let c := { c with item := { place := .void } }
    if c.pending = 50 then
      emitSetList (registerOf c.table) c.items (some c.pending)
      pure { c with items := c.items + c.pending, pending := 0 }
    else pure c

/-- Stores the items that are left. -/
def closeLastItem (c : Constructor) : Comp Constructor := do
  if c.pending = 0 then pure c
  else if c.item.isMulti then
    setResults c.item none
    emitSetList (registerOf c.table) c.items none
    pure { c with items := c.items + c.pending - 1 }
  else
    match c.item.place with
    | .void => pure ()
    | _ =>
      let _ ← toNext c.item
    emitSetList (registerOf c.table) c.items (some c.pending)
    pure { c with items := c.items + c.pending }

/-- A table. -/
def constructor (inner : Inner) : Comp Exp := do
  let l ← line
  let at_ ← emitABC .newtable 0 0 0
  emitExtra 0
  let table : Exp := { place := .fixed (← freeReg) }
  reserve 1
  expectChar '\x7b'
  let c ← go { table } (← fuel)
  closeChar '\x7d' '\x7b' l
  let c ← closeLastItem c
  let r := registerOf table
  modifyInstr at_ fun i => { i with
    a := r, b := if c.fields = 0 then 0 else ceilLog2 c.fields + 1, c := c.items % 256, k := c.items ≥ 256 }
  modifyInstr (at_ + 1) fun i => { i with j := c.items / 256 }
  pure table
where
  ceilLog2 (n : Nat) : Nat := if n ≤ 1 then 0 else (n - 1).log2 + 1
  go (c : Constructor) : Nat → Comp Constructor
    | 0 => pure c
    | fuel + 1 => do
      if ← isChar '\x7d' then pure c
      else
        let c ← closeItem c
        let isRecord ← match ← token with
          | .name _ => do pure ((← lookAhead).isChar '=')
          | t => pure (t.isChar '[')
        let c ← if isRecord then recordField inner c
          else do
            let e ← expression inner
            pure { c with item := e, pending := c.pending + 1 }
        if (← acceptChar ',') || (← acceptChar ';') then go c fuel else pure c

/-- The arguments of a call to the function in `f`. -/
def arguments (inner : Inner) (f : Exp) : Comp Exp := do
  let l ← line
  let args ← match ← token with
    | .str s =>
      nextToken
      pure { place := .str s }
    | t =>
      if t.isChar '(' then
        nextToken
        if ← isChar ')' then
          nextToken
          pure { place := .void }
        else
          let (e, _) ← expressions inner
          if e.isMulti then setResults e none
          closeChar ')' '(' l
          pure e
      else if t.isChar '\x7b' then constructor inner
      else syntaxError "function arguments expected"
  let base := registerOf f
  let count ← if args.isMulti then pure 0
    else do
      match args.place with
      | .void => pure ()
      | _ =>
        let _ ← toNext args
      pure ((← freeReg) - base)
  let i ← emitABC .call base count 2
  fixLine l
  setFreeReg (base + 1)
  pure { place := .call i }

/-- A name or an expression in parentheses. -/
def primary (inner : Inner) : Comp Exp := do
  match ← token with
  | .name _ => singleVar
  | t =>
    if t.isChar '(' then
      let l ← line
      nextToken
      let e ← expression inner
      closeChar ')' '(' l
      dischargeVars e
    else syntaxError "unexpected symbol"

/-- A primary expression with fields, indices and calls behind it. -/
def suffixed (inner : Inner) : Comp Exp := do
  let e ← primary inner
  go e (← fuel)
where
  go (e : Exp) : Nat → Comp Exp
    | 0 => pure e
    | fuel + 1 => do
      match ← token with
      | .str _ => go (← arguments inner (← toNext e)) fuel
      | .char c =>
        match Char.ofNat c.toNat with
        | '.' => go (← field e) fuel
        | '[' =>
          let e ← toAnyOrCaptured e
          let k ← bracketed inner
          go (← index e k) fuel
        | ':' =>
          nextToken
          let name ← expectName
          let e ← emitSelf e { place := .str name }
          go (← arguments inner e) fuel
        | '(' | '\x7b' => go (← arguments inner (← toNext e)) fuel
        | _ => pure e
      | _ => pure e

/-- An expression without operators. -/
def simple (inner : Inner) : Comp Exp := do
  let literal (p : Place) : Comp Exp := do
    nextToken
    pure { place := p }
  match ← token with
  | .float f => literal (.float f)
  | .int n => literal (.int n)
  | .str s => literal (.str s)
  | .word "nil" => literal .nil
  | .word "true" => literal (.bool true)
  | .word "false" => literal (.bool false)
  | .word "..." =>
    if !(← func).isVararg then syntaxError "cannot use '...' outside a vararg function"
    let i ← emitABC .vararg 0 0 1
    literal (.vararg i)
  | .word "function" =>
    nextToken
    functionBody inner false (← line)
  | t => if t.isChar '\x7b' then constructor inner else suffixed inner

/-- An expression whose operators bind tighter than `limit`, and the operator behind it. -/
def operand (inner : Inner) (limit : Nat) : Comp (Exp × Option BinaryOp) := nested do
  let e ← match unaryOf? (← token) with
    | some op => do
      let l ← line
      nextToken
      let (e, _) ← inner.operand unaryPriority
      applyUnary op e l
    | none => simple inner
  go e (binaryOf? (← token)) (← fuel)
where
  go (e : Exp) (op : Option BinaryOp) : Nat → Comp (Exp × Option BinaryOp)
    | 0 => pure (e, op)
    | fuel + 1 => do
      match op with
      | none => pure (e, none)
      | some op =>
        if op.priority.1 ≤ limit then pure (e, some op)
        else
          let l ← line
          nextToken
          let e1 ← prepareLeft op e
          let (e2, next) ← inner.operand op.priority.2
          go (← applyBinary op e1 e2 l) next fuel

/-! ## Assignments -/

/-- Fits `count` values to `wanted` variables. -/
def adjustValues (wanted count : Nat) (e : Exp) : Comp Unit := do
  if e.isMulti then setResults e (some (wanted + 1 - count))
  else
    match e.place with
    | .void => pure ()
    | _ =>
      let _ ← toNext e
    if wanted > count then emitNil (← freeReg) (wanted - count)
  if wanted > count then reserve (wanted - count)
  else setFreeReg ((← freeReg) - (count - wanted))

/-- Saves a local or captured variable that is assigned while earlier targets still use it as a
table or a key. -/
def avoidConflict (targets : List Exp) (v : Exp) : Comp (List Exp) := do
  let extra ← freeReg
  let fix (t : Exp) : Exp × Bool :=
    match t.place, v.place with
    | .indexedUp i k, .captured j => if i = j then ({ t with place := .indexedStr extra k }, true) else (t, false)
    | .indexed tab k, .local r _ =>
      ({ t with place := .indexed (if tab = r then extra else tab) (if k = r then extra else k) },
        tab = r || k = r)
    | .indexedInt tab n, .local r _ =>
      if tab = r then ({ t with place := .indexedInt extra n }, true) else (t, false)
    | .indexedStr tab k, .local r _ =>
      if tab = r then ({ t with place := .indexedStr extra k }, true) else (t, false)
    | _, _ => (t, false)
  let fixed := targets.map fix
  if fixed.any (·.2) then
    match v.place with
    | .local r _ =>
      let _ ← emitABC .move extra r 0
    | .captured i =>
      let _ ← emitABC .getupval extra i 0
    | _ => pure ()
    reserve 1
  pure (fixed.map (·.1))

/-- The targets of an assignment, the last one first. -/
def targets (inner : Inner) : Nat → List Exp → Comp (List Exp)
  | 0, ts => pure ts
  | fuel + 1, ts => do
    match ts with
    | [] => pure ts
    | t :: _ =>
      if !t.isVariable then syntaxError "syntax error"
      checkWritable t
      if ← acceptChar ',' then
        let v ← suffixed inner
        let ts ← if v.isIndexed then pure ts else avoidConflict ts v
        modify fun s => { s with depth := s.depth + 1 }
        if (← get).depth ≥ 198 then failAt (Bytes.ofText "C stack overflow") none
        targets inner fuel (v :: ts)
      else pure ts

def assignment (inner : Inner) (first : Exp) : Comp Unit := do
  let depth := (← get).depth
  let ts ← targets inner (← fuel) [first]
  expectChar '='
  let (e, count) ← expressions inner
  let rest ← if count = ts.length then
      match ts with
      | t :: rest => do
        store t (← setOneResult e)
        pure rest
      | [] => pure []
    else do
      adjustValues ts.length count e
      pure ts
  for t in rest do
    store t { place := .fixed ((← freeReg) - 1) }
  modify fun s => { s with depth }

/-! ## Statements -/

def block (inner : Inner) : Comp Unit := do
  enterBlock false
  statements inner
  leaveBlock

/-- The jumps out when a condition is false. -/
def condition (inner : Inner) : Comp Int := do
  let e ← expression inner
  let e := match e.place with
    | .nil => { e with place := .bool false }
    | _ => e
  pure (← goIfTrue e).whenFalse

def gotoStatement : Comp Unit := do
  let l ← line
  let name ← expectName
  match ← findLabel name with
  | none => newGoto name l (← emitJump)
  | some target =>
    let level ← levelOf target.activeVars
    if (← varLevel) > level then
      let _ ← emitABC .close level 0 0
    patchTo (← emitJump) target.pc.toNat

def labelStatement (inner : Inner) (name : Bytes) (l : Nat) : Comp Unit := do
  expectWord "::"
  whileTrue (do
    if (← isChar ';') || (← isWord "::") then
      inner.statement
      pure true
    else pure false) (← fuel)
  match ← findLabel name with
  | some other =>
    meaningError [Bytes.ofText "label '", name,
      Bytes.ofText s!"' already defined on line {other.line}"]
  | none => pure ()
  let last ← blockEnds false
  let _ ← createLabel name l last

def whileStatement (inner : Inner) (l : Nat) : Comp Unit := do
  nextToken
  let start ← label
  let exit ← condition inner
  enterBlock true
  expectWord "do"
  block inner
  patchTo (← emitJump) start
  closeWord "end" "while" l
  leaveBlock
  patchHere exit

def repeatStatement (inner : Inner) (l : Nat) : Comp Unit := do
  let start ← label
  enterBlock true
  enterBlock false
  nextToken
  statements inner
  closeWord "until" "repeat" l
  let exit ← condition inner
  let scope := ((← func).blocks.head?).getD default
  leaveBlock
  let exit ← if scope.captured then do
      let done ← emitJump
      patchHere exit
      let level ← levelOf scope.activeVars
      let _ ← emitABC .close level 0 0
      let again ← emitJump
      patchHere done
      pure (Int.ofNat again)
    else pure exit
  patchTo exit start
  leaveBlock

def fixForJump (at_ target : Nat) (back : Bool) : Comp Unit := do
  let offset : Int := (target : Int) - (at_ + 1)
  let offset := if back then -offset else offset
  if offset > 131071 then syntaxError "control structure too long"
  modifyInstr at_ fun i => { i with j := offset }

def forBody (inner : Inner) (base l vars : Nat) (generic : Bool) : Comp Unit := do
  expectWord "do"
  let prep ← emit { op := if generic then .tforprep else .forprep, a := base }
  enterBlock false
  enterScope vars
  reserve vars
  block inner
  leaveBlock
  fixForJump prep (← label) false
  if generic then
    let _ ← emitABC .tforcall base 0 vars
    fixLine l
  let loop ← emit { op := if generic then .tforloop else .forloop, a := base }
  fixForJump loop (prep + 1) true
  fixLine l

def forNumeric (inner : Inner) (name : Bytes) (l : Nat) : Comp Unit := do
  let base ← freeReg
  for _ in List.range 3 do newInternalVar "(for state)"
  let _ ← newVar name
  expectChar '='
  let _ ← toNext (← expression inner)
  expectChar ','
  let _ ← toNext (← expression inner)
  if ← acceptChar ',' then
    let _ ← toNext (← expression inner)
  else
    emitInt (← freeReg) 1
    reserve 1
  enterScope 3
  forBody inner base l 1 false

def forGeneric (inner : Inner) (name : Bytes) : Comp Unit := do
  let base ← freeReg
  for _ in List.range 4 do newInternalVar "(for state)"
  let _ ← newVar name
  let before := (← get).vars.size
  whileTrue (do
    if ← acceptChar ',' then
      let _ ← newVar (← expectName)
      pure true
    else pure false) (← fuel)
  let vars := 1 + ((← get).vars.size - before)
  expectWord "in"
  let l ← line
  let (e, count) ← expressions inner
  adjustValues 4 count e
  enterScope 4
  markToClose
  checkStack 3
  forBody inner base l vars true

def forStatement (inner : Inner) (l : Nat) : Comp Unit := do
  enterBlock true
  nextToken
  let name ← expectName
  if ← isChar '=' then forNumeric inner name l
  else if (← isChar ',') || (← isWord "in") then forGeneric inner name
  else syntaxError "'=' or 'in' expected"
  closeWord "end" "for" l
  leaveBlock

/-- `if` or `elseif` with its condition and block; the jumps to the end of the whole statement. -/
def conditionalBlock (inner : Inner) (exits : Int) : Comp Int := do
  nextToken
  let e ← expression inner
  expectWord "then"
  if ← isWord "break" then
    let l ← line
    let e ← goIfFalse e
    nextToken
    enterBlock false
    newGoto breakName l e.whenTrue
    whileTrue (acceptChar ';') (← fuel)
    if ← blockEnds false then
      leaveBlock
      pure exits
    else rest (← emitJump)
  else
    let e ← goIfTrue e
    enterBlock false
    rest e.whenFalse
where
  rest (skip : Int) : Comp Int := do
    statements inner
    leaveBlock
    let exits ← if (← isWord "else") || (← isWord "elseif") then do
        joinJumps exits (← emitJump)
      else pure exits
    patchHere skip
    pure exits

def ifStatement (inner : Inner) (l : Nat) : Comp Unit := do
  let exits ← conditionalBlock inner noJump
  let exits ← go exits (← fuel)
  if ← acceptWord "else" then block inner
  closeWord "end" "if" l
  patchHere exits
where
  go (exits : Int) : Nat → Comp Int
    | 0 => pure exits
    | fuel + 1 => do
      if ← isWord "elseif" then go (← conditionalBlock inner exits) fuel else pure exits

def localFunction (inner : Inner) : Comp Unit := do
  let index := (← func).activeVars
  let _ ← newVar (← expectName)
  enterScope 1
  let _ ← functionBody inner false (← line)
  let v ← var index
  modifyFunc fun f => { f with
    locals := f.locals.modify v.debugIndex fun l => { l with start := f.code.size } }

/-- An attribute behind the name of a local variable. -/
def attribute_ : Comp VarKind := do
  if ← acceptChar '<' then
    let name ← expectName
    expectChar '>'
    if name == Bytes.ofText "const" then pure .constant
    else if name == Bytes.ofText "close" then pure .toClose
    else meaningError [Bytes.ofText "unknown attribute '", name, Bytes.ofText "'"]
  else pure .regular

/-- The names of a local declaration; the index of the one that is to be closed. -/
def localNames (closing : Option Nat) (n : Nat) : Nat → Comp (Nat × Option Nat)
  | 0 => pure (n, closing)
  | fuel + 1 => do
    let index ← newVar (← expectName)
    let kind ← attribute_
    modifyVar index fun v => { v with kind }
    let closing ← if kind = .toClose then do
        if closing.isSome then
          meaningError [Bytes.ofText "multiple to-be-closed variables in local list"]
        pure (some ((← func).activeVars + n))
      else pure closing
    if ← acceptChar ',' then localNames closing (n + 1) fuel else pure (n + 1, closing)

def localStatement (inner : Inner) : Comp Unit := do
  let (n, closing) ← localNames none 0 (← fuel)
  let (e, count) ← if ← acceptChar '=' then expressions inner
    else pure ({ place := .void }, 0)
  let lastIndex := (← func).activeVars + n - 1
  let last ← var lastIndex
  let value ← if n = count && last.kind = .constant then constantValue? e else pure none
  match value with
  | some v =>
    modifyVar lastIndex fun x => { x with kind := .compileTime, value := v }
    enterScope (n - 1)
    modifyFunc fun f => { f with activeVars := f.activeVars + 1 }
  | none =>
    adjustValues n count e
    enterScope n
  match closing with
  | some i =>
    markToClose
    let level ← levelOf i
    let _ ← emitABC .tbc level 0 0
  | none => pure ()

def functionStatement (inner : Inner) (l : Nat) : Comp Unit := do
  nextToken
  let e ← singleVar
  let (target, isMethod) ← go e (← fuel)
  let f ← functionBody inner isMethod l
  checkWritable target
  store target f
  fixLine l
where
  go (e : Exp) : Nat → Comp (Exp × Bool)
    | 0 => pure (e, false)
    | fuel + 1 => do
      if ← isChar '.' then go (← field e) fuel
      else if ← isChar ':' then do pure (← field e, true)
      else pure (e, false)

def expressionStatement (inner : Inner) : Comp Unit := do
  let e ← suffixed inner
  if (← isChar '=') || (← isChar ',') then assignment inner e
  else
    match e.place with
    | .call i => modifyInstr i fun x => { x with c := 1 }
    | _ => syntaxError "syntax error"

def returnStatement (inner : Inner) : Comp Unit := do
  let first ← varLevel
  if (← blockEnds true) || (← isChar ';') then emitReturn first (some 0)
  else
    let (e, count) ← expressions inner
    if e.isMulti then
      setResults e none
      match e.place with
      | .call i =>
        let inside := (((← func).blocks.head?).map (·.insideClose)).getD false
        if count = 1 && !inside then modifyInstr i fun x => { x with op := .tailcall }
      | _ => pure ()
      emitReturn first none
    else if count = 1 then
      let e ← toAny e
      emitReturn (registerOf e) (some 1)
    else
      let _ ← toNext e
      emitReturn first (some count)
  let _ ← acceptChar ';'

/-- A statement; afterwards only variables have registers. -/
def statement (inner : Inner) : Comp Unit := nested do
  let l ← line
  match ← token with
  | .word "if" => ifStatement inner l
  | .word "while" => whileStatement inner l
  | .word "do" =>
    nextToken
    block inner
    closeWord "end" "do" l
  | .word "for" => forStatement inner l
  | .word "repeat" => repeatStatement inner l
  | .word "function" => functionStatement inner l
  | .word "local" =>
    nextToken
    if ← acceptWord "function" then localFunction inner else localStatement inner
  | .word "::" =>
    nextToken
    labelStatement inner (← expectName) l
  | .word "return" =>
    nextToken
    returnStatement inner
  | .word "break" =>
    let l ← line
    nextToken
    newGoto breakName l (← emitJump)
  | .word "goto" =>
    nextToken
    gotoStatement
  | t => if t.isChar ';' then nextToken else expressionStatement inner
  setFreeReg (← varLevel)

/-- The grammar with `n` levels of nesting. -/
def levels : Nat → Inner
  | 0 => ⟨fun _ => failAt (Bytes.ofText "C stack overflow") none,
      failAt (Bytes.ofText "C stack overflow") none⟩
  | n + 1 => ⟨fun limit s => operand (levels n) limit s, fun s => statement (levels n) s⟩

/-- A whole script as a function with any number of arguments, whose only captured variable is
the environment. -/
def chunk : Comp Proto := do
  modify fun s => { s with func := {} }
  enterBlock false
  setVararg 0
  modifyFunc fun f => { f with captures := #[⟨environmentName, true, 0, .regular⟩] }
  nextToken
  statements (levels 210)
  match ← token with
  | .eof => pure ()
  | _ => expected .eof
  closeFunction

end ScriptHost.Script.Compile

namespace ScriptHost.Script

/-- Compiles a source text; an error is a message. -/
def compile (source name : Bytes) : Except Bytes Proto :=
  let s : Compile.State := { scanner := { source, chunk := displayName name }, sourceName := name }
  match (Compile.chunk.run s) with
  | .ok (p, _) => .ok p
  | .error e => .error e

end ScriptHost.Script
