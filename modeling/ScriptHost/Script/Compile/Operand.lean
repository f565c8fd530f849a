import ScriptHost.Script.Compile.Scope

/-!
# Expressions under construction

While an expression is compiled, its value is described by where it can be
found: as a constant, in a register, behind an index, as the outcome of a
jump, or as the result of an instruction whose register is still open. The
functions here turn one description into another and write the instructions
that this takes.
-/
namespace ScriptHost.Script.Compile

/-- Where the value of an expression is. -/
inductive Place where
  /-- There is no value. -/
  | void
  | nil
  | bool (b : Bool)
  /-- A constant of the function. -/
  | constant (index : Nat)
  | float (f : Float)
  | int (n : Int64)
  | str (s : Bytes)
  /-- In a register. -/
  | fixed (register : Nat)
  /-- A local variable. -/
  | local (register index : Nat)
  /-- A captured variable. -/
  | captured (index : Nat)
  /-- A compile-time constant: an index into the variables in scope. -/
  | named (index : Nat)
  /-- `t[k]` with both in registers. -/
  | indexed (table key : Nat)
  /-- A field of a captured variable. -/
  | indexedUp (captured key : Nat)
  /-- `t[n]` with a small integer. -/
  | indexedInt (table n : Nat)
  /-- A field of a register. -/
  | indexedStr (table key : Nat)
  /-- True or false, by the jump at an instruction. -/
  | jump (at_ : Nat)
  /-- The result of an instruction with an open register. -/
  | open (at_ : Nat)
  | call (at_ : Nat)
  | vararg (at_ : Nat)
  deriving Inhabited

/-- An expression: a place, and the lists of jumps that leave it when it is true or false. -/
structure Exp where
  place : Place
  whenTrue : Int := noJump
  whenFalse : Int := noJump
  deriving Inhabited

namespace Exp

def hasJumps (e : Exp) : Bool := e.whenTrue != e.whenFalse

/-- The expression may have any number of values. -/
def isMulti (e : Exp) : Bool :=
  match e.place with
  | .call _ | .vararg _ => true
  | _ => false

/-- The expression can be assigned to. -/
def isVariable (e : Exp) : Bool :=
  match e.place with
  | .local .. | .captured _ | .named _ | .indexed .. | .indexedUp .. | .indexedInt .. | .indexedStr .. => true
  | _ => false

def isIndexed (e : Exp) : Bool :=
  match e.place with
  | .indexed .. | .indexedUp .. | .indexedInt .. | .indexedStr .. => true
  | _ => false

/-- The number of a numeral. -/
def numeral? (e : Exp) : Option Value :=
  if e.hasJumps then none
  else match e.place with
    | .int n => some (.int n)
    | .float f => some (.float f)
    | _ => none

/-- The register that has to be given back. -/
def fixedRegister? (e : Exp) : Option Nat :=
  match e.place with
  | .fixed r => some r
  | _ => none

end Exp

/-- A constant as an expression. -/
def placeOfValue : Value → Place
  | .int n => .int n
  | .float f => .float f
  | .bool b => .bool b
  | .str s => .str s
  | _ => .nil

/-- The value of an expression that is known now. -/
def constantValue? (e : Exp) : Comp (Option Value) := do
  if e.hasJumps then pure none
  else match e.place with
    | .bool b => pure (some (.bool b))
    | .nil => pure (some .nil)
    | .str s => pure (some (.str s))
    | .named i => pure (((← get).vars[i]?).map (·.value))
    | _ => pure e.numeral?

/-! ## Registers of expressions -/

/-- Gives a register back, unless it is a variable's. -/
def freeRegister (r : Nat) : Comp Unit := do
  if r ≥ (← varLevel) then setFreeReg ((← freeReg) - 1)

def freeExp (e : Exp) : Comp Unit := do
  match e.fixedRegister? with
  | some r => freeRegister r
  | none => pure ()

/-- Gives two registers back, the higher one first. -/
def freeRegisters (a b : Nat) : Comp Unit := do
  freeRegister (max a b)
  freeRegister (min a b)

def freeExps (e1 e2 : Exp) : Comp Unit := do
  match e1.fixedRegister?, e2.fixedRegister? with
  | some a, some b => freeRegisters a b
  | some a, none => freeRegister a
  | none, some b => freeRegister b
  | none, none => pure ()

/-- Sets `n` registers from `first` on to nil, together with those of an instruction just before. -/
def emitNil (first n : Nat) : Comp Unit := do
  let last := first + n - 1
  match ← previous? with
  | some p =>
    let pl := p.a + p.b
    if p.op = .loadnil && ((p.a ≤ first && first ≤ pl + 1) || (first ≤ p.a && p.a ≤ last + 1)) then
      let lo := min p.a first
      let hi := max pl last
      modifyInstr ((← pc) - 1) fun i => { i with a := lo, b := hi - lo }
    else
      let _ ← emitABC .loadnil first (n - 1) 0
  | none =>
    let _ ← emitABC .loadnil first (n - 1) 0

def emitExtra (n : Nat) : Comp Unit := do
  let _ ← emit { op := .extraarg, j := n }

def emitConstant (r index : Nat) : Comp Unit := do
  if index ≤ 131071 then
    let _ ← emit { op := .loadk, a := r, j := index }
  else
    let _ ← emit { op := .loadkx, a := r }
    emitExtra index

/-- The integer fits into an instruction. -/
def fitsWide (n : Int64) : Bool := -65535 ≤ n && n ≤ 65536
def fitsNarrow (n : Int64) : Bool := -127 ≤ n && n ≤ 128

def emitInt (r : Nat) (n : Int64) : Comp Unit := do
  if fitsWide n then
    let _ ← emit { op := .loadi, a := r, j := n.toInt }
  else emitConstant r (← intConstant n)

def emitFloat (r : Nat) (f : Float) : Comp Unit := do
  match Value.exactInt? f with
  | some n =>
    if fitsWide n then
      let _ ← emit { op := .loadf, a := r, j := n.toInt }
    else emitConstant r (← floatConstant f)
  | none => emitConstant r (← floatConstant f)

/-- Fixes the number of values of a call or `...` (none: as many as there are). -/
def setResults (e : Exp) (n : Option Nat) : Comp Unit := do
  let c := match n with | some n => n + 1 | none => 0
  match e.place with
  | .call i => modifyInstr i fun x => { x with c := c }
  | .vararg i =>
    let r ← freeReg
    modifyInstr i fun x => { x with c := c, a := r }
    reserve 1
  | _ => pure ()

/-- Takes one value of a call or `...`. -/
def setOneResult (e : Exp) : Comp Exp := do
  match e.place with
  | .call i =>
    let x ← instrAt i
    pure { e with place := .fixed x.a }
  | .vararg i =>
    modifyInstr i fun x => { x with c := 2 }
    pure { e with place := .open i }
  | _ => pure e

/-- Writes the reading of a variable. -/
def dischargeVars (e : Exp) : Comp Exp := do
  match e.place with
  | .named i =>
    let v := (((← get).vars[i]?).map (·.value)).getD .nil
    pure { e with place := placeOfValue v }
  | .local r _ => pure { e with place := .fixed r }
  | .captured i => pure { e with place := .open (← emitABC .getupval 0 i 0) }
  | .indexedUp t k => pure { e with place := .open (← emitABC .gettabup 0 t k) }
  | .indexedInt t n =>
    freeRegister t
    pure { e with place := .open (← emitABC .geti 0 t n) }
  | .indexedStr t k =>
    freeRegister t
    pure { e with place := .open (← emitABC .getfield 0 t k) }
  | .indexed t k =>
    freeRegisters t k
    pure { e with place := .open (← emitABC .gettable 0 t k) }
  | .call _ | .vararg _ => setOneResult e
  | _ => pure e

/-- Puts a value that is no jump into register `r`. -/
def dischargeTo (e : Exp) (r : Nat) : Comp Exp := do
  let e ← dischargeVars e
  match e.place with
  | .nil => emitNil r 1
  | .bool b =>
    let _ ← emitABC (if b then .loadtrue else .loadfalse) r 0 0
  | .str s => emitConstant r (← stringConstant s)
  | .constant i => emitConstant r i
  | .float f => emitFloat r f
  | .int n => emitInt r n
  | .open i => modifyInstr i fun x => { x with a := r }
  | .fixed s =>
    if r != s then
      let _ ← emitABC .move r s 0
  | _ => pure ()
  match e.place with
  | .jump _ | .void => pure e
  | _ => pure { e with place := .fixed r }

def dischargeToAny (e : Exp) : Comp Exp := do
  match e.place with
  | .fixed _ => pure e
  | _ =>
    reserve 1
    dischargeTo e ((← freeReg) - 1)

/-- Some jump of the list leaves no value behind. -/
def needsValue (list : Int) : Comp Bool := do
  let code := (← func).code
  pure ((← jumpsOf list).any fun j => (code[controlOf code j]?.getD default).op != .testset)

/-- Takes the values off the tests of a list. -/
def removeValues (list : Int) : Comp Unit := do
  for j in ← jumpsOf list do
    let _ ← patchTest j none

/-- Puts the value into register `r`, that of its jumps too. -/
def toRegister (e : Exp) (r : Nat) : Comp Exp := do
  let e ← dischargeTo e r
  let e ← match e.place with
    | .jump at_ => do pure { e with whenTrue := ← joinJumps e.whenTrue at_ }
    | _ => pure e
  if e.hasJumps then
    let mut onFalse := 0
    let mut onTrue := 0
    if (← needsValue e.whenTrue) || (← needsValue e.whenFalse) then
      let skip ← match e.place with
        | .jump _ => pure noJump
        | _ => do pure (Int.ofNat (← emitJump))
      let _ ← label
      onFalse ← emitABC .lfalseskip r 0 0
      let _ ← label
      onTrue ← emitABC .loadtrue r 0 0
      patchHere skip
    let final ← label
    patchJumps e.whenFalse final (some r) onFalse
    patchJumps e.whenTrue final (some r) onTrue
  pure { place := .fixed r }

/-- Puts the value into the next free register. -/
def toNext (e : Exp) : Comp Exp := do
  let e ← dischargeVars e
  freeExp e
  reserve 1
  toRegister e ((← freeReg) - 1)

/-- Puts the value into some register. -/
def toAny (e : Exp) : Comp Exp := do
  let e ← dischargeVars e
  match e.place with
  | .fixed r =>
    if !e.hasJumps then pure e
    else if r ≥ (← varLevel) then toRegister e r
    else toNext e
  | _ => toNext e

/-- The register a value has been put into. -/
def registerOf (e : Exp) : Nat := e.fixedRegister?.getD 0

/-- Puts the value into a register unless it is a captured variable. -/
def toAnyOrCaptured (e : Exp) : Comp Exp := do
  match e.place with
  | .captured _ => if e.hasJumps then toAny e else pure e
  | _ => toAny e

/-- Makes the value a register or a constant. -/
def toValue (e : Exp) : Comp Exp := do
  if e.hasJumps then toAny e
  else match e.place with
    | .jump _ => toAny e
    | _ => dischargeVars e

/-- Makes a known value a constant of the function, if its index fits into an instruction. -/
def toConstant? (e : Exp) : Comp (Option Nat) := do
  if e.hasJumps then pure none
  else
    let index ← match e.place with
      | .bool b => some <$> boolConstant b
      | .nil => some <$> nilConstant
      | .int n => some <$> intConstant n
      | .float f => some <$> floatConstant f
      | .str s => some <$> stringConstant s
      | .constant i => pure (some i)
      | _ => pure none
    pure (index.filter (· ≤ 255))

/-- The value as a constant or a register; whether it is a constant. -/
def toOperand (e : Exp) : Comp (Exp × Bool) := do
  match ← toConstant? e with
  | some i => pure ({ e with place := .constant i }, true)
  | none => pure (← toAny e, false)

/-- The index in an operand. -/
def operandIndex (e : Exp) : Nat :=
  match e.place with
  | .constant i => i
  | .fixed r => r
  | _ => 0

def emitWithOperand (op : Opcode) (a b : Nat) (e : Exp) : Comp Exp := do
  let (e, k) ← toOperand e
  let _ ← emit { op, a, b, c := operandIndex e, k }
  pure e

/-- Assigns to a variable. -/
def store (target e : Exp) : Comp Unit := do
  match target.place with
  | .local r _ =>
    freeExp e
    let _ ← toRegister e r
  | .captured i =>
    let e ← toAny e
    let _ ← emitABC .setupval (registerOf e) i 0
    freeExp e
  | .indexedUp t k => freeExp (← emitWithOperand .settabup t k e)
  | .indexedInt t n => freeExp (← emitWithOperand .seti t n e)
  | .indexedStr t k => freeExp (← emitWithOperand .setfield t k e)
  | .indexed t k => freeExp (← emitWithOperand .settable t k e)
  | _ => pure ()

/-- `e:key`: the function and its object in the next two registers. -/
def emitSelf (e key : Exp) : Comp Exp := do
  let e ← toAny e
  freeExp e
  let base ← freeReg
  reserve 2
  let key ← emitWithOperand .self base (registerOf e) key
  freeExp key
  pure { e with place := .fixed base }

/-! ## Conditions -/

def negate (jump : Nat) : Comp Unit := do
  let at_ := controlOf (← func).code jump
  modifyInstr at_ fun i => { i with k := !i.k }

def emitTest (i : Instr) : Comp Nat := do
  let _ ← emit i
  emitJump

/-- A jump when the value is true (`cond`) or false. -/
def jumpOn (e : Exp) (cond : Bool) : Comp Nat := do
  let negated ← match e.place with
    | .open i => do
      let x ← instrAt i
      pure (if x.op = .not then some x.b else none)
    | _ => pure none
  match negated with
  | some r =>
    removeLast
    emitTest { op := .test, a := r, k := !cond }
  | none =>
    let e ← dischargeToAny e
    freeExp e
    emitTest { op := .testset, a := 255, b := registerOf e, k := cond }

/-- Goes on when the value is true and jumps when it is false. -/
def goIfTrue (e : Exp) : Comp Exp := do
  let e ← dischargeVars e
  let jump : Int ← match e.place with
    | .jump at_ =>
      negate at_
      pure (at_ : Int)
    | .constant _ | .float _ | .int _ | .str _ | .bool true => pure noJump
    | _ => do pure (Int.ofNat (← jumpOn e false))
  let whenFalse ← joinJumps e.whenFalse jump
  patchHere e.whenTrue
  pure { e with whenFalse, whenTrue := noJump }

/-- Goes on when the value is false and jumps when it is true. -/
def goIfFalse (e : Exp) : Comp Exp := do
  let e ← dischargeVars e
  let jump : Int ← match e.place with
    | .jump at_ => pure (at_ : Int)
    | .nil | .bool false => pure noJump
    | _ => do pure (Int.ofNat (← jumpOn e true))
  let whenTrue ← joinJumps e.whenTrue jump
  patchHere e.whenFalse
  pure { e with whenTrue, whenFalse := noJump }

def emitNot (e : Exp) : Comp Exp := do
  let place ← match e.place with
    | .nil | .bool false => pure (Place.bool true)
    | .constant _ | .float _ | .int _ | .str _ | .bool true => pure (Place.bool false)
    | .jump at_ =>
      negate at_
      pure (Place.jump at_)
    | .open _ | .fixed _ => do
      let e ← dischargeToAny e
      freeExp e
      pure (Place.open (← emitABC .not 0 (registerOf e) 0))
    | p => pure p
  removeValues e.whenTrue
  removeValues e.whenFalse
  pure { place, whenTrue := e.whenFalse, whenFalse := e.whenTrue }

/-! ## Indexing -/

/-- The expression is a short string among the constants. -/
def isShortName (e : Exp) : Comp Bool := do
  match e.place with
  | .constant i =>
    match (← func).constants[i]? with
    | some (.str s) => pure (!e.hasJumps && decide (i ≤ 255) && decide (s.size ≤ 40))
    | _ => pure false
  | _ => pure false

/-- `t[k]`. -/
def index (t k : Exp) : Comp Exp := do
  let k ← match k.place with
    | .str s => do pure { k with place := .constant (← stringConstant s) }
    | _ => pure k
  let name ← isShortName k
  let t ← match t.place with
    | .captured _ => if name then pure t else toAny t
    | _ => pure t
  match t.place with
  | .captured i => pure { t with place := .indexedUp i (operandIndex k) }
  | p =>
    let r := match p with | .local r _ => r | _ => registerOf t
    if name then pure { t with place := .indexedStr r (operandIndex k) }
    else
      let small := match k.numeral? with
        | some (.int n) => if 0 ≤ n && n ≤ 255 then some n.toInt.toNat else none
        | _ => none
      match small with
      | some n => pure { t with place := .indexedInt r n }
      | none =>
        let k ← toAny k
        pure { t with place := .indexed r (registerOf k) }

end ScriptHost.Script.Compile
