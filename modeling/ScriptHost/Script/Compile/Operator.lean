import ScriptHost.Script.Compile.Operand

/-!
# Operators

Unary and binary operators on expressions under construction. An operation on
two numerals is done now when it can neither fail nor give a zero or a NaN;
otherwise an operand that is a small integer or a constant goes into the
instruction.
-/
namespace ScriptHost.Script.Compile

inductive UnaryOp where
  | minus | bnot | not | len
  deriving DecidableEq, Repr

inductive BinaryOp where
  | add | sub | mul | mod | pow | div | idiv | band | bor | bxor | shl | shr | concat
  | eq | lt | le | ne | gt | ge | and | or
  deriving DecidableEq, Repr

namespace BinaryOp

/-- The arithmetic operation, its metamethod's event, and its instructions on registers and with
a constant. -/
def arith? : BinaryOp → Option (Number.Op × MetaEvent × Opcode × Opcode)
  | .add => some (.add, .add, .add, .addk)
  | .sub => some (.sub, .sub, .sub, .subk)
  | .mul => some (.mul, .mul, .mul, .mulk)
  | .mod => some (.mod, .mod, .mod, .modk)
  | .pow => some (.pow, .pow, .pow, .powk)
  | .div => some (.div, .div, .div, .divk)
  | .idiv => some (.idiv, .idiv, .idiv, .idivk)
  | .band => some (.band, .band, .band, .bandk)
  | .bor => some (.bor, .bor, .bor, .bork)
  | .bxor => some (.bxor, .bxor, .bxor, .bxork)
  | .shl => some (.shl, .shl, .shl, .shl)
  | .shr => some (.shr, .shr, .shr, .shr)
  | _ => none

/-- How tightly an operator binds what is left and right of it. -/
def priority : BinaryOp → Nat × Nat
  | .add | .sub => (10, 10)
  | .mul | .mod | .div | .idiv => (11, 11)
  | .pow => (14, 13)
  | .band => (6, 6)
  | .bor => (4, 4)
  | .bxor => (5, 5)
  | .shl | .shr => (7, 7)
  | .concat => (9, 8)
  | .eq | .lt | .le | .ne | .gt | .ge => (3, 3)
  | .and => (2, 2)
  | .or => (1, 1)

end BinaryOp

/-- How tightly unary operators bind. -/
def unaryPriority : Nat := 12

def unaryOf? (t : Token) : Option UnaryOp :=
  if t.isWord "not" then some .not
  else if t.isChar '-' then some .minus
  else if t.isChar '~' then some .bnot
  else if t.isChar '#' then some .len
  else none

def binaryOf? (t : Token) : Option BinaryOp :=
  match t with
  | .char c =>
    match Char.ofNat c.toNat with
    | '+' => some .add | '-' => some .sub | '*' => some .mul | '%' => some .mod
    | '^' => some .pow | '/' => some .div | '&' => some .band | '|' => some .bor
    | '~' => some .bxor | '<' => some .lt | '>' => some .gt
    | _ => none
  | .word w =>
    match w with
    | "//" => some .idiv | "<<" => some .shl | ">>" => some .shr | ".." => some .concat
    | "~=" => some .ne | "==" => some .eq | "<=" => some .le | ">=" => some .ge
    | "and" => some .and | "or" => some .or
    | _ => none
  | _ => none

/-- The operation may be done now on these operands. -/
def mayFold (op : Number.Op) (a b : Value) : Bool :=
  match op with
  | .band | .bor | .bxor | .shl | .shr | .bnot => (Number.toInt? a).isSome && (Number.toInt? b).isSome
  | .div | .idiv | .mod => !(b.rawEq (.int 0))
  | _ => true

/-- The result of an operation on two numerals. -/
def fold? (op : Number.Op) (a b : Exp) : Option Place :=
  match a.numeral?, b.numeral? with
  | some x, some y =>
    if mayFold op x y then
      match Number.arith op x y with
      | .ok (.int n) => some (.int n)
      | .ok (.float f) => if f == f && !(f == 0) then some (.float f) else none
      | _ => none
    else none
  | _, _ => none

/-- A unary instruction. -/
def emitUnary (op : Opcode) (e : Exp) (l : Nat) : Comp Exp := do
  let e ← toAny e
  freeExp e
  let i ← emitABC op 0 (registerOf e) 0
  fixLine l
  pure { e with place := .open i }

/-- Applies a unary operator. -/
def applyUnary (op : UnaryOp) (e : Exp) (l : Nat) : Comp Exp := do
  let e ← dischargeVars e
  let zero : Exp := { place := .int 0 }
  match op with
  | .minus =>
    match fold? .unm e zero with
    | some p => pure { e with place := p }
    | none => emitUnary .unm e l
  | .bnot =>
    match fold? .bnot e zero with
    | some p => pure { e with place := p }
    | none => emitUnary .bnot e l
  | .len => emitUnary .len e l
  | .not => emitNot e

/-- The small integer of a numeral, and whether it is a float. -/
def smallNumber? (e : Exp) : Option (Int × Bool) :=
  match e.numeral? with
  | some (.int n) => if fitsNarrow n then some (n.toInt, false) else none
  | some (.float f) =>
    match Value.exactInt? f with
    | some n => if fitsNarrow n then some (n.toInt, true) else none
    | none => none
  | _ => none

def smallInt? (e : Exp) : Option Int :=
  match e.numeral? with
  | some (.int n) => if fitsNarrow n then some n.toInt else none
  | _ => none

/-- Prepares the left operand before the right one is read. -/
def prepareLeft (op : BinaryOp) (e : Exp) : Comp Exp := do
  let e ← dischargeVars e
  match op with
  | .and => goIfTrue e
  | .or => goIfFalse e
  | .concat => toNext e
  | .eq | .ne => if e.numeral?.isSome then pure e else do pure (← toOperand e).1
  | .lt | .le | .gt | .ge => if (smallNumber? e).isSome then pure e else toAny e
  | _ => if e.numeral?.isSome then pure e else toAny e

/-- An operation and the metamethod call behind it; the instructions have `instr`'s second
operand. -/
def emitArith (e1 e2 : Exp) (instr fallback : Instr) (l : Nat) : Comp Exp := do
  let e1 ← toAny e1
  let r := registerOf e1
  let i ← emit { instr with a := 0, b := r }
  freeExps e1 e2
  fixLine l
  let _ ← emit { fallback with a := r }
  fixLine l
  pure { e1 with place := .open i }

/-- Both operands in registers. -/
def emitOnRegisters (op : Opcode) (event : MetaEvent) (e1 e2 : Exp) (l : Nat) : Comp Exp := do
  let e2 ← toAny e2
  let r := registerOf e2
  emitArith e1 e2 { op, c := r } { op := .mmbin, b := r, event } l

/-- The second operand is a constant when that is possible. -/
def emitWithConstant (ops : MetaEvent × Opcode × Opcode) (e1 e2 : Exp) (flip usable : Bool)
    (l : Nat) : Comp Exp := do
  let (event, op, opK) := ops
  let k ← if usable then toConstant? e2 else pure none
  match k with
  | some i =>
    emitArith e1 { e2 with place := .constant i } { op := opK, c := i }
      { op := .mmbink, b := i, event, k := flip } l
  | none => if flip then emitOnRegisters op event e2 e1 l else emitOnRegisters op event e1 e2 l

/-- The second operand is a small integer in the instruction. -/
def emitWithInt (op : Opcode) (event : MetaEvent) (e1 e2 : Exp) (n operand : Int) (flip : Bool)
    (l : Nat) : Comp Exp :=
  emitArith e1 e2 { op, j := n } { op := .mmbini, j := operand, event, k := flip } l

/-- `e1 - n` as `e1 + -n`, if `n` is small. -/
def emitNegated? (op : Opcode) (event : MetaEvent) (e1 e2 : Exp) (l : Nat) : Comp (Option Exp) := do
  match e2.numeral? with
  | some (.int n) =>
    if fitsNarrow n && fitsNarrow (0 - n) then
      some <$> emitWithInt op event e1 e2 (-n.toInt) n.toInt false l
    else pure none
  | _ => pure none

def emitOrder (op : BinaryOp) (e1 e2 : Exp) : Comp Exp := do
  let isLess := op = .lt
  match smallNumber? e2 with
  | some (n, isFloat) =>
    let e1 ← toAny e1
    freeExps e1 e2
    let j ← emitTest { op := if isLess then .lti else .lei, a := registerOf e1, j := n, c := isFloat.toNat, k := true }
    pure { e1 with place := .jump j }
  | none =>
    match smallNumber? e1 with
    | some (n, isFloat) =>
      let e2 ← toAny e2
      freeExps e1 e2
      let j ← emitTest { op := if isLess then .gti else .gei, a := registerOf e2, j := n, c := isFloat.toNat, k := true }
      pure { e1 with place := .jump j }
    | none =>
      let e1 ← toAny e1
      let e2 ← toAny e2
      freeExps e1 e2
      let j ← emitTest { op := if isLess then .lt else .le, a := registerOf e1, b := registerOf e2, k := true }
      pure { e1 with place := .jump j }

def emitEquality (op : BinaryOp) (e1 e2 : Exp) : Comp Exp := do
  let (e1, e2) := match e1.place with
    | .fixed _ => (e1, e2)
    | _ => (e2, e1)
  let e1 ← toAny e1
  let k := op = .eq
  match smallNumber? e2 with
  | some (n, isFloat) =>
    freeExps e1 e2
    let j ← emitTest { op := .eqi, a := registerOf e1, j := n, c := isFloat.toNat, k }
    pure { e1 with place := .jump j }
  | none =>
    let (e2, isConstant) ← toOperand e2
    freeExps e1 e2
    let j ← emitTest { op := if isConstant then .eqk else .eq, a := registerOf e1, b := operandIndex e2, k }
    pure { e1 with place := .jump j }

/-- `e1 .. e2`; a concatenation on the right takes one operand more. -/
def emitConcat (e1 e2 : Exp) (l : Nat) : Comp Exp := do
  match ← previous? with
  | some p =>
    if p.op = .concat then
      freeExp e2
      modifyInstr ((← pc) - 1) fun i => { i with a := registerOf e1, b := i.b + 1 }
      return e1
    else pure ()
  | none => pure ()
  let _ ← emitABC .concat (registerOf e1) 2 0
  freeExp e2
  fixLine l
  pure e1

/-- An arithmetic or bitwise operator whose operands were not folded. -/
def emitBinaryArith (op : BinaryOp) (ops : MetaEvent × Opcode × Opcode) (e1 e2 : Exp) (l : Nat) :
    Comp Exp := do
  let isInt (e : Exp) : Bool := match e.place with | .int _ => true | _ => false
  match op with
  | .add | .mul =>
    let flip := e1.numeral?.isSome
    let (e1, e2) := if flip then (e2, e1) else (e1, e2)
    match op, smallInt? e2 with
    | .add, some n => emitWithInt .addi .add e1 e2 n n flip l
    | _, _ => emitWithConstant ops e1 e2 flip e2.numeral?.isSome l
  | .sub =>
    match ← emitNegated? .addi .sub e1 e2 l with
    | some e => pure e
    | none => emitWithConstant ops e1 e2 false e2.numeral?.isSome l
  | .band | .bor | .bxor =>
    let flip := isInt e1
    let (e1, e2) := if flip then (e2, e1) else (e1, e2)
    emitWithConstant ops e1 e2 flip (isInt e2) l
  | .shl =>
    match smallInt? e1 with
    | some n => emitWithInt .shli .shl e2 e1 n n true l
    | none =>
      match ← emitNegated? .shri .shl e1 e2 l with
      | some e => pure e
      | none => emitOnRegisters .shl .shl e1 e2 l
  | .shr =>
    match smallInt? e2 with
    | some n => emitWithInt .shri .shr e1 e2 n n false l
    | none => emitOnRegisters .shr .shr e1 e2 l
  | _ => emitWithConstant ops e1 e2 false e2.numeral?.isSome l

/-- Applies a binary operator whose operands have both been read. -/
def applyBinary (op : BinaryOp) (e1 e2 : Exp) (l : Nat) : Comp Exp := do
  let e2 ← dischargeVars e2
  match op.arith? with
  | some (arith, ops) =>
    match fold? arith e1 e2 with
    | some p => pure { e1 with place := p }
    | none => emitBinaryArith op ops e1 e2 l
  | none =>
    match op with
    | .and => do pure { e2 with whenFalse := ← joinJumps e2.whenFalse e1.whenFalse }
    | .or => do pure { e2 with whenTrue := ← joinJumps e2.whenTrue e1.whenTrue }
    | .concat => do emitConcat e1 (← toNext e2) l
    | .eq | .ne => emitEquality op e1 e2
    | .gt => emitOrder .lt e2 e1
    | .ge => emitOrder .le e2 e1
    | _ => emitOrder op e1 e2

end ScriptHost.Script.Compile
