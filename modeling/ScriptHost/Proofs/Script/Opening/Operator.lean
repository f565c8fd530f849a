import ScriptHost.Proofs.Script.Opening.Operand

/-!
# The beginning of a script's code: operators

The steps that compile an operator between its operands. Operands that are numbers are folded into
one number, and of a concatenation that goes on the instruction before is changed, which is not the
first one.
-/
namespace ScriptHost.Script.Compile

open Std.Do

set_option mvcgen.warning false

variable {x : Progress}

/-! ## Operators

Both operands may still wait. They are put into registers in their order, the operator is appended
behind them, and its instruction is what the result waits for: so every lemma takes two expressions
that are `Late` and gives one that is. Only `emitConcat` does something else. -/

/-- What is folded is a number, and waits for nothing. -/
@[grind →] theorem number_of_fold? {op : Number.Op} {a b : Exp} {p : Place} (h : fold? op a b = some p) :
    (∃ n, p = .int n) ∨ ∃ f, p = .float f := by
  unfold fold? at h
  split at h
  · split at h
    · split at h
      · cases h
        exact .inl ⟨_, rfl⟩
      · split at h
        · cases h
          exact .inr ⟨_, rfl⟩
        · cases h
      · cases h
    · cases h
  · cases h

@[spec] theorem emitUnary_spec (op : Opcode) (e : Exp) (l : Nat) (h : x.Late e.place) :
    x.Gives (emitUnary op e l) (x.Late ·.place) := by
  mvcgen [emitUnary] with grind

@[spec] theorem applyUnary_spec (op : UnaryOp) (e : Exp) (l : Nat) (h : x.Late e.place) :
    x.Gives (applyUnary op e l) (x.Late ·.place) := by
  mvcgen [applyUnary] with grind

@[spec] theorem prepareLeft_spec (op : BinaryOp) (e : Exp) (h : x.Late e.place) :
    x.Gives (prepareLeft op e) (x.Late ·.place) := by
  mvcgen [prepareLeft] with grind

@[spec] theorem emitArith_spec (e1 e2 : Exp) (instr fallback : Instr) (l : Nat) (h : x.Late e1.place) :
    x.Gives (emitArith e1 e2 instr fallback l) (x.Late ·.place) := by
  mvcgen [emitArith] with grind

@[spec] theorem emitOnRegisters_spec (op : Opcode) (event : MetaEvent) (e1 e2 : Exp) (l : Nat)
    (h1 : x.Late e1.place) (h2 : x.Late e2.place) :
    x.Gives (emitOnRegisters op event e1 e2 l) (x.Late ·.place) := by
  mvcgen [emitOnRegisters] with grind

@[spec] theorem emitWithConstant_spec (ops : MetaEvent × Opcode × Opcode) (e1 e2 : Exp)
    (flip usable : Bool) (l : Nat) (h1 : x.Late e1.place) (h2 : x.Late e2.place) :
    x.Gives (emitWithConstant ops e1 e2 flip usable l) (x.Late ·.place) := by
  mvcgen [emitWithConstant] with grind

@[spec] theorem emitWithInt_spec (op : Opcode) (event : MetaEvent) (e1 e2 : Exp) (n operand : Int)
    (flip : Bool) (l : Nat) (h1 : x.Late e1.place) :
    x.Gives (emitWithInt op event e1 e2 n operand flip l) (x.Late ·.place) := by
  mvcgen [emitWithInt] with grind

@[spec] theorem emitNegated?_spec (op : Opcode) (event : MetaEvent) (e1 e2 : Exp) (l : Nat)
    (h1 : x.Late e1.place) :
    x.Gives (emitNegated? op event e1 e2 l) fun r => ∀ e, r = some e → x.Late e.place := by
  mvcgen [emitNegated?] with grind

@[spec] theorem emitOrder_spec (op : BinaryOp) (e1 e2 : Exp) (h1 : x.Late e1.place)
    (h2 : x.Late e2.place) : x.Gives (emitOrder op e1 e2) (x.Late ·.place) := by
  mvcgen [emitOrder] with grind

@[spec] theorem emitEquality_spec (op : BinaryOp) (e1 e2 : Exp) (h1 : x.Late e1.place)
    (h2 : x.Late e2.place) : x.Gives (emitEquality op e1 e2) (x.Late ·.place) := by
  mvcgen [emitEquality] with grind

@[spec] theorem emitConcat_spec (e1 e2 : Exp) (l : Nat) (h1 : x.Late e1.place) :
    x.Gives (emitConcat e1 e2 l) (x.Late ·.place) := by
  -- the steps in between have to leave the code as it is, so they are opened
  mvcgen [emitConcat, previous?, func, pc, freeExp, freeRegister, varLevel, levelOf, freeReg, setFreeReg,
      modifyFunc]
    with grind [Opening.behind_of_back, Progress.Spans]

@[spec] theorem emitBinaryArith_spec (op : BinaryOp) (ops : MetaEvent × Opcode × Opcode) (e1 e2 : Exp)
    (l : Nat) (h1 : x.Late e1.place) (h2 : x.Late e2.place) :
    x.Gives (emitBinaryArith op ops e1 e2 l) (x.Late ·.place) := by
  cases op <;> simp only [emitBinaryArith] <;> mvcgen with grind

@[spec] theorem applyBinary_spec (op : BinaryOp) (e1 e2 : Exp) (l : Nat) (h1 : x.Late e1.place)
    (h2 : x.Late e2.place) : x.Gives (applyBinary op e1 e2 l) (x.Late ·.place) := by
  cases op <;> simp only [applyBinary, BinaryOp.arith?] <;> mvcgen with grind

end ScriptHost.Script.Compile
