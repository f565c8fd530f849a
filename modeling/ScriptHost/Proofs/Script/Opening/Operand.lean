import ScriptHost.Proofs.Script.Opening.Scope

/-!
# The beginning of a script's code: operands

The steps that put the value of an expression where it is needed. An expression can be an
instruction that still waits for its register or the number of its results; `Progress.Late` says
that such an instruction is behind the first one, and every step that gives an expression gives
one like that.
-/
namespace ScriptHost.Script.Compile

open Std.Do

set_option mvcgen.warning false

variable {x : Progress}

/-- An instruction that waits for its register or its results is not the first one. -/
@[grind] def Progress.Late (x : Progress) : Place → Prop
  | .open i | .call i | .vararg i => x.depth = 0 → x.written < i
  | .void | .nil | .bool _ | .constant _ | .float _ | .int _ | .str _ | .fixed _ | .local ..
  | .captured _ | .named _ | .indexed .. | .indexedUp .. | .indexedInt .. | .indexedStr ..
  | .jump _ => True

/-! ## Registers

Registers are given up, and no code is changed. -/

@[spec] theorem constantValue?_spec (e : Exp) : x.Keeps (constantValue? e) := by
  mvcgen [constantValue?]

@[spec] theorem freeRegister_spec (r : Nat) : x.Keeps (freeRegister r) := by mvcgen [freeRegister]

@[spec] theorem freeExp_spec (e : Exp) : x.Keeps (freeExp e) := by mvcgen [freeExp]

@[spec] theorem freeRegisters_spec (a b : Nat) : x.Keeps (freeRegisters a b) := by
  mvcgen [freeRegisters]

@[spec] theorem freeExps_spec (a b : Exp) : x.Keeps (freeExps a b) := by mvcgen [freeExps]

/-! ## Loading values

Each of these steps takes an expression that may still wait, and comes to one that waits for less:
first the variable is read, then a register is chosen, then a value is there. An instruction that gets
its register here was appended for this expression, and so `Progress.Late` is what each of them asks
for and what it gives to the next. -/

@[spec] theorem emitNil_spec (first n : Nat) : x.Keeps (emitNil first n) := by
  mvcgen [emitNil, previous?, func, pc] with grind [Opening.behind_of_back, Progress.Spans]

@[spec] theorem emitExtra_spec (n : Nat) : x.Keeps (emitExtra n) := by mvcgen [emitExtra] with grind

@[spec] theorem emitConstant_spec (r index : Nat) : x.Keeps (emitConstant r index) := by
  mvcgen [emitConstant] with grind

@[spec] theorem emitInt_spec (r : Nat) (n : Int64) : x.Keeps (emitInt r n) := by
  mvcgen [emitInt] with grind

@[spec] theorem emitFloat_spec (r : Nat) (f : Float) : x.Keeps (emitFloat r f) := by
  mvcgen [emitFloat] with grind

@[spec] theorem setResults_spec (e : Exp) (n : Option Nat) (h : x.Late e.place) :
    x.Keeps (setResults e n) := by
  mvcgen [setResults] with grind

@[spec] theorem setOneResult_spec (e : Exp) (h : x.Late e.place) :
    x.Gives (setOneResult e) (x.Late ·.place) := by
  mvcgen [setOneResult] with grind

@[grind .] theorem late_placeOfValue (v : Value) : x.Late (placeOfValue v) := by
  cases v <;> trivial

@[spec] theorem dischargeVars_spec (e : Exp) (h : x.Late e.place) :
    x.Gives (dischargeVars e) (x.Late ·.place) := by
  mvcgen [dischargeVars] with grind

@[spec] theorem dischargeTo_spec (e : Exp) (r : Nat) (h : x.Late e.place) :
    x.Gives (dischargeTo e r) (x.Late ·.place) := by
  mvcgen [dischargeTo] with grind

@[spec] theorem dischargeToAny_spec (e : Exp) (h : x.Late e.place) :
    x.Gives (dischargeToAny e) (x.Late ·.place) := by
  mvcgen [dischargeToAny] with grind

@[spec] theorem needsValue_spec (list : Int) : x.Keeps (needsValue list) := by
  mvcgen [needsValue] with grind

@[spec] theorem removeValues_spec (list : Int) : x.Keeps (removeValues list) := by
  mvcgen [removeValues] invariants
  · ⇓? _ => x.At

@[spec] theorem toRegister_spec (e : Exp) (r : Nat) (h : x.Late e.place) :
    x.Gives (toRegister e r) (x.Late ·.place) := by
  mvcgen [toRegister] with grind

@[spec] theorem toNext_spec (e : Exp) (h : x.Late e.place) : x.Gives (toNext e) (x.Late ·.place) := by
  mvcgen [toNext] with grind

@[spec] theorem toAny_spec (e : Exp) (h : x.Late e.place) : x.Gives (toAny e) (x.Late ·.place) := by
  mvcgen [toAny] with grind

@[spec] theorem toAnyOrCaptured_spec (e : Exp) (h : x.Late e.place) :
    x.Gives (toAnyOrCaptured e) (x.Late ·.place) := by
  mvcgen [toAnyOrCaptured] with grind

@[spec] theorem toValue_spec (e : Exp) (h : x.Late e.place) :
    x.Gives (toValue e) (x.Late ·.place) := by
  mvcgen [toValue] with grind

@[spec] theorem toConstant?_spec (e : Exp) : x.Keeps (toConstant? e) := by mvcgen [toConstant?]

@[spec] theorem toOperand_spec (e : Exp) (h : x.Late e.place) :
    x.Gives (toOperand e) (x.Late ·.1.place) := by
  mvcgen [toOperand]

@[spec] theorem emitWithOperand_spec (op : Opcode) (a b : Nat) (e : Exp) (h : x.Late e.place) :
    x.Gives (emitWithOperand op a b e) (x.Late ·.place) := by
  mvcgen [emitWithOperand] with grind

/-! ## Variables and fields

A store appends an instruction, or sets the register of the one that computes the value. -/

@[spec] theorem store_spec (target e : Exp) (h : x.Late e.place) : x.Keeps (store target e) := by
  mvcgen [store] with grind

@[spec] theorem emitSelf_spec (e key : Exp) (h : x.Late e.place) (hk : x.Late key.place) :
    x.Gives (emitSelf e key) (x.Late ·.place) := by
  mvcgen [emitSelf] with grind

@[spec] theorem isShortName_spec (e : Exp) : x.Keeps (isShortName e) := by mvcgen [isShortName] with grind

@[spec] theorem index_spec (t k : Exp) (ht : x.Late t.place) (hk : x.Late k.place) :
    x.Gives (index t k) (x.Late ·.place) := by
  mvcgen [index] with grind

/-! ## Conditions

A condition is a jump over what depends on it. A negation in front of one is taken back, and the test
is turned around instead; that instruction was appended for the operand, so there are two to be left. -/

@[spec] theorem negate_spec (jump : Nat) : x.Keeps (negate jump) := by mvcgen [negate] with grind

@[spec] theorem emitTest_spec (i : Instr) :
    x.Gives (emitTest i) fun at_ => x.depth = 0 → x.written < at_ := by
  mvcgen [emitTest] with grind

theorem lt_size_of_not {code : Array Instr} {i : Nat} (h : (code[i]?.getD default).op = .not) :
    i < code.size := by
  by_contra out
  rw [Array.getElem?_eq_none (Nat.le_of_not_lt out)] at h
  cases h

@[spec] theorem jumpOn_spec (e : Exp) (cond : Bool) (h : x.Late e.place) :
    x.Gives (jumpOn e cond) fun at_ => x.depth = 0 → x.written < at_ := by
  mvcgen [jumpOn, instrAt] with grind [lt_size_of_not]

@[spec] theorem goIfTrue_spec (e : Exp) (h : x.Late e.place) :
    x.Gives (goIfTrue e) (x.Late ·.place) := by
  mvcgen [goIfTrue] with grind

@[spec] theorem goIfFalse_spec (e : Exp) (h : x.Late e.place) :
    x.Gives (goIfFalse e) (x.Late ·.place) := by
  mvcgen [goIfFalse] with grind

@[spec] theorem emitNot_spec (e : Exp) (h : x.Late e.place) :
    x.Gives (emitNot e) (x.Late ·.place) := by
  mvcgen [emitNot] with grind

end ScriptHost.Script.Compile
