import ScriptHost.Proofs.Script.Opening

/-!
# The beginning of a script's code: scopes and jumps

The steps that read tokens, append instructions and change them, keep variables, jumps and labels
in order, and end blocks: each takes nothing back of what a compilation has come to. A step that
gives the place of an instruction gives a place behind the first one.
-/
namespace ScriptHost.Script.Compile

open Std.Do

set_option mvcgen.warning false

variable {x : Progress} {α : Type} {Q : α → Assertion (.arg State (.except Bytes .pure))}

/-! ## Tokens and errors

Reading leaves the functions under construction alone, so each of these steps keeps to what was true
before it. A step that fails has every outcome, so that nothing need be known of its place. -/

@[spec] theorem failAt_spec (msg : Bytes) (near : Option Token) :
    ⦃⌜True⌝⦄ (failAt msg near : Comp α) ⦃PostCond.mayThrow Q⦄ := by
  intro s _
  exact trivial

@[spec] theorem syntaxError_spec (msg : String) :
    ⦃⌜True⌝⦄ (syntaxError msg : Comp α) ⦃PostCond.mayThrow Q⦄ := by
  intro s _
  exact trivial

@[spec] theorem expected_spec (t : Token) : ⦃⌜True⌝⦄ (expected t : Comp α) ⦃PostCond.mayThrow Q⦄ := by
  intro s _
  exact trivial

@[spec] theorem meaningError_spec (parts : List Bytes) :
    ⦃⌜True⌝⦄ (meaningError parts : Comp α) ⦃PostCond.mayThrow Q⦄ := by
  mvcgen [meaningError]

@[spec] theorem readToken_spec : x.Keeps readToken := by
  intro s h
  change (wp⟦readToken s⟧ (⇓? r => x.At r.2)).down
  cases read : Scanner.next s.scanner with
  | error e =>
    rw [show readToken s = .error e by simp only [readToken, read]]
    exact trivial
  | ok r =>
    rw [show readToken s = .ok (r.1, { s with scanner := r.2 }) by simp only [readToken, read]]
    exact h

@[spec] theorem nextToken_spec : x.Keeps nextToken := by mvcgen [nextToken]

@[spec] theorem lookAhead_spec : x.Keeps lookAhead := by mvcgen [lookAhead]

@[spec] theorem token_spec : x.Keeps token := by mvcgen [token]

@[spec] theorem line_spec : x.Keeps line := by mvcgen [line]

@[spec] theorem isWord_spec (w : String) : x.Keeps (isWord w) := by mvcgen [isWord]

@[spec] theorem isChar_spec (c : Char) : x.Keeps (isChar c) := by mvcgen [isChar]

@[spec] theorem acceptChar_spec (c : Char) : x.Keeps (acceptChar c) := by mvcgen [acceptChar]

@[spec] theorem acceptWord_spec (w : String) : x.Keeps (acceptWord w) := by mvcgen [acceptWord]

@[spec] theorem expectChar_spec (c : Char) : x.Keeps (expectChar c) := by mvcgen [expectChar]

@[spec] theorem expectWord_spec (w : String) : x.Keeps (expectWord w) := by mvcgen [expectWord]

@[spec] theorem expectClosing_spec (what opening : Token) (accepted : Bool) (openingLine : Nat) :
    x.Keeps (expectClosing what opening accepted openingLine) := by
  mvcgen [expectClosing]

@[spec] theorem closeWord_spec (what opening : String) (openingLine : Nat) :
    x.Keeps (closeWord what opening openingLine) := by
  mvcgen [closeWord]

@[spec] theorem closeChar_spec (what opening : Char) (openingLine : Nat) :
    x.Keeps (closeChar what opening openingLine) := by
  mvcgen [closeChar]

@[spec] theorem expectName_spec : x.Keeps expectName := by mvcgen [expectName]

@[spec] theorem fuel_spec : x.Keeps fuel := by mvcgen [fuel]

@[spec] theorem whileTrue_spec (step : Comp Bool) (fuel : Nat) (h : x.Keeps step) :
    x.Keeps (whileTrue step fuel) := by
  induction fuel with
  | zero => mvcgen [whileTrue]
  | succ fuel ih => mvcgen [whileTrue, h, ih]

theorem nested_spec {R : α → Prop} (body : Comp α) (h : x.Gives body R) : x.Gives (nested body) R := by
  mvcgen [nested, h]

theorem nested_keeps (body : Comp α) (h : x.Keeps body) : x.Keeps (nested body) := by
  mvcgen [nested, h]

/-! ## Instructions

Here what is true of the main function is at stake, and everything behind builds on these. What is
appended stands behind the first instruction, and says so with its place, for those who change it
later. Who changes an instruction without such a place leaves its operator and its register as they
are, or has seen that it is another one. Who takes the last one back has to know that two are left. -/

@[spec] theorem func_spec : x.Gives func fun f => x.depth = 0 → f.Opens x.written := by
  mvcgen [func] with grind [Progress.Spans.main]

@[spec] theorem modifyFunc_spec (g : Func → Func)
    (hg : x.depth = 0 → ∀ f, f.Opens x.written → (g f).Opens x.written) : x.Keeps (modifyFunc g) := by
  mvcgen [modifyFunc]
  rename_i h _
  exact h.of_main fun hx => hg hx _ (h.main hx)

@[spec] theorem pc_spec : x.Gives pc fun n => x.depth = 0 → x.written < n := by
  mvcgen [pc]
  rename_i h
  exact ⟨h, fun hx => (h.main hx).size⟩

@[spec] theorem emit_spec (i : Instr) : x.Gives (emit i) fun at_ => x.depth = 0 → x.written < at_ := by
  mvcgen [emit]
  · exact fun _ _ h => (h.push ..).lower (Nat.le_succ _)
  · rename_i h _ _ _ _ h'
    exact ⟨h', fun hx => (h.main hx).size⟩

@[spec] theorem emitABC_spec (op : Opcode) (a b c : Nat) :
    x.Gives (emitABC op a b c) fun at_ => x.depth = 0 → x.written < at_ := by
  mvcgen [emitABC]

@[spec] theorem fixLine_spec (l : Nat) : x.Keeps (fixLine l) := by
  mvcgen [fixLine]
  exact fun _ _ _ _ h => { h with lined := by simpa using h.lined }

@[spec] theorem instrAt_spec (n : Nat) :
    x.Gives (instrAt n) fun i => x.depth = 0 → i.op ≠ .varargprep → n ≠ 0 := by
  mvcgen [instrAt] with grind [Opening.behind, Progress.Spans]

@[spec] theorem modifyInstr_spec (i : Nat) (g : Instr → Instr)
    (hg : x.depth = 0 → i = 0 → ∀ y, (g y).op = y.op ∧ (g y).a = y.a) : x.Keeps (modifyInstr i g) := by
  mvcgen [modifyInstr]
  exact fun _ _ hx _ h => h.modify i g (hg hx)

@[spec] theorem removeLast_spec :
    ⦃fun s => ⌜x.Holds s ∧ (x.depth = 0 → x.written + 1 < s.func.code.size)⌝⦄
    removeLast ⦃⇓? _ => x.At⦄ := by
  mvcgen [removeLast, modifyFunc]
  rename_i h _
  exact h.1.of_main fun hx => (h.1.main hx).pop (h.2 hx)

@[spec] theorem label_spec : x.Keeps label := by mvcgen [label] with grind

/-! ## Registers and variables

Only `checkStack` touches what is kept: the stack of a function grows, and fails before it reaches its
limit. The others count registers, and enter variables in tables of their own. -/

@[spec] theorem checkStack_spec (n : Nat) : x.Keeps (checkStack n) := by
  mvcgen [checkStack] with grind [Opening]

@[spec] theorem reserve_spec (n : Nat) : x.Keeps (reserve n) := by mvcgen [reserve]

@[spec] theorem freeReg_spec : x.Keeps freeReg := by mvcgen [freeReg]

@[spec] theorem setFreeReg_spec (n : Nat) : x.Keeps (setFreeReg n) := by mvcgen [setFreeReg] with grind

@[spec] theorem limitError_spec (limit : Nat) (what : String) (f : Func) :
    ⦃⌜True⌝⦄ (limitError limit what f : Comp α) ⦃PostCond.mayThrow Q⦄ := by
  mvcgen [limitError]

@[spec] theorem checkLimit_spec (n limit : Nat) (what : String) : x.Keeps (checkLimit n limit what) := by
  mvcgen [checkLimit]

@[spec] theorem newVar_spec (name : Bytes) : x.Keeps (newVar name) := by mvcgen [newVar]

@[spec] theorem newInternalVar_spec (name : String) : x.Keeps (newInternalVar name) := by
  mvcgen [newInternalVar]

@[spec] theorem var_spec (i : Nat) : x.Keeps (var i) := by mvcgen [var]

@[spec] theorem modifyVar_spec (i : Nat) (g : Var → Var) : x.Keeps (modifyVar i g) := by mvcgen [modifyVar]

@[spec] theorem levelOf_spec (n : Nat) : x.Keeps (levelOf n) := by mvcgen [levelOf]

@[spec] theorem varLevel_spec : x.Keeps varLevel := by mvcgen [varLevel] with grind

@[spec] theorem enterScope_spec (n : Nat) : x.Keeps (enterScope n) := by
  mvcgen [enterScope] invariants
  · ⇓? _ => x.At
  with grind

@[spec] theorem leaveScope_spec (level : Nat) : x.Keeps (leaveScope level) := by
  mvcgen [leaveScope] invariants
  · ⇓? _ => x.At
  with grind

/-! ## Constants

A constant goes to a table beside the code. -/

@[spec] theorem constant_spec (key : ConstKey) (v : Value) : x.Keeps (constant key v) := by
  mvcgen [constant] with grind

@[spec] theorem stringConstant_spec (s : Bytes) : x.Keeps (stringConstant s) := by mvcgen [stringConstant]

@[spec] theorem intConstant_spec (n : Int64) : x.Keeps (intConstant n) := by mvcgen [intConstant]

@[spec] theorem floatConstant_spec (f : Float) : x.Keeps (floatConstant f) := by mvcgen [floatConstant]

@[spec] theorem boolConstant_spec (b : Bool) : x.Keeps (boolConstant b) := by mvcgen [boolConstant]

@[spec] theorem nilConstant_spec : x.Keeps nilConstant := by mvcgen [nilConstant]

/-! ## Jumps

A list of jumps runs through the jumps themselves, and so may lead anywhere: nothing is known of the
places in it. What makes it safe is that a jump gets a new distance, which the first instruction does
not use, and that a test is changed only after it was seen to be one. -/

@[spec] theorem jumpsOf_spec (list : Int) : x.Keeps (jumpsOf list) := by mvcgen [jumpsOf] with grind

@[spec] theorem fixJump_spec (at_ target : Nat) : x.Keeps (fixJump at_ target) := by
  mvcgen [fixJump] with grind

@[spec] theorem joinJumps_spec (a b : Int) : x.Keeps (joinJumps a b) := by mvcgen [joinJumps]

@[spec] theorem emitJump_spec : x.Gives emitJump fun at_ => x.depth = 0 → x.written < at_ := by
  mvcgen [emitJump]

@[spec] theorem patchTest_spec (jump : Nat) (register : Option Nat) : x.Keeps (patchTest jump register) := by
  obtain _ | r := register
  · mvcgen [patchTest] with grind [Opening.behind]
  · mvcgen [patchTest] with grind [Opening.behind]

@[spec] theorem patchJumps_spec (list : Int) (valueTarget : Nat) (register : Option Nat) (target : Nat) :
    x.Keeps (patchJumps list valueTarget register target) := by
  mvcgen [patchJumps] invariants
  · ⇓? _ => x.At

@[spec] theorem patchTo_spec (list : Int) (target : Nat) : x.Keeps (patchTo list target) := by
  mvcgen [patchTo]

@[spec] theorem patchHere_spec (list : Int) : x.Keeps (patchHere list) := by mvcgen [patchHere]

@[spec] theorem emitReturn_spec (first : Nat) (n : Option Nat) : x.Keeps (emitReturn first n) := by
  mvcgen [emitReturn] with grind

/-! ## Blocks and labels

They are kept beside the code too; where a block or a label ends jumps, it is by patching them. -/

@[spec] theorem enterBlock_spec (isLoop : Bool) : x.Keeps (enterBlock isLoop) := by mvcgen [enterBlock]

@[spec] theorem modifyBlock_spec (g : Block → Block) : x.Keeps (modifyBlock g) := by
  mvcgen [modifyBlock]
  intro _ _ _ f h
  cases f.blocks <;> exact h

@[spec] theorem markToClose_spec : x.Keeps markToClose := by mvcgen [markToClose]

@[spec] theorem scopeError_spec (g : Label) : ⦃⌜True⌝⦄ (scopeError g : Comp α) ⦃⇓? _ => ⌜False⌝⦄ := by
  mvcgen [scopeError, var]

@[spec] theorem solveGotos_spec (l : Label) : x.Keeps (solveGotos l) := by
  mvcgen [solveGotos] invariants
  · ⇓? _ => x.At

@[spec] theorem createLabel_spec (name : Bytes) (l : Nat) (last : Bool) :
    x.Keeps (createLabel name l last) := by
  mvcgen [createLabel] with grind

@[spec] theorem findLabel_spec (name : Bytes) : x.Keeps (findLabel name) := by mvcgen [findLabel]

@[spec] theorem newGoto_spec (name : Bytes) (l : Nat) (jump : Int) : x.Keeps (newGoto name l jump) := by
  mvcgen [newGoto]

@[spec] theorem missingLabel_spec (g : Label) :
    ⦃⌜True⌝⦄ (missingLabel g : Comp α) ⦃PostCond.mayThrow Q⦄ := by
  mvcgen [missingLabel]

@[spec] theorem leaveBlock_spec : x.Keeps leaveBlock := by mvcgen [leaveBlock] with grind

end ScriptHost.Script.Compile
