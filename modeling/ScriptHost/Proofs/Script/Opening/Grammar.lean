import ScriptHost.Proofs.Script.Opening.Operator

/-!
# The beginning of a script's code: expressions and statements

What is parsed inside a construct is parsed by functions of a level below, so the lemmas here are
about constructs whose inner functions are `Sound`, and `operand_spec` and `statement_spec` make
those of the next level sound. A function in a script is compiled in between: the one around it
goes on where it was (`functionBody_spec`).
-/
namespace ScriptHost.Script.Compile

open Std.Do

set_option mvcgen.warning false

variable {x : Progress} {inner : Inner}

/-- The functions for inner constructs keep to what a compilation has come to. -/
structure Inner.Sound (inner : Inner) : Prop where
  operand (x : Progress) (limit : Nat) : x.Gives (inner.operand limit) (x.Late ·.1.place)
  statement (x : Progress) : x.Keeps inner.statement

@[spec] theorem operand_of_sound (sound : inner.Sound) (limit : Nat) :
    x.Gives (inner.operand limit) (x.Late ·.1.place) :=
  sound.operand x limit

@[spec] theorem statement_of_sound (sound : inner.Sound) : x.Keeps inner.statement :=
  sound.statement x

@[spec] theorem blockEnds_spec (withUntil : Bool) : x.Keeps (blockEnds withUntil) := by
  mvcgen [blockEnds]

/-! ## Names -/

/-- A name that is looked up is captured in the functions on its way, and their code stays. -/
theorem resolve_keeps {vars : Array Var} {name : Bytes} {e : Exp} {fs fs' : List Func} {base : Bool}
    (h : resolve vars name base fs = .ok (e, fs')) :
    x.Late e.place ∧ fs'.map (fun f => (f.code, f.lines, f.stackSize, f.isVararg)) =
      fs.map fun f => (f.code, f.lines, f.stackSize, f.isVararg) := by
  induction fs generalizing base e fs' with
  | nil =>
    cases h
    exact ⟨trivial, rfl⟩
  | cons f outer ih =>
    unfold resolve at h
    split at h
    · split at h
      · cases h
        exact ⟨trivial, rfl⟩
      · cases h
        refine ⟨trivial, ?_⟩
        cases base <;> rfl
    · split at h
      · cases h
        exact ⟨trivial, rfl⟩
      · split at h
        · cases h
        · rename_i e' outer' h'
          obtain ⟨late, alike⟩ := ih h'
          dsimp only at h
          split at h
          · split at h
            · cases h
            · cases h
              exact ⟨trivial, by simp [alike]⟩
          · split at h
            · cases h
            · cases h
              exact ⟨trivial, by simp [alike]⟩
          · cases h
            exact ⟨late, by simp [alike]⟩

@[spec] theorem lookUp_spec (name : Bytes) : x.Gives (lookUp name) (x.Late ·.place) := by
  mvcgen [lookUp]
  · rename_i s h e f outer found
    obtain ⟨late, alike⟩ := resolve_keeps found
    exact ⟨h.of_alike alike, late⟩
  · rename_i s h e found
    exact ⟨h, (resolve_keeps found).1⟩

@[spec] theorem singleVar_spec : x.Gives singleVar (x.Late ·.place) := by
  mvcgen [singleVar] with grind

@[spec] theorem checkWritable_spec (e : Exp) : x.Keeps (checkWritable e) := by mvcgen [checkWritable]

/-! ## Functions

While a function in a script is compiled, the main function waits among the outer ones: `inside` counts
how deep, and there no step can reach its code. At the end of a function the one around it goes on
(`Progress.Closes`), and from then on the lemmas above are about its own code again. -/

@[spec] theorem openFunction_spec (l : Nat) : ⦃x.At⦄ openFunction l ⦃⇓? _ => x.inside.At⦄ := by
  mvcgen [openFunction] with grind [Progress.Spans.enter]

@[spec] theorem finishCode_spec : x.Keeps finishCode := by
  mvcgen [finishCode] invariants
  · ⇓? _ => x.At
  with grind

/-- The last return of the main function is one more instruction of it. -/
theorem emitReturn_more (hx : x.depth = 0) (first : Nat) (n : Option Nat) :
    ⦃x.At⦄ emitReturn first n ⦃⇓? _ => (Progress.mk 0 (x.written + 1)).At⦄ := by
  simp only [emitReturn, emitABC, emit, modifyFunc]
  mvcgen
  all_goals exact Progress.Spans.more ‹_› hx _ _

/-- The end of a function behind its last return. -/
def finishFunction : Comp Proto := do
  leaveBlock
  finishCode
  let s ← get
  let f := s.func
  match s.outer with
  | g :: rest => set { s with func := g, outer := rest }
  | [] => pure ()
  pure (.mk f.code f.lines f.constants f.protos f.captures f.locals f.params f.isVararg
    f.stackSize f.firstLine f.lastLine s.scanner.chunk s.sourceName)

theorem closeFunction_eq : closeFunction = (do
    emitReturn (← varLevel) (some 0)
    finishFunction) := rfl

/-- A step at the end of a function: of an inner one it goes back to the one around it, and the main
one it gives. -/
abbrev Progress.Closes (x : Progress) (c : Comp Proto) : Prop :=
  ⦃x.At⦄ c ⦃⇓? p => fun s => ⌜(∀ y : Progress, x = y.inside → y.Holds s) ∧
    (x.depth = 0 → Opening x.written p.code p.lines p.stackSize p.isVararg)⌝⦄

@[spec] theorem finishFunction_spec : x.Closes finishFunction := by
  mvcgen [finishFunction] with grind [Progress.Spans.not_inside, Progress.Spans.exit,
    Progress.Spans.main, Proto.code, Proto.lines, Proto.stackSize, Proto.isVararg]

@[spec] theorem closeFunction_spec : x.Closes closeFunction := by
  mvcgen [closeFunction_eq]

@[spec] theorem setVararg_spec (params : Nat) : x.Keeps (setVararg params) := by
  mvcgen [setVararg] with grind [Opening]

@[spec] theorem parameters_spec : x.Keeps parameters := by mvcgen [parameters] with grind [Opening]

@[spec] theorem statements_spec (sound : inner.Sound) : x.Keeps (statements inner) := by
  mvcgen [statements]

/-- What is compiled of a function between its beginning and the function around it. -/
def functionInside (inner : Inner) (isMethod : Bool) (l : Nat) : Comp Proto := do
  expectChar '('
  if isMethod then
    newInternalVar "self"
    enterScope 1
  parameters
  expectChar ')'
  statements inner
  let last ← line
  modifyFunc fun f => { f with lastLine := last }
  closeWord "end" "function" l
  closeFunction

theorem functionBody_eq (inner : Inner) (isMethod : Bool) (l : Nat) : functionBody inner isMethod l = (do
    openFunction l
    let proto ← functionInside inner isMethod l
    modifyFunc fun f => { f with protos := f.protos.push proto }
    let i ← emit { op := .closure, j := (← func).protos.size - 1 }
    toNext { place := .open i }) := by
  simp [functionBody, functionInside]
  split <;> simp

theorem functionInside_closes (sound : inner.Sound) (isMethod : Bool) (l : Nat) :
    x.Closes (functionInside inner isMethod l) := by
  mvcgen [functionInside] with grind

@[spec] theorem functionInside_spec (sound : inner.Sound) (isMethod : Bool) (l : Nat) :
    ⦃x.inside.At⦄ functionInside inner isMethod l ⦃⇓? _ => x.At⦄ := by
  have closes := functionInside_closes (x := x.inside) sound isMethod l
  mvcgen [closes] with grind

@[spec] theorem functionBody_spec (sound : inner.Sound) (isMethod : Bool) (l : Nat) :
    x.Gives (functionBody inner isMethod l) (x.Late ·.place) := by
  mvcgen [functionBody_eq] with grind

/-! ## Expressions

From here on a construct is put together from steps that have their lemma: what is proved of each is
the one property, that nothing is taken back of the main function, and for an expression that it is
`Late`. Loops over tokens go by induction on their fuel. -/

@[spec] theorem expression_spec (sound : inner.Sound) :
    x.Gives (expression inner) (x.Late ·.place) := by
  mvcgen [expression]

@[spec] theorem expressions_go_spec (sound : inner.Sound) (e : Exp) (n fuel : Nat)
    (h : x.Late e.place) : x.Gives (expressions.go inner e n fuel) (x.Late ·.1.place) := by
  induction fuel generalizing e n with
  | zero => mvcgen [expressions.go]
  | succ fuel ih => mvcgen [expressions.go, ih] with grind

@[spec] theorem expressions_spec (sound : inner.Sound) :
    x.Gives (expressions inner) (x.Late ·.1.place) := by
  mvcgen [expressions] with grind

@[spec] theorem field_spec (e : Exp) (h : x.Late e.place) : x.Gives (field e) (x.Late ·.place) := by
  mvcgen [field] with grind

@[spec] theorem bracketed_spec (sound : inner.Sound) :
    x.Gives (bracketed inner) (x.Late ·.place) := by
  mvcgen [bracketed] with grind

/-! ## Table constructors -/

@[spec] theorem emitSetList_spec (base items : Nat) (pending : Option Nat) :
    x.Keeps (emitSetList base items pending) := by
  mvcgen [emitSetList] with grind

/-- So it is with the table of a constructor and with the item read last. -/
@[grind] def Progress.LateIn (x : Progress) (c : Constructor) : Prop :=
  x.Late c.table.place ∧ x.Late c.item.place

@[spec] theorem recordField_spec (sound : inner.Sound) (c : Constructor) (hc : x.LateIn c) :
    x.Gives (recordField inner c) x.LateIn := by
  mvcgen [recordField] with grind

@[spec] theorem closeItem_spec (c : Constructor) (hc : x.LateIn c) : x.Gives (closeItem c) x.LateIn := by
  mvcgen [closeItem] with grind

@[spec] theorem closeLastItem_spec (c : Constructor) (hc : x.LateIn c) : x.Keeps (closeLastItem c) := by
  mvcgen [closeLastItem] with grind

@[spec] theorem constructor_go_spec (sound : inner.Sound) (c : Constructor) (fuel : Nat)
    (hc : x.LateIn c) : x.Gives (constructor.go inner c fuel) x.LateIn := by
  induction fuel generalizing c with
  | zero => mvcgen [constructor.go]
  | succ fuel ih => mvcgen [constructor.go, ih] with grind

@[spec] theorem constructor_spec (sound : inner.Sound) :
    x.Gives (constructor inner) (x.Late ·.place) := by
  mvcgen [constructor] with grind

/-! ## Operands -/

@[spec] theorem arguments_spec (sound : inner.Sound) (f : Exp) :
    x.Gives (arguments inner f) (x.Late ·.place) := by
  mvcgen [arguments] with grind

@[spec] theorem primary_spec (sound : inner.Sound) : x.Gives (primary inner) (x.Late ·.place) := by
  mvcgen [primary] with grind

@[spec] theorem suffixed_go_spec (sound : inner.Sound) (e : Exp) (fuel : Nat) (he : x.Late e.place) :
    x.Gives (suffixed.go inner e fuel) (x.Late ·.place) := by
  induction fuel generalizing e with
  | zero => mvcgen [suffixed.go]
  | succ fuel ih => mvcgen [suffixed.go, ih] with grind

@[spec] theorem suffixed_spec (sound : inner.Sound) : x.Gives (suffixed inner) (x.Late ·.place) := by
  mvcgen [suffixed] with grind

@[spec] theorem simple_spec (sound : inner.Sound) : x.Gives (simple inner) (x.Late ·.place) := by
  mvcgen [simple] with grind

@[spec] theorem operand_go_spec (sound : inner.Sound) (limit : Nat) (e : Exp) (op : Option BinaryOp)
    (fuel : Nat) (he : x.Late e.place) :
    x.Gives (operand.go inner limit e op fuel) (x.Late ·.1.place) := by
  induction fuel generalizing e op with
  | zero => mvcgen [operand.go]
  | succ fuel ih => mvcgen [operand.go, ih] with grind

theorem operand_spec (sound : inner.Sound) (limit : Nat) :
    x.Gives (operand inner limit) (x.Late ·.1.place) := by
  refine nested_spec _ ?_
  mvcgen with grind

/-! ## Assignments

The targets are collected first and the values stored behind them. A target is written to and never
waits, so of the values alone something has to be known. -/

@[spec] theorem adjustValues_spec (wanted count : Nat) (e : Exp) (h : x.Late e.place) :
    x.Keeps (adjustValues wanted count e) := by
  mvcgen [adjustValues] with grind

@[spec] theorem avoidConflict_spec (targets : List Exp) (v : Exp) :
    x.Keeps (avoidConflict targets v) := by
  mvcgen [avoidConflict] with grind

@[spec] theorem targets_spec (sound : inner.Sound) (fuel : Nat) (ts : List Exp) :
    x.Keeps (targets inner fuel ts) := by
  induction fuel generalizing ts with
  | zero => mvcgen [targets]
  | succ fuel ih => mvcgen [targets, ih] with grind

/-- The last value of an assignment is stored or brought to the number of targets; what is left are
the targets whose values are in registers. -/
def assignLast (ts : List Exp) (e : Exp) (count : Nat) : Comp (List Exp) :=
  if count = ts.length then
    match ts with
    | t :: rest => do
      store t (← setOneResult e)
      pure rest
    | [] => pure []
  else do
    adjustValues ts.length count e
    pure ts

theorem assignment_eq (inner : Inner) (first : Exp) : assignment inner first = (do
    let depth := (← get).depth
    let ts ← targets inner (← fuel) [first]
    expectChar '='
    let (e, count) ← expressions inner
    let rest ← assignLast ts e count
    for t in rest do
      store t { place := .fixed ((← freeReg) - 1) }
    modify fun s => { s with depth }) := by
  unfold assignment
  refine bind_congr fun _ => bind_congr fun _ => bind_congr fun ts => bind_congr fun _ =>
    bind_congr fun values => ?_
  obtain ⟨e, count⟩ := values
  dsimp only [assignLast]
  by_cases all : count = ts.length
  · rw [if_pos all, if_pos all]
    cases ts <;> simp
  · rw [if_neg all, if_neg all]
    simp

@[spec] theorem assignLast_spec (ts : List Exp) (e : Exp) (count : Nat) (h : x.Late e.place) :
    x.Keeps (assignLast ts e count) := by
  obtain _ | ⟨t, rest⟩ := ts
  · mvcgen [assignLast]
  · mvcgen [assignLast] with grind

@[spec] theorem assignment_spec (sound : inner.Sound) (first : Exp) : x.Keeps (assignment inner first) := by
  mvcgen [assignment_eq] invariants
  · ⇓? _ => x.At
  with grind

/-! ## Statements

A statement gives nothing, so it has only to keep to what was there. -/

@[spec] theorem block_spec (sound : inner.Sound) : x.Keeps (block inner) := by mvcgen [block]

@[spec] theorem condition_spec (sound : inner.Sound) : x.Keeps (condition inner) := by
  mvcgen [condition] with grind

@[spec] theorem gotoStatement_spec : x.Keeps gotoStatement := by mvcgen [gotoStatement] with grind

@[spec] theorem labelStatement_spec (sound : inner.Sound) (name : Bytes) (l : Nat) :
    x.Keeps (labelStatement inner name l) := by
  mvcgen [labelStatement]

@[spec] theorem whileStatement_spec (sound : inner.Sound) (l : Nat) : x.Keeps (whileStatement inner l) := by
  mvcgen [whileStatement] with grind

@[spec] theorem repeatStatement_spec (sound : inner.Sound) (l : Nat) :
    x.Keeps (repeatStatement inner l) := by
  mvcgen [repeatStatement] with grind

@[spec] theorem fixForJump_spec (at_ target : Nat) (back : Bool) : x.Keeps (fixForJump at_ target back) := by
  mvcgen [fixForJump] with grind

@[spec] theorem forBody_spec (sound : inner.Sound) (base l vars : Nat) (generic : Bool) :
    x.Keeps (forBody inner base l vars generic) := by
  mvcgen [forBody] with grind

@[spec] theorem forNumeric_spec (sound : inner.Sound) (name : Bytes) (l : Nat) :
    x.Keeps (forNumeric inner name l) := by
  mvcgen [forNumeric] invariants
  · ⇓? _ => x.At
  with grind

@[spec] theorem forGeneric_spec (sound : inner.Sound) (name : Bytes) : x.Keeps (forGeneric inner name) := by
  mvcgen [forGeneric] invariants
  · ⇓? _ => x.At
  with grind

@[spec] theorem forStatement_spec (sound : inner.Sound) (l : Nat) : x.Keeps (forStatement inner l) := by
  mvcgen [forStatement]

@[spec] theorem conditionalBlock_rest_spec (sound : inner.Sound) (exits skip : Int) :
    x.Keeps (conditionalBlock.rest inner exits skip) := by
  mvcgen [conditionalBlock.rest] with grind

@[spec] theorem conditionalBlock_spec (sound : inner.Sound) (exits : Int) :
    x.Keeps (conditionalBlock inner exits) := by
  mvcgen [conditionalBlock] with grind

@[spec] theorem ifStatement_go_spec (sound : inner.Sound) (exits : Int) (fuel : Nat) :
    x.Keeps (ifStatement.go inner exits fuel) := by
  induction fuel generalizing exits with
  | zero => mvcgen [ifStatement.go]
  | succ fuel ih => mvcgen [ifStatement.go, ih]

@[spec] theorem ifStatement_spec (sound : inner.Sound) (l : Nat) : x.Keeps (ifStatement inner l) := by
  mvcgen [ifStatement]

@[spec] theorem localFunction_spec (sound : inner.Sound) : x.Keeps (localFunction inner) := by
  mvcgen [localFunction] with grind

@[spec] theorem attribute_spec : x.Keeps attribute_ := by mvcgen [attribute_]

@[spec] theorem localNames_spec (closing : Option Nat) (n fuel : Nat) :
    x.Keeps (localNames closing n fuel) := by
  induction fuel generalizing closing n with
  | zero => mvcgen [localNames]
  | succ fuel ih => mvcgen [localNames, ih] with grind

@[spec] theorem localStatement_spec (sound : inner.Sound) : x.Keeps (localStatement inner) := by
  mvcgen [localStatement] with grind

@[spec] theorem functionStatement_go_spec (e : Exp) (fuel : Nat) (he : x.Late e.place) :
    x.Gives (functionStatement.go e fuel) (x.Late ·.1.place) := by
  induction fuel generalizing e with
  | zero => mvcgen [functionStatement.go]
  | succ fuel ih => mvcgen [functionStatement.go, ih] with grind

@[spec] theorem functionStatement_spec (sound : inner.Sound) (l : Nat) :
    x.Keeps (functionStatement inner l) := by
  mvcgen [functionStatement] with grind

@[spec] theorem expressionStatement_spec (sound : inner.Sound) : x.Keeps (expressionStatement inner) := by
  mvcgen [expressionStatement] with grind

@[spec] theorem returnStatement_spec (sound : inner.Sound) : x.Keeps (returnStatement inner) := by
  mvcgen [returnStatement] with grind

theorem statement_spec (sound : inner.Sound) : x.Keeps (statement inner) := by
  refine nested_keeps _ ?_
  mvcgen with grind

end ScriptHost.Script.Compile
