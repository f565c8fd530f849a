import ScriptHost.Proofs.Script.Opening.Chunk
import ScriptHost.Proofs.Script.Serving
import ScriptHost.Proofs.Scenario.Execution
import ScriptHost.Script.Execution

/-!
# The first line of a script

A run calls the main function of its script through the protected call of the standard library.
The machine of a run enters that function, which asks for the main one; this is entered, takes its
arguments away, and then the host hears of a line, before any other instruction is executed.
`shows_of_…` say of each of these points how many steps are left.

* `Machine.run_protecting`: the machine of a run shows a line first.
* `Execution.Fresh`: a script that has shown nothing; it is kept while the script works, and what it
  shows is a line or the text of its refusal.
-/
namespace ScriptHost.Script

open Compile

namespace Machine

variable {m : Machine} {p : Proto} {n c func args : Nat} {wanted : Option Nat} {role : Role}
  {nesting : Nesting}

/-! ## Steps -/

theorem run_step (n : Nat) (h : m.isResting = false) : run (n + 1) m = run n m.step := by simp [run, h]

theorem run_resting (n : Nat) (h : m.isResting = true) : run n m = m := by
  cases n <;> simp [run, h]

/-- The host is told the lines, and the stack has not overflowed. -/
structure Followed (m : Machine) : Prop where
  hook : m.hook = .host
  allowed : m.allowHook = true
  sound : m.overflowed = false

theorem Followed.silent (h : m.Followed) (kind : Char) : m.hookWants kind = false := by
  simp [hookWants, h.hook]

theorem Followed.limit (h : m.Followed) : m.stackLimit = maxStack := by simp [stackLimit, h.sound]

/-! ## The main function -/

/-- The machine is before an instruction of a function. -/
structure Before (m : Machine) (p : Proto) (pc : Nat) (watch : Watch) : Prop where
  followed : m.Followed
  todo : m.todo = .fetch watch
  proto : m.frame.proto = p
  pc : m.frame.pc = pc

/-- Behind the instruction that takes the arguments away the host hears of a line. -/
theorem shows_of_entry (h : m.Before p 1 .entry) (old : m.oldPc = 1) (more : 1 < p.code.size) (n : Nat) :
    (run (n + 1) m).todo = .line (lineAt p 1) := by
  have shown : m.step.todo = .line (lineAt p 1) := by
    simp [step, h.todo, fetch, fetchEntry, h.followed.silent, fetchFull, h.followed.hook, fetchLine, h.pc,
      h.proto, old, more, h.followed.allowed]
  rw [run_step n (by simp [isResting, h.todo]), run_resting n (by simp [isResting, shown]), shown]

theorem moveArguments_eq (m : Machine) (i : Instr) (a : i.a = 0)
    (fits : m.frame.func + (m.top - m.frame.func - 1) + 1 + 1 + m.frame.proto.stackSize ≤ m.stackLimit) :
    ∃ stack func top extra, m.moveArguments i = { m with
      stack
      frame := { m.frame with func, top, extra }
      oldPc := if m.hook.isNone then m.oldPc else 1
      todo := .fetch .entry } := by
  rw [moveArguments]
  dsimp only
  rw [a, Nat.max_zero, if_neg (Nat.not_lt.mpr fits)]
  obtain ⟨stack, -, reserved⟩ :=
    m.reserve_eq (m.frame.func + (m.top - m.frame.func - 1) + 1 + 1 + m.frame.proto.stackSize + 8)
  obtain ⟨stack', -, put⟩ := putValues_eq { m with stack }
    (m.frame.func + (m.top - m.frame.func - 1) + 1) (m.values m.frame.func (0 + 1))
  rw [reserved, put]
  exact ⟨_, _, _, _, rfl⟩

theorem shows_of_opening (h : m.Before p 0 .quiet) (opens : Opening 1 p.code p.lines p.stackSize p.isVararg)
    (fits : m.frame.func + (m.top - m.frame.func - 1) + 1 + 1 + p.stackSize ≤ maxStack) (n : Nat) :
    (run (n + 2) m).todo = .line (lineAt p 1) := by
  obtain rfl := h.proto
  obtain ⟨i, first, varargprep, a⟩ := opens.head
  have instr : m.frame.proto.instr m.frame.pc = i := by simp [Proto.instr, h.pc, first]
  obtain ⟨stack, func, top, extra, moved⟩ := moveArguments_eq
    { m with frame := { m.frame with pc := m.frame.pc + 1 }, todo := .fetch .full } i a
    (fits.trans_eq h.followed.limit.symm)
  have stepped : m.step =
      moveArguments { m with frame := { m.frame with pc := m.frame.pc + 1 }, todo := .fetch .full } i := by
    rw [step, h.todo]
    simp only [fetch, execute, instr, perform, varargprep]
  rw [run_step (n + 1) (by simp [isResting, h.todo]), stepped, moved]
  refine shows_of_entry ?_ ?_ opens.size n
  · exact ⟨⟨h.followed.hook, h.followed.allowed, h.followed.sound⟩, rfl, rfl, congrArg (· + 1) h.pc⟩
  · simp [h.followed.hook, Hook.isNone]

theorem fold_setSlot_eq (m : Machine) (n : Nat) (slot : Nat → Nat) :
    ∃ stack, n.fold (fun i _ (m : Machine) => m.setSlot (slot i) .nil) m = { m with stack } := by
  induction n with
  | zero => exact ⟨m.stack, rfl⟩
  | succ n ih =>
    obtain ⟨stack, filled⟩ := ih
    rw [Nat.fold_succ, filled]
    exact ⟨_, rfl⟩

theorem enterScript_eq (m : Machine) (c : Nat) (p : Proto) (f : Frame) (args : Nat)
    (fits : f.func + 1 + args + p.stackSize ≤ m.stackLimit) :
    ∃ stack, m.enterScript c p f args = { m with
      stack
      frame := { f with kind := .script, top := f.func + 1 + p.stackSize, closure := c, proto := p }
      callers := m.frame :: m.callers
      top := f.func + 1 + args
      oldPc := 0
      todo := .fetch (entryWatch p) } := by
  obtain ⟨stack, -, reserved⟩ := m.reserve_eq (f.func + 1 + p.stackSize + 8)
  obtain ⟨stack', filled⟩ := fold_setSlot_eq { m with stack } (p.params - args) (f.func + 1 + args + ·)
  refine ⟨stack', ?_⟩
  rw [enterScript, if_neg (Nat.not_lt.mpr fits), reserved]
  simp only [filled]

theorem shows_of_enter (followed : m.Followed) (todo : m.todo = .enter func 0 wanted role nesting)
    (shallow : m.depth + 1 < maxDepth) (here : m.slot func = .closure c)
    (code : (m.heap.closures[c]?.getD default).proto = p)
    (opens : Opening 1 p.code p.lines p.stackSize p.isVararg) (fits : func + 2 + p.stackSize ≤ maxStack)
    (n : Nat) : (run (n + 3) m).todo = .line (lineAt p 1) := by
  have entered : m.step = m.enter func 0 wanted role nesting := by rw [step, todo]
  obtain ⟨stack, enters⟩ := enterScript_eq (m.nested nesting) c p
    { func, dest := func, wanted, role, depth := m.depth, noYield := m.noYield } 0
    (le_of_le_of_eq (by omega : func + 1 + 0 + p.stackSize ≤ maxStack) followed.limit.symm)
  rw [run_step (n + 2) (by simp [isResting, todo]), entered, enter_closure here shallow, code, enters]
  refine shows_of_opening ?_ opens ?_ n
  · refine ⟨⟨followed.hook, followed.allowed, followed.sound⟩, ?_, rfl, rfl⟩
    simp [entryWatch, opens.vararg]
  · dsimp only
    omega

/-! ## The protected call -/

/-- The protected call of a function with a handler asks for that, first of all. -/
theorem xpcall_eq (main handler : Value) (isFunction : handler.isFunction = true) (h : Heap) :
    ∃ next, Basic.xpcall #[main, handler] h = .ask (.protect main #[] (.handler handler) 3) h next := by
  simp [Basic.xpcall, HostM.checkFunction, HostM.arg, isFunction, HostM.ask, bind, HostM.bind, pure, HostM.pure]

theorem shows_of_protect {handler : Value} (followed : m.Followed)
    (todo : m.todo = .act (Basic.xpcall #[.closure c, handler])) (isFunction : handler.isFunction = true)
    (shallow : m.depth + 1 < maxDepth) (code : (m.heap.closures[c]?.getD default).proto = p)
    (opens : Opening 1 p.code p.lines p.stackSize p.isVararg)
    (fits : m.frame.func + 6 + p.stackSize ≤ maxStack) (n : Nat) :
    (run (n + 4) m).todo = .line (lineAt p 1) := by
  obtain ⟨next, asks⟩ := xpcall_eq (.closure c) handler isFunction m.heap
  obtain ⟨stack, here, -, called⟩ := callAbove_eq
    { m with
      frame := { m.frame with
        next := some next
        guard := some ⟨m.frame.func + 4, m.handler, m.allowHook, m.depth, m.noYield⟩ }
      handler := some handler
      todo := .leave } (m.frame.func + 4) (.closure c) #[] none .reply .nested
  rw [run_step (n + 3) (by simp [isResting, todo]), (step_ask todo asks).trans called]
  apply shows_of_enter (c := c)
  · exact ⟨followed.hook, followed.allowed, followed.sound⟩
  · rfl
  · exact shallow
  · simp [slot, here]
  · exact code
  · exact opens
  · omega

theorem shows_of_xpcall (handler : Value) (followed : m.Followed)
    (todo : m.todo = .enter func 2 wanted role nesting) (native : m.slot func = .native (.basic .xpcall))
    (args : m.values (func + 1) 2 = #[.closure c, handler]) (isFunction : handler.isFunction = true)
    (shallow : m.depth + 2 < maxDepth) (code : (m.heap.closures[c]?.getD default).proto = p)
    (opens : Opening 1 p.code p.lines p.stackSize p.isVararg) (fits : func + 25 + p.stackSize ≤ maxStack)
    (n : Nat) : (run (n + 6) m).todo = .line (lineAt p 1) := by
  have entered : m.step = m.enter func 2 wanted role nesting := by rw [step, todo]
  rw [run_step (n + 5) (by simp [isResting, todo]), entered,
    enter_native native (by omega) (le_of_le_of_eq (by omega) followed.limit.symm) (followed.silent _),
    run_step (n + 4) rfl, step]
  dsimp only
  rw [begin_native (f := .basic .xpcall) native]
  refine shows_of_protect (c := c) ?_ ?_ isFunction ?_ ?_ opens ?_ n
  · exact ⟨followed.hook, followed.allowed, followed.sound⟩
  · rw [← args]
    simp only [base, Native.run, Basic.run, Nat.add_sub_cancel_left]
    rfl
  · simp only [nested]
    split <;> omega
  · exact code
  · dsimp only
    omega

/-- **The machine of a run shows a line first,** six steps from its start. -/
theorem run_protecting (h : Heap) (opens : Opening 1 p.code p.lines p.stackSize p.isVararg) (n : Nat) :
    (run (n + 6) (protecting h p)).todo = .line (lineAt p 1) := by
  have stack : (protecting h p).stack = #[.nil, .native (.host .withTraceback), .native (.basic .xpcall),
      .closure h.closures.size, .native (.debug .traceback)] ++ Array.replicate 37 .nil := growTo_eq _ _
  have small := opens.stack
  refine shows_of_xpcall (c := h.closures.size) (.native (.debug .traceback)) ⟨rfl, rfl, rfl⟩ rfl ?_ ?_ rfl
    ?_ ?_ opens ?_ n
  · simp [slot, stack]
  · simp [values, stack]
  · change 0 + 2 < maxDepth
    decide
  · simp [protecting, addMain, calling, Heap.newCell, Heap.newClosure]
  · simp only [maxRegisters, maxStack] at small ⊢
    omega

end Machine

/-! ## Scripts that have shown nothing -/

namespace Execution

/-- A script that a run compiles is text, for a run knows nothing of code that was dumped. -/
theorem opens_of_compileNamed {source : Bytes} {name : String} (h : compileNamed source name = .ok p) :
    Opening 1 p.code p.lines p.stackSize p.isVararg := by
  unfold compileNamed at h
  dsimp only at h
  split at h
  · cases h
  · split at h
    · rename_i p' compiled
      cases h
      unfold Modules.codeOf at compiled
      split at compiled
      · unfold Modules.undump at compiled
        dsimp only at compiled
        split at compiled
        · cases compiled
        · split at compiled
          · rename_i dumped
            simp at dumped
          · cases compiled
      · exact compile_opens compiled
    · cases h

/-- A script that has shown nothing: it was refused, it has not begun, or it is at its first line. -/
inductive Fresh : Execution → Prop where
  | refused (message : String) : Fresh (.refused message)
  | loaded (h : Heap) (p : Proto) (opens : Opening 1 p.code p.lines p.stackSize p.isVararg) :
    Fresh (.loaded (.protecting h p))
  | atLine (m : Machine) (n : Nat) (todo : m.todo = .line n) : Fresh (.loaded m)

theorem fresh_launch (w : World) (payload : Payload) (chunkName : String) :
    Fresh (launch w payload chunkName) := by
  unfold launch
  split
  · exact .refused _
  · exact .loaded _ _ (opens_of_compileNamed ‹_›)

/-- A script that waits for nothing goes on in the world as it is. -/
theorem work_eq {m : Machine} (inside : ∀ r, m.todo ≠ .outside r) (w : World) : ∃ heap,
    (work (.loaded m) w).1 =
      .loaded { Machine.run slice { m with heap := { m.heap with world := w } } with heap } := by
  unfold work
  -- the steps are not to be taken one by one
  generalize slice = steps
  dsimp only
  split
  · exact absurd ‹_› (inside _)
  · exact ⟨_, rfl⟩

theorem lineAt_eq_natCast {written pc : Nat}
    (opens : Opening written p.code p.lines p.stackSize p.isVararg) (within : pc ≤ written) :
    ∃ n : Nat, Machine.lineAt p pc = n := by
  have known : pc < p.lines.size := opens.lined ▸ Nat.lt_of_le_of_lt within opens.size
  exact ⟨p.lines[pc], by simp [Machine.lineAt, known]⟩

theorem Fresh.work {e : Execution} (h : e.Fresh) (w : World) (inner : e.signal.isInner = true) :
    (e.work w).1.Fresh := by
  cases h with
  | refused => cases inner
  | loaded h p opens =>
    obtain ⟨n, line⟩ := lineAt_eq_natCast opens (Nat.le_refl 1)
    obtain ⟨heap, worked⟩ := work_eq (m := .protecting h p) (by intro r todo; cases todo) w
    have launched : Machine.protecting { h with world := w } p =
      { Machine.protecting h p with heap := { (Machine.protecting h p).heap with world := w } } := rfl
    have shown := Machine.run_protecting { h with world := w } opens 994
    rw [launched, line] at shown
    rw [worked, show slice = 994 + 6 from rfl]
    generalize Machine.run (994 + 6) _ = m at shown
    exact .atLine _ n shown
  | atLine m n todo =>
    simp [signal, todo, Signal.isInner] at inner

/-- What such a script shows is a line. -/
theorem Fresh.signal {e : Execution} (h : e.Fresh) :
    (∃ text, e.signal = .ended text) ∨ e.signal = .working ∨ ∃ n : Nat, e.signal = .line n := by
  cases h with
  | refused => exact .inl ⟨_, rfl⟩
  | loaded => exact .inr (.inl rfl)
  | atLine m n todo => exact .inr (.inr ⟨n, by simp [Execution.signal, todo]⟩)

end Execution

end ScriptHost.Script
