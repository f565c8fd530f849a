import ScriptHost.Script.Machine.Calls

/-!
# Whose lines the host hears of

The host's hook is set in the main coroutine, and no operation of the machine
sets it in another. `Calm` is kept by all of them: the host's hook is in the main
coroutine if anywhere, and no line is shown. Here are the stack, captured
variables, the switch between coroutines, calls, results and errors; each
operation has one lemma with its name.
-/
namespace ScriptHost.Script

/-- The host hears of a line next. -/
def Todo.isLine : Todo → Bool
  | .line _ => true
  | _ => false

namespace Machine

/-- Of all coroutines only the main one can have the host's hook. -/
def Guarded (m : Machine) : Prop :=
  (m.hook = .host → m.id = 0) ∧ ∀ t th, m.threads[t]? = some th → th.hook = .host → t = 0

/-- Besides, no line is shown. -/
def Calm (m : Machine) : Prop := m.Guarded ∧ m.todo.isLine = false

variable {m : Machine}

/-- The threads that wait change, but not their hooks. -/
theorem Guarded.modifyThread (h : m.Guarded) (t : Nat) {f : Thread → Thread}
    (same : ∀ th, (f th).hook = th.hook) : Guarded { m with threads := m.threads.modify t f } := by
  refine ⟨h.1, fun u th at_u host => ?_⟩
  rw [Array.getElem?_modify] at at_u
  split at at_u
  · obtain ⟨th, before, rfl⟩ := Option.map_eq_some_iff.mp at_u
    exact h.2 u th before (same th ▸ host)
  · exact h.2 u th at_u host

namespace Calm

theorem goTo (h : m.Calm) {todo : Todo} (quiet : todo.isLine = false) : Calm { m with todo } :=
  ⟨h.1, quiet⟩

theorem modifyThread (h : m.Calm) (t : Nat) {f : Thread → Thread}
    (same : ∀ th, (f th).hook = th.hook) : Calm { m with threads := m.threads.modify t f } :=
  ⟨h.1.modifyThread t same, h.2⟩

theorem fold (h : m.Calm) {n : Nat} {f : (i : Nat) → i < n → Machine → Machine}
    (step : ∀ i hi (m : Machine), m.Calm → (f i hi m).Calm) : (n.fold f m).Calm := by
  induction n with
  | zero => exact h
  | succ n ih =>
    rw [Nat.fold_succ]
    exact step _ _ _ (ih fun i hi => step i (by omega))

/-! ## The stack and captured variables -/

theorem setSlot (h : m.Calm) (i : Nat) (v : Value) : (m.setSlot i v).Calm := h

theorem setReg (h : m.Calm) (i : Nat) (v : Value) : (m.setReg i v).Calm := h

theorem reserve (h : m.Calm) (size : Nat) : (m.reserve size).Calm := by
  unfold Machine.reserve
  split <;> exact h

theorem putValues (h : m.Calm) (first : Nat) (vs : Array Value) : (m.putValues first vs).Calm :=
  h.reserve _

theorem putResults (h : m.Calm) (first : Nat) (vs : Array Value) (wanted : Option Nat) :
    (m.putResults first vs wanted).Calm := by
  unfold Machine.putResults
  split
  · exact h.putValues first vs
  · exact h
  · exact h
  · exact h.putValues first _

theorem setCell (h : m.Calm) (cell : Nat) (v : Value) : (m.setCell cell v).Calm := by
  unfold Machine.setCell
  split
  · split
    · exact h
    · exact h.modifyThread _ fun _ => rfl
  · exact h

theorem cellOf (h : m.Calm) (slot : Nat) : (m.cellOf slot).2.Calm := by
  unfold Machine.cellOf
  split <;> exact h

theorem closeCells (h : m.Calm) (level : Nat) : (m.closeCells level).Calm := by
  have go (cells : List (Nat × Nat)) (m : Machine) (h : m.Calm) :
      (Machine.closeCells.go level m cells).Calm := by
    induction cells generalizing m with
    | nil => exact h
    | cons open_ rest ih =>
      unfold Machine.closeCells.go
      split
      · exact h
      · exact ih _ h
  unfold Machine.closeCells
  split
  · exact h
  · split
    · exact h
    · exact go _ m h

/-! ## Coroutines -/

/-- Only the main coroutine comes back with the host's hook. -/
theorem load (h : m.Calm) (id : Nat) : (m.load id).Calm := by
  have threads := h.1.modifyThread id (f := fun th => { th with stack := #[], status := .running })
    fun _ => rfl
  refine ⟨⟨fun host => ?_, threads.2⟩, h.2⟩
  change (m.threads[id]?.getD {}).hook = .host at host
  cases here : m.threads[id]? with
  | none =>
    rw [here] at host
    cases host
  | some th =>
    rw [here] at host
    exact h.1.2 id th here host

theorem switch (h : m.Calm) (status : CoStatus) (next : Nat) {f : Thread → Thread}
    (same : ∀ th, (f th).hook = th.hook) : (m.switch status next f).Calm := by
  refine load (m := { m with stack := #[], threads := m.threads.setIfInBounds m.id (f (m.save status)) })
    ⟨⟨h.1.1, fun t th here host => ?_⟩, h.2⟩ next
  dsimp only at here
  rw [Array.getElem?_setIfInBounds] at here
  split at here
  · rename_i at_id
    split at here
    · cases here
      exact at_id ▸ h.1.1 ((same _).symm.trans host)
    · cases here
  · exact h.1.2 t th here host

theorem reply (h : m.Calm) (r : Reply) : (m.reply r).Calm := by
  unfold Machine.reply
  split
  · exact h.goTo rfl
  · exact h

/-! ## Raising -/

theorem raise (h : m.Calm) (v : Value) : (m.raise v).Calm := h.goTo rfl

theorem raiseText (h : m.Calm) (s : String) : (m.raiseText s).Calm := h.raise _

theorem raiseType (h : m.Calm) (operation : String) (v : Value) (name : Option Label) :
    (m.raiseType operation v name).Calm := h.raise _

theorem raiseCall (h : m.Calm) (v : Value) : (m.raiseCall v).Calm := h.raise _

theorem overflow (h : m.Calm) : m.overflow.Calm := by
  unfold Machine.overflow
  split
  · exact h.goTo rfl
  · exact raiseText (m := { m with overflowed := true }) h _

/-! ## Entering -/

theorem callAbove (h : m.Calm) (slot : Nat) (f : Value) (args : Array Value) (wanted : Option Nat)
    (role : Role) (nesting : Nesting) : (m.callAbove slot f args wanted role nesting).Calm :=
  ((h.reserve _).putValues slot _).goTo rfl

theorem callHook (h : m.Calm) (event : String) (line : Option Int) (after : AfterHook) :
    (m.callHook event line after).Calm := by
  unfold Machine.callHook
  split
  · exact callAbove (m := { m with allowHook := false }) h ..
  · exact h

theorem enterScript (h : m.Calm) (c : Nat) (p : Proto) (f : Frame) (args : Nat) :
    (m.enterScript c p f args).Calm := by
  unfold Machine.enterScript
  split
  · exact h.overflow
  · exact ((h.reserve _).fold fun _ _ _ h => h.setSlot _ _).goTo rfl

theorem enterNative (h : m.Calm) (f : Frame) (args : Nat) : (m.enterNative f args).Calm := by
  have entered (frame : Frame) (callers : List Frame) : Calm { m with frame, callers } := h
  unfold Machine.enterNative
  dsimp only
  split
  · exact h.overflow
  · split
    · exact (entered _ _).callHook ..
    · exact (entered _ _).goTo rfl

theorem begin (h : m.Calm) : m.begin.Calm := by
  unfold Machine.begin
  split
  · exact h.goTo rfl
  · split <;> exact h.goTo rfl
  · exact h.goTo rfl

theorem insertHandler (h : m.Calm) (func args : Nat) (f : Value) : (m.insertHandler func args f).Calm :=
  (h.putValues (func + 1) _).setSlot func f

theorem enter (h : m.Calm) (func args : Nat) (wanted : Option Nat) (role : Role) (nesting : Nesting) :
    (m.enter func args wanted role nesting).Calm := by
  have deeper (depth noYield : Nat) : Calm { m with depth, noYield } := h
  unfold Machine.enter
  dsimp only
  generalize (if nesting = .flat then m.depth else m.depth + 1) = depth
  generalize (if nesting = .fixed then m.noYield + 1 else m.noYield) = noYield
  split
  · exact (deeper _ _).raiseText _
  · split
    · exact h.goTo rfl
    · split
      · exact (deeper _ _).enterScript ..
      · exact (deeper _ _).enterNative ..
      · exact (deeper _ _).enterNative ..
      · split
        · exact h.raiseCall _
        · exact (h.insertHandler ..).goTo rfl

theorem enterTail (h : m.Calm) (func args : Nat) : (m.enterTail func args).Calm := by
  unfold Machine.enterTail
  split
  · dsimp only
    split
    · exact h.overflow
    · exact (((h.reserve _).putValues _ _).fold fun _ _ _ h => h.setSlot _ _).goTo rfl
  · exact h.enter ..
  · exact h.enter ..
  · split
    · exact h.raiseCall _
    · exact (h.insertHandler ..).goTo rfl

/-! ## Results -/

theorem branch (h : m.Calm) (cond k : Bool) : (m.branch cond k).Calm := h.goTo rfl

theorem finishOperand (h : m.Calm) (v : Value) : (m.finishOperand v).Calm := by
  unfold Machine.finishOperand
  dsimp only
  split <;> exact h.goTo rfl

theorem concat (h : m.Calm) (a n : Nat) : (m.concat a n).Calm := by
  have handle (m : Machine) (h : m.Calm) (first n : Nat) (x y : Value) :
      (Machine.concat.handle m first n x y).Calm := by
    unfold Machine.concat.handle
    dsimp only
    split
    · split
      · exact h.raiseType ..
      · exact h.callAbove ..
    · exact h.callAbove ..
  unfold Machine.concat
  dsimp only
  split
  · exact h.goTo rfl
  · split
    · split
      · exact (h.setSlot _ _).goTo rfl
      · exact handle _ (h.setSlot _ _) ..
    · exact handle _ h ..

theorem endThread (h : m.Calm) (r : Reply) (failure : Option Value) : (m.endThread r failure).Calm :=
  (h.switch .dead m.resumer (f := fun t => { t with failure }) fun _ => rfl).reply r

theorem unguard (h : m.Calm) : m.unguard.Calm := by
  unfold Machine.unguard
  split <;> exact h

/-- At the bottom of a coroutine the script ends, or whoever resumed the coroutine goes on. -/
theorem finish (h : m.Calm) (e : Ending) (r : Reply) (failure : Option Value) :
    Calm (if m.id = 0 then { m with todo := .ended e } else m.endThread r failure) := by
  split
  · exact h.goTo rfl
  · exact h.endThread r failure

theorem deliver (h : m.Calm) (role : Role) (dest : Nat) (wanted : Option Nat) (vs : Array Value) :
    (m.deliver role dest wanted vs).Calm := by
  cases role with
  | call => exact (h.putResults dest vs wanted).goTo rfl
  | iterator => exact (h.putResults dest vs wanted).goTo rfl
  | operand => exact h.finishOperand _
  | negated => exact h.finishOperand _
  | concat n => exact (h.setReg _ _).concat _ n
  | again | tail | handled | unwinding => exact h.goTo rfl
  | reply => exact h.unguard.reply _
  | hook after top => cases after <;> exact h.goTo rfl
  | base => exact h.finish ..

theorem leave (h : m.Calm) (vs : Array Value) : (m.leave vs).Calm := by
  unfold Machine.leave
  split
  · exact h.goTo rfl
  · refine deliver ?_ ..
    exact h

theorem give (h : m.Calm) (vs : Array Value) : (m.give vs).Calm := by
  unfold Machine.give
  split
  · refine callHook ?_ ..
    exact h
  · exact h.leave vs

/-! ## Errors -/

theorem handleError (h : m.Calm) (v : Value) : (m.handleError v).Calm := by
  unfold Machine.handleError
  split
  · exact h.goTo rfl
  · exact h.callAbove ..

theorem throw (h : m.Calm) (v : Value) : (m.throw v).Calm := by
  unfold Machine.throw
  split
  · exact h.goTo rfl
  · exact h.finish ..

theorem afterUnwind (h : m.Calm) (level : Nat) (error : Option Value) :
    (m.afterUnwind level error).Calm := by
  unfold Machine.afterUnwind
  dsimp only
  have closed := h.closeCells level
  generalize m.closeCells level = n at closed ⊢
  cases n.frame.guard with
  | some g =>
    have opened : Calm { n with
      handler := g.handler, allowHook := g.allowHook, overflowed := false
      frame := { n.frame with guard := none } } := closed
    dsimp only
    split
    · exact opened.finish ..
    · exact opened.finish ..
    · exact opened.reply _
    · exact opened.reply _
  | none =>
    dsimp only
    split
    · exact closed.finish ..
    · exact closed.finish ..
    · exact closed.reply _
    · exact closed.reply _

theorem unwind (h : m.Calm) (level : Nat) (error : Option Value) : (m.unwind level error).Calm := by
  unfold Machine.unwind
  split
  · split
    · rename_i rest _ _
      exact (closeCells (m := { m with closing := rest }) h _).callAbove ..
    · exact h.afterUnwind ..
  · exact h.afterUnwind ..

/-! ## Coroutines that begin, yield and end -/

theorem newThread (h : m.Calm) (body : Value) : (m.newThread body).Calm := by
  refine reply (m := { m with threads := m.threads.push { body := some body } })
    ⟨⟨h.1.1, fun t th here host => ?_⟩, h.2⟩ _
  dsimp only at here
  rw [Array.getElem?_push] at here
  split at here
  · cases here
    cases host
  · exact h.1.2 t th here host

theorem resume (h : m.Calm) (t : Nat) (args : Array Value) : (m.resume t args).Calm := by
  have switched : (m.switch .normal t fun th => th).Calm := h.switch _ _ fun _ => rfl
  unfold Machine.resume
  split
  · exact h.reply _
  · exact h.reply _
  · exact h.reply _
  · split
    · exact h.reply _
    · dsimp only
      split
      · refine callAbove ?_ ..
        exact switched.modifyThread t (f := ({ · with body := none })) fun _ => rfl
      · refine reply ?_ _
        exact switched

theorem yield (h : m.Calm) (vs : Array Value) : (m.yield vs).Calm := by
  unfold Machine.yield
  split
  · exact h.raise _
  · exact (h.switch .suspended m.resumer fun _ => rfl).reply _

theorem closeThread (h : m.Calm) (t : Nat) : (m.closeThread t).Calm := by
  unfold Machine.closeThread
  dsimp only
  split
  · have closed := h.modifyThread t (f := fun th => { th with
      status := .dead, body := none, failure := none, frame := {}, callers := [], openCells := [] })
      fun _ => rfl
    split <;>
    · refine reply ?_ _
      exact closed
  · exact goTo (h.switch .normal t fun _ => rfl) rfl

/-! ## Requests -/

theorem fault (h : m.Guarded) (f : Fault) : (m.fault f).Calm := by
  unfold Machine.fault
  cases f with
  | value v | message b | host e => exact ⟨h, rfl⟩
  | argument n b =>
    dsimp only
    split
    · split <;> exact ⟨h, rfl⟩
    · exact ⟨h, rfl⟩
    · exact ⟨h, rfl⟩

/-- A script can take the host's hook away, but cannot set it. -/
theorem setHook (h : m.Calm) (thread : Option Nat) {hook : Hook} (other : hook ≠ .host) :
    (m.setHook thread hook).Calm := by
  unfold Machine.setHook
  dsimp only
  split
  · exact ⟨⟨fun host => absurd host other, h.1.2⟩, h.2⟩
  · refine ⟨⟨h.1.1, fun u th here host => ?_⟩, h.2⟩
    dsimp only at here
    rw [Array.getElem?_modify] at here
    split at here
    · obtain ⟨th, _, rfl⟩ := Option.map_eq_some_iff.mp here
      exact absurd host other
    · exact h.1.2 u th here host

theorem protect (h : m.Calm) (f : Value) (args : Array Value) (guarding : Guarding) (offset : Nat) :
    (m.protect f args guarding offset).Calm := by
  refine callAbove ?_ ..
  exact h

theorem serve (h : m.Calm) (r : Request) : (m.serve r).Calm := by
  cases r with
  | call => exact h.callAbove ..
  | protect => exact h.protect ..
  | newThread body => exact h.newThread body
  | resume t args => exact h.resume t args
  | yield vs => exact h.yield vs
  | closeThread t => exact h.closeThread t
  | status | running | isYieldable | position | traceback | info | getCell | getHook =>
    exact h.reply _
  | getLocal =>
    unfold Machine.serve
    dsimp only
    split <;> exact h.reply _
  | setLocal =>
    unfold Machine.serve
    dsimp only
    split
    · exact h.reply _
    · exact h.reply _
    · refine reply ?_ _
      split
      · exact h.setSlot _ _
      · exact h.modifyThread _ fun _ => rfl
  | setCell cell v => exact (h.setCell cell v).reply _
  | setHook =>
    refine (h.setHook _ ?_).reply _
    split <;> exact nofun
  | write | openGate | awaitGate | awaitInput | look | emit | flush | poll | cancel | exit =>
    exact h.goTo rfl

theorem act (h : m.Calm) (f : HostM (Array Value)) : (m.act f).Calm := by
  unfold Machine.act
  dsimp only
  split
  · exact h.goTo rfl
  · refine fault ?_ _
    exact h.1
  · refine serve ?_ _
    exact h.goTo rfl

end Calm

end Machine
end ScriptHost.Script
