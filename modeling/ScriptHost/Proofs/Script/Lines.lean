import ScriptHost.Proofs.Script.Calls
import ScriptHost.Proofs.Worker.Course
import ScriptHost.Script.Execution

/-!
# The lines of the main coroutine

Instructions and steps keep what `Calls` says of the operations they are made
of, and so does everything that a script is answered (`Reaches.sheltered`): a
line that is shown is one of the main coroutine.

* `tests_in_main`: a worker hears of lines, and tests its token, in the main
  coroutine of its script only.
-/
namespace ScriptHost

namespace Script

namespace Machine

variable {m : Machine}

namespace Calm

/-! ## Instructions -/

theorem skip (h : m.Calm) : m.skip.Calm := h

theorem jump (h : m.Calm) (distance : Int) : (m.jump distance).Calm := h

theorem callMeta (h : m.Calm) (f : Value) (args : Array Value) (role : Role) :
    (m.callMeta f args role).Calm := h.callAbove ..

theorem touch (h : m.Calm) (v key : Value) : (m.touch v key).Calm := by
  unfold Machine.touch
  split
  · dsimp only
    split <;> exact h
  · exact h

theorem readIndex (h : m.Calm) (a : Nat) (v key : Value) (name : Machine → Option Label) :
    (m.readIndex a v key name).Calm := by
  unfold Machine.readIndex
  split
  · exact (h.touch v key).setReg a _
  · exact h.callMeta ..
  · exact h.raiseType ..
  · exact h.raiseText _

theorem writeIndex (h : m.Calm) (v key val : Value) (name : Machine → Option Label) :
    (m.writeIndex v key val name).Calm := by
  unfold Machine.writeIndex
  split
  · split
    · exact h.raiseText _
    · exact h
  · exact h.callAbove ..
  · exact h.raiseType ..
  · exact h.raiseText _

theorem newTable (h : m.Calm) (i : Instr) : (m.newTable i).Calm := h

theorem setList (h : m.Calm) (i : Instr) : (m.setList i).Calm := by
  unfold Machine.setList
  dsimp only
  split <;> split <;> exact h

theorem arith (h : m.Calm) (op : Number.Op) (a : Nat) (x y : Value) : (m.arith op a x y).Calm := by
  unfold Machine.arith
  split
  · exact (h.setReg a _).skip
  · exact h
  · exact h
  · exact h.raiseText _

theorem raiseOperands (h : m.Calm) (event : MetaEvent) (x y : Value) (xName yName : Option Label) :
    (m.raiseOperands event x y xName yName).Calm := by
  have wrong (operation : String) : (raiseOperands.wrong m x y xName yName operation).Calm := by
    unfold raiseOperands.wrong
    split <;> exact h.raiseType ..
  unfold Machine.raiseOperands
  split
  · exact h.raiseType ..
  all_goals first
    | exact wrong _
    | split
      · exact h.raise _
      · exact wrong _

theorem metaArith (h : m.Calm) (event : MetaEvent) (x y : Value) (xName yName : Machine → Option Label) :
    (m.metaArith event x y xName yName).Calm := by
  unfold Machine.metaArith
  dsimp only
  split
  · exact h.raiseOperands ..
  · exact h.callMeta ..

theorem metaImmediate (h : m.Calm) (i : Instr) (y : Value) : (m.metaImmediate i y).Calm := by
  unfold Machine.metaImmediate
  dsimp only
  split <;> exact h.metaArith ..

theorem unary (h : m.Calm) (op : Number.Op) (event : MetaEvent) (i : Instr) :
    (m.unary op event i).Calm := by
  unfold Machine.unary
  dsimp only
  split
  · exact h.setReg ..
  · exact h.metaArith ..

theorem length (h : m.Calm) (i : Instr) : (m.length i).Calm := by
  unfold Machine.length
  dsimp only
  split
  · exact h.setReg ..
  · split
    · split
      · refine setReg ?_ ..
        split <;> exact h
      · exact h.raiseType ..
    · exact h.callMeta ..

theorem raiseOrder (h : m.Calm) (x y : Value) : (m.raiseOrder x y).Calm := h.raise _

theorem equal (h : m.Calm) (x y : Value) (k : Bool) : (m.equal x y k).Calm := by
  unfold Machine.equal
  split
  · exact h.branch ..
  · split
    · dsimp only
      split
      · exact h.branch ..
      · exact h.callMeta ..
    · dsimp only
      split
      · exact h.branch ..
      · exact h.callMeta ..
    · exact h.branch ..

theorem less (h : m.Calm) (x y : Value) (k : Bool) : (m.less x y k).Calm := by
  unfold Machine.less
  split
  · exact h.branch ..
  · exact h.branch ..
  · dsimp only
    split
    · exact h.raiseOrder ..
    · exact h.callMeta ..

theorem lessEqual (h : m.Calm) (x y : Value) (k : Bool) : (m.lessEqual x y k).Calm := by
  unfold Machine.lessEqual
  split
  · exact h.branch ..
  · exact h.branch ..
  · dsimp only
    split
    · split
      · exact h.raiseOrder ..
      · exact h.callMeta ..
    · exact h.callMeta ..

theorem raiseLoop (h : m.Calm) (what : String) (v : Value) : (m.raiseLoop what v).Calm := h.raise _

theorem prepareLoop (h : m.Calm) (i : Instr) : (m.prepareLoop i).Calm := by
  unfold Machine.prepareLoop
  dsimp only
  split
  · split
    · exact h.raiseText _
    · split
      · exact h.raiseLoop ..
      · exact h.jump _
      · exact (h.setReg ..).setReg ..
  · split
    · exact h.raiseLoop ..
    · exact h.raiseLoop ..
    · exact h.raiseLoop ..
    · split
      · exact h.raiseText _
      · split <;> split
        · exact h.jump _
        · exact (((h.setReg ..).setReg ..).setReg ..).setReg ..
        · exact h.jump _
        · exact (((h.setReg ..).setReg ..).setReg ..).setReg ..

theorem endLoop (h : m.Calm) (i : Instr) : (m.endLoop i).Calm := by
  unfold Machine.endLoop
  dsimp only
  split
  · split <;> exact h
  · split <;> split <;> exact h
  · exact h

theorem iterate (h : m.Calm) (i : Instr) : (m.iterate i).Calm := ((h.reserve _).putValues ..).goTo rfl

theorem markClosing (h : m.Calm) (reg : Nat) {next : Machine → Machine}
    (step : ∀ m : Machine, m.Calm → (next m).Calm) : (m.markClosing reg next).Calm := by
  unfold Machine.markClosing
  dsimp only
  split
  · exact step _ h
  · split
    · exact h.raise _
    · exact step _ h

theorem closeVars (h : m.Calm) (level : Nat) {next : Machine → Machine}
    (step : ∀ m : Machine, m.Calm → (next m).Calm) : (m.closeVars level next).Calm := by
  have closed := h.closeCells level
  unfold Machine.closeVars
  dsimp only
  split
  · split
    · refine callAbove ?_ ..
      exact closed
    · exact step _ closed
  · exact step _ closed

theorem returnValues (h : m.Calm) (i : Instr) : (m.returnValues i).Calm := by
  unfold Machine.returnValues
  extract_lets first n
  split
  · refine closeVars ?_ _ fun m h => h.give _
    exact h
  · exact h.give _

theorem foldl {α β : Type} {f : β × Machine → α → β × Machine}
    (step : ∀ s a, s.2.Calm → (f s a).2.Calm) (h : m.Calm) (b : β) (as : Array α) :
    (as.foldl f (b, m)).2.Calm :=
  Array.foldl_induction (fun _ (s : β × Machine) => s.2.Calm) h fun _ _ => step _ _

theorem makeClosure (h : m.Calm) (i : Instr) : (m.makeClosure i).Calm := by
  have captured : (((m.frame.proto.protos[i.j.toNat]?.getD default).captures).foldl
      (fun (s : Array Nat × Machine) c =>
        if c.inStack then
          (s.1.push (s.2.cellOf (s.2.base + c.index)).1, (s.2.cellOf (s.2.base + c.index)).2)
        else (s.1.push (s.2.captured c.index), s.2)) (#[], m)).2.Calm := by
    refine foldl (fun s c hs => ?_) h _ _
    split
    · exact hs.cellOf _
    · exact hs
  exact captured

theorem extraArguments (h : m.Calm) (i : Instr) : (m.extraArguments i).Calm := by
  unfold Machine.extraArguments
  dsimp only
  split
  · exact h.overflow
  · exact h.putResults ..

theorem moveArguments (h : m.Calm) (i : Instr) : (m.moveArguments i).Calm := by
  unfold Machine.moveArguments
  dsimp only
  split
  · exact h.overflow
  · exact ((h.reserve _).putValues ..).goTo rfl

theorem perform (h : m.Calm) (i : Instr) : (m.perform i).Calm := by
  unfold Machine.perform
  cases i.op with
  | move | loadi | loadf | loadk | loadfalse | loadtrue | getupval | not => exact h.setReg ..
  | loadkx | lfalseskip => exact (h.setReg ..).skip
  | loadnil => exact h.fold fun _ _ _ h => h.setReg ..
  | setupval => exact h.setCell ..
  | gettabup | gettable | geti | getfield => exact h.readIndex ..
  | settabup | settable | seti | setfield => exact h.writeIndex ..
  | newtable => exact h.newTable i
  | self => exact (h.setReg ..).readIndex ..
  | addi | shri | shli | addk | subk | mulk | modk | powk | divk | idivk | bandk | bork | bxork
  | add | sub | mul | mod | pow | div | idiv | band | bor | bxor | shl | shr => exact h.arith ..
  | mmbin => exact h.metaArith ..
  | mmbini | mmbink => exact h.metaImmediate ..
  | unm | bnot => exact h.unary ..
  | len => exact h.length i
  | concat => exact h.concat ..
  | close => exact h.closeVars _ fun m h => h.goTo rfl
  | tbc => exact h.markClosing _ fun m h => h
  | jmp => exact h.jump _
  | eq => exact h.equal ..
  | lt | lti => exact h.less ..
  | gti => exact h.less ..
  | le | lei | gei => exact h.lessEqual ..
  | eqk | eqi | test => exact h.branch ..
  | testset =>
    dsimp only
    split
    · exact (h.setReg ..).branch ..
    · exact h.skip
  | call => exact h.goTo rfl
  | tailcall =>
    refine goTo ?_ rfl
    split
    · exact h.closeCells _
    · exact h
  | ret => exact h.returnValues i
  | return0 | return1 => exact h.give _
  | forloop => exact h.endLoop i
  | forprep => exact h.prepareLoop i
  | tforprep => exact h.markClosing _ fun m h => (h.jump _).skip.iterate _
  | tforcall => exact h.iterate i
  | tforloop =>
    dsimp only
    split
    · exact h
    · exact (h.setReg ..).jump _
  | setlist => exact h.setList i
  | closure => exact h.makeClosure i
  | vararg => exact h.extraArguments i
  | varargprep => exact h.moveArguments i
  | extraarg => exact h

theorem execute (h : m.Calm) : m.execute.Calm := by
  refine perform ?_ _
  exact h.goTo rfl

theorem repeatInstr (h : m.Guarded) : m.repeatInstr.Calm := by
  refine perform ?_ _
  exact ⟨h, rfl⟩

end Calm

/-! ## Steps -/

/-- A line that is shown is shown to the host's hook. -/
def Sheltered (m : Machine) : Prop := m.Guarded ∧ (m.todo.isLine = true → m.hook = .host)

theorem Calm.sheltered (h : m.Calm) : m.Sheltered :=
  ⟨h.1, fun shown => by rw [h.2] at shown; cases shown⟩

namespace Sheltered

theorem fetchLine (h : m.Calm) : m.fetchLine.Sheltered := by
  have watched (oldPc : Nat) : Calm { m with oldPc } := h
  unfold Machine.fetchLine
  refine iteInduction (fun _ => ?_) fun _ => (watched _).execute.sheltered
  dsimp only
  split
  · rename_i host
    exact ⟨h.1, fun _ => host⟩
  · refine (Calm.callHook ?_ ..).sheltered
    exact h
  · exact (watched _).execute.sheltered

theorem fetchFull (h : m.Calm) : m.fetchFull.Sheltered := by
  have counted (f : Value) (mask : Bytes) (count left : Nat) :
      Calm { m with hook := .script f mask count left } := ⟨⟨nofun, h.1.2⟩, h.2⟩
  unfold Machine.fetchFull
  split
  · exact h.execute.sheltered
  · exact fetchLine h
  · dsimp only
    split
    · refine (Calm.callHook ?_ ..).sheltered
      exact counted ..
    · split
      · exact fetchLine (counted ..)
      · exact (counted ..).execute.sheltered

theorem fetch (h : m.Calm) (w : Watch) : (m.fetch w).Sheltered := by
  cases w with
  | entry =>
    unfold Machine.fetch Machine.fetchEntry
    dsimp only
    split
    · refine (Calm.callHook ?_ ..).sheltered
      exact h
    · exact fetchFull h
  | full => exact fetchFull h
  | line => exact fetchLine h
  | quiet => exact h.execute.sheltered

theorem step (h : m.Calm) : m.step.Sheltered := by
  unfold Machine.step
  split
  · exact fetch h _
  · exact h.begin.sheltered
  · exact (Calm.repeatInstr h.1).sheltered
  · exact (h.enter ..).sheltered
  · exact (h.enterTail ..).sheltered
  · exact (h.act _).sheltered
  · exact (h.give _).sheltered
  · exact (h.leave _).sheltered
  · exact (h.handleError _).sheltered
  · exact (h.throw _).sheltered
  · exact (h.unwind ..).sheltered
  · exact h.sheltered
  · exact h.sheltered
  · exact h.sheltered

theorem calm (h : m.Sheltered) (busy : m.isResting = false) : m.Calm := by
  refine ⟨h.1, ?_⟩
  unfold Machine.isResting at busy
  split at busy
  · cases busy
  · cases busy
  · cases busy
  · unfold Todo.isLine
    split
    · simp_all
    · rfl

theorem run (h : m.Sheltered) (n : Nat) : (m.run n).Sheltered := by
  induction n generalizing m with
  | zero => exact h
  | succ n ih =>
    unfold Machine.run
    split
    · exact h
    · rename_i busy
      exact ih (step (h.calm (Bool.eq_false_iff.mpr busy)))

theorem reply (h : m.Sheltered) (r : Reply) : (m.reply r).Sheltered := by
  unfold Machine.reply
  split
  · exact Calm.sheltered ⟨h.1, rfl⟩
  · exact h

theorem proceed (h : m.Sheltered) : m.proceed.Sheltered := Calm.sheltered ⟨h.1, rfl⟩

theorem interrupt (h : m.Sheltered) (e : HostError) : (m.interrupt e).Sheltered := by
  refine (Calm.fault ?_ _).sheltered
  exact h.1

end Sheltered

/-- The main function of a run is called in the main coroutine, which has the host's hook. -/
theorem sheltered_protecting (heap : Heap) (p : Proto) : (protecting heap p).Sheltered := by
  refine Calm.sheltered ⟨⟨fun _ => rfl, fun t th here host => ?_⟩, rfl⟩
  change #[({ status := .running } : Thread)][t]? = some th at here
  obtain ⟨_, rfl⟩ := Array.getElem?_eq_some_iff.mp here
  simp at host

end Machine

namespace Execution

variable {p : Execution}

def Sheltered (p : Execution) : Prop := ∀ m, p = .loaded m → m.Sheltered

/-- The script shows a line, and is in its main coroutine. -/
def InMain (p : Execution) : Prop := ∃ m n, p = .loaded m ∧ m.todo = .line n ∧ m.id = 0

namespace Sheltered

theorem refused (e : String) : (Execution.refused e).Sheltered := by
  intro m h
  cases h

theorem loaded {m : Machine} (h : m.Sheltered) : (Execution.loaded m).Sheltered := by
  rintro _ ⟨⟩
  exact h

theorem launch (w : World) (payload : Payload) (chunkName : String) :
    (launch w payload chunkName).Sheltered := by
  unfold Execution.launch
  split
  · exact refused _
  · exact loaded (Machine.sheltered_protecting _ _)

theorem serve {m : Machine} (h : m.Sheltered) (r : Request) (w : World) :
    (serve m r w).1.Sheltered := by
  cases r with
  | openGate | awaitGate | awaitInput | look =>
    unfold Execution.serve
    dsimp only
    split
    all_goals first
      | exact h
      | exact h.reply _
  | emit | flush | write => exact h.reply _
  | _ => exact h

theorem work (h : p.Sheltered) (w : World) : (p.work w).1.Sheltered := by
  unfold Execution.work
  split
  · exact refused _
  · rename_i m
    have h := h m rfl
    split
    · exact loaded (serve h _ w)
    · refine loaded ?_
      have run := Machine.Sheltered.run (m := { m with heap := { m.heap with world := w } }) h slice
      exact run

theorem answerLine (h : p.Sheltered) (stop : Bool) : (p.answerLine stop).Sheltered := by
  cases p with
  | refused e => exact refused e
  | loaded m =>
    have h := h m rfl
    cases stop with
    | true => exact loaded (h.interrupt _)
    | false => exact loaded h.proceed

theorem answerWrite (h : p.Sheltered) (failure : Option SystemError) :
    (p.answerWrite failure).Sheltered := by
  cases p with
  | refused e => exact refused e
  | loaded m => exact loaded ((h m rfl).reply _)

/-- A line is shown in the main coroutine. -/
theorem inMain (h : p.Sheltered) {n : Int} (shown : p.signal = .line n) : p.InMain := by
  cases p with
  | refused e => cases shown
  | loaded m =>
    have h := h m rfl
    unfold signal at shown
    dsimp only at shown
    split at shown
    · rename_i at_line
      refine ⟨m, _, rfl, at_line, h.1.1 (h.2 ?_)⟩
      rw [at_line]
      rfl
    · split at shown <;> cases shown
    all_goals cases shown

end Sheltered

end Execution

/-! ## Workers -/

/-- A script in the hands of a worker, and where it is when the worker hears of a line. -/
def Attended : Stage Execution → Prop
  | .executing p => p.Sheltered
  | .lineStored p | .lineMarked p | .testing p => p.Sheltered ∧ p.InMain
  | _ => True

namespace Attended

variable {id : Nat} {x : Run.Shared World Execution} {r r' : Run Execution}

theorem execute {p : Execution} {q : Queue} {w : World} (h : p.Sheltered) (here : r.stage = .executing p) :
    Attended (Run.workerStep interpreter id ⟨r, q, w⟩).run.stage := by
  cases shown : interpreter.signal p with
  | working | waiting =>
    simp only [Run.workerStep, Run.execute, here, shown]
    exact h.work w
  | line n =>
    have main := h.inMain shown
    simp only [Run.workerStep, Run.execute, here, shown]
    split <;> exact ⟨h, main⟩
  | write bytes =>
    simp only [Run.workerStep, Run.execute, here, shown]
    split
    · exact h.answerWrite none
    · rename_i e _
      exact h.answerWrite (some e)
  | ended failure =>
    simp only [Run.workerStep, Run.execute, here, shown, Run.afterScript]
    split
    · trivial
    · split <;> trivial

theorem act (h : Attended x.run.stage) : Attended (Run.workerStep interpreter id x).run.stage := by
  obtain ⟨r, q, w⟩ := x
  dsimp only at h
  cases here : r.stage with
  | executing p =>
    rw [here] at h
    exact execute h here
  | announced =>
    simp only [Run.workerStep, here]
    exact Execution.Sheltered.launch w r.payload r.chunkName
  | lineStored p =>
    rw [here] at h
    simp only [Run.workerStep, here]
    split <;> exact h
  | lineMarked p =>
    rw [here] at h
    simp only [Run.workerStep, here]
    exact h
  | testing p =>
    rw [here] at h
    simp only [Run.workerStep, here]
    exact h.1.answerLine _
  | finalizing p o =>
    simp only [Run.workerStep, Run.finalize, here]
    cases interpreter.signal p with
    | write bytes =>
      dsimp only
      split <;> trivial
    | _ => trivial
  | draining o =>
    simp only [Run.workerStep, here]
    split <;> trivial
  | _ =>
    simp only [Run.workerStep, here]
    trivial

theorem meddle (h : Attended r.stage) (hm : r.Meddles r') : Attended r'.stage := by
  rcases hm.stage with same | ⟨o, _, after⟩
  · exact same ▸ h
  · rw [after]
    trivial

end Attended

end Script

namespace Ensemble

open Script

variable {s : Ensemble World Execution} {settings : Settings} {world : World} {id : Nat}
  {ls : List (Label World)}

theorem Reached.attended {ok : Label World → Prop}
    (h : Reached interpreter ok (initial settings world) s) (hid : id < s.engine.runs.size) :
    Attended (s.engine.run id).stage := by
  induction h with
  | start => cases hid
  | @step s s' l h hl step ih =>
    by_cases hid' : id < s.engine.runs.size
    · rcases step_shared hid' step with ⟨_, own⟩ | meddled
      · have stage : (s'.engine.run id).stage = (Run.workerStep interpreter id (s.shared id)).run.stage :=
          congrArg (fun x : Run.Shared World Execution => x.run.stage) own
        rw [stage]
        exact Attended.act (ih hid')
      · exact (ih hid').meddle meddled
    · obtain ⟨_, launch, gives⟩ := (h.ruled.conduct step).fresh h.sound hid' hid
      generalize s'.engine.run id = r at gives ⊢
      cases gives <;> trivial

/-- **Only the main coroutine of a script can be stopped.** Every line that a worker hears of, and
every test of its token, is in the main coroutine. Where a script is in another one, lines go by and
the token is not tested, whether it is set or not. -/
theorem tests_in_main (h : exec interpreter (initial settings world) ls = some s)
    (hid : id < s.engine.runs.size) :
    (∀ n, .hook n ∈ Run.deeds interpreter id (s.shared id) →
      ∃ m, (s.engine.run id).stage = .executing (.loaded m) ∧ m.id = 0) ∧
    ∀ saw, .test saw ∈ Run.deeds interpreter id (s.shared id) →
      ∃ m, (s.engine.run id).stage = .testing (.loaded m) ∧ m.id = 0 := by
  have attended := (Reached.start.of_exec h).attended hid
  refine ⟨fun n mem => ?_, fun saw mem => ?_⟩
  · obtain ⟨p, here, shown⟩ := Run.hook_of_deeds mem
    rw [show (s.engine.run id).stage = .executing p from here] at attended ⊢
    obtain ⟨m, _, rfl, _, main⟩ := Execution.Sheltered.inMain attended shown
    exact ⟨m, rfl, main⟩
  · obtain ⟨p, here⟩ := Run.test_of_deeds mem
    rw [show (s.engine.run id).stage = .testing p from here] at attended ⊢
    obtain ⟨_, m, _, rfl, _, main⟩ := attended
    exact ⟨m, rfl, main⟩

/-- An empty script is at its only line. -/
def oneLine : Ensemble World Execution :=
  (exec interpreter (initial {} {}) (.start .works :: .replicate 3 (.other (.worker 0)))).get
    (by decide +kernel)

theorem exec_oneLine : exec interpreter (initial {} {})
    (.start .works :: .replicate 3 (.other (.worker 0))) = some oneLine := (Option.some_get _).symm

/-- The worker hears of the line in the main coroutine. -/
theorem tests_in_main_oneLine : .hook 1 ∈ Run.deeds interpreter 0 (oneLine.shared 0) ∧
    ∃ m, (oneLine.engine.run 0).stage = .executing (.loaded m) ∧ m.id = 0 := by
  have heard : .hook 1 ∈ Run.deeds interpreter 0 (oneLine.shared 0) := by decide +kernel
  exact ⟨heard, (tests_in_main exec_oneLine (by decide +kernel)).1 1 heard⟩

end Ensemble
end ScriptHost
