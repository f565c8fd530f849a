import ScriptHost.Proofs.Control.Apart
import ScriptHost.Proofs.Recovery.Queues

/-!
# Engines that differ in runs that were refused

One engine is another with extra runs, of which nothing is left: there is no
worker, and the pump has ended.

* `Added.step`, `Added.launch` and the like: what is done to both keeps them so,
  under the number that the run has in each.
* `step_void`: nobody goes on in an extra run.
* `Added.more`: one more launch is refused in the first.
-/
namespace ScriptHost

variable {ω σ : Type} {I : Interpreter ω σ} {x : Extra} {j : Nat}

/-- There is neither a worker nor a pump. -/
structure Run.Void (r : Run σ) : Prop where
  stage : r.stage = .absent
  pump : r.pump = .ended
  phase : r.phase = .stopped

theorem Run.void_failed (p : Payload) (chunkName : String) :
    (Run.failed p chunkName : Run σ).Void := ⟨rfl, rfl, rfl⟩

/-- The actor under the number that its run has in the other engine. -/
def Actor.place (x : Extra) : Actor → Actor
  | .worker r => .worker (x.place r)
  | .patience r => .patience (x.place r)
  | .pump r g => .pump (x.place r) g
  | .fault r => .fault (x.place r)

theorem Actor.exists_place {a : Actor} (h : x.has a.run = false) : ∃ b : Actor, b.place x = a := by
  obtain ⟨j, hj⟩ := Extra.exists_place h
  cases a with
  | worker r => exact ⟨.worker j, congrArg Actor.worker hj⟩
  | patience r => exact ⟨.patience j, congrArg Actor.patience hj⟩
  | pump r g => exact ⟨.pump j g, congrArg (Actor.pump · g) hj⟩
  | fault r => exact ⟨.fault j, congrArg Actor.fault hj⟩

/-- Whose phase is shown, under the number that the run has in the other engine. -/
def Shown.place (x : Extra) : Shown → Shown
  | .run id => .run (x.place id)
  | s => s

/-! ## Workers and pumps -/

/-- Two queues differ in extra runs, and the run and the world beside them are the same. -/
structure Run.Shared.Added (x : Extra) (y z : Run.Shared ω σ) : Prop where
  run : y.run = z.run
  queue : y.queue.Added x z.queue
  world : y.world = z.world

namespace Queue.Added

variable {q p : Queue}

theorem execute (h : q.Added x p) (s : σ) (r : Run σ) (w : ω) :
    (Run.execute I (x.place j) s ⟨r, q, w⟩).Added x (Run.execute I j s ⟨r, p, w⟩) := by
  unfold Run.execute
  cases I.signal s with
  | working | waiting => exact ⟨rfl, h, rfl⟩
  | line n =>
    dsimp only
    split
    · exact ⟨rfl, h.modifySlot j _, rfl⟩
    · exact ⟨rfl, h, rfl⟩
  | write bytes =>
    dsimp only
    split <;> exact ⟨rfl, h, rfl⟩
  | ended failure => exact ⟨rfl, h, rfl⟩

theorem finalize (h : q.Added x p) (s : σ) (o : Outcome) (r : Run σ) (w : ω) :
    (Run.finalize I s o ⟨r, q, w⟩).Added x (Run.finalize I s o ⟨r, p, w⟩) := by
  unfold Run.finalize
  cases I.signal s with
  | write bytes =>
    dsimp only
    split <;> exact ⟨rfl, h, rfl⟩
  | _ => exact ⟨rfl, h, rfl⟩

/-- A worker does the same with both queues. -/
theorem workerStep (h : q.Added x p) (r : Run σ) (w : ω) :
    (Run.workerStep I (x.place j) ⟨r, q, w⟩).Added x (Run.workerStep I j ⟨r, p, w⟩) := by
  cases hr : r.stage with
  | executing s =>
    simp only [Run.workerStep, hr]
    exact h.execute s { r with stage := .absent } w
  | finalizing s o =>
    simp only [Run.workerStep, hr]
    exact h.finalize s o { r with stage := .absent } w
  | lineStored s =>
    have queued : (q.markQueued (x.place j)).1 = (p.markQueued j).1 :=
      congrArg Slot.queued (h.slot j)
    simp only [Run.workerStep, hr, queued]
    exact ⟨rfl, h.modifySlot j _, rfl⟩
  | created =>
    simp only [Run.workerStep, hr]
    exact ⟨rfl, h.push (.event j .started), rfl⟩
  | lineMarked s =>
    simp only [Run.workerStep, hr]
    exact ⟨rfl, h.push (.line j), rfl⟩
  | leaving o =>
    simp only [Run.workerStep, hr]
    exact ⟨rfl, h.push (.event j (.stopped o)), rfl⟩
  | _ =>
    simp only [Run.workerStep, hr]
    exact ⟨rfl, h, rfl⟩

theorem pumpStep (h : q.Added x p) (g : Grant) (r : Run σ) :
    (r.pumpStep g (x.place j) q).1 = (r.pumpStep g j p).1 ∧
      (r.pumpStep g (x.place j) q).2.Added x (r.pumpStep g j p).2 := by
  unfold Run.pumpStep
  split
  · split <;> exact ⟨rfl, h⟩
  · rename_i t _
    exact ⟨rfl, h.push (.event j (.output t))⟩
  · exact ⟨rfl, h⟩
  · exact ⟨rfl, h⟩

end Queue.Added

namespace Engine

/-- The first engine is the second with extra runs, of which nothing is left. -/
structure Added (x : Extra) (e f : Engine ω σ) : Prop where
  settings : e.settings = f.settings
  payload : e.payload = f.payload
  leaked : e.leaked = f.leaked
  world : e.world = f.world
  first : x.first ≤ f.runs.size
  size : e.runs.size = f.runs.size + x.count
  runs : ∀ j, e.runs[x.place j]? = f.runs[j]?
  void : ∀ i, x.has i = true → ∃ r, e.runs[i]? = some r ∧ r.Void
  queue : e.queue.Added x f.queue

/-- Nobody goes on in a run of which nothing is left. -/
theorem step_void (e : Engine ω σ) {a : Actor} {r : Run σ} (here : e.runs[a.run]? = some r)
    (void : r.Void) : e.step I a = e := by
  have absent : { r with stage := .absent } = r := by rw [← void.stage]
  have own : e.run a.run = r := by simp [Engine.run, here]
  cases a with
  | worker id =>
    change e.runs[id]? = some r at here
    have rests : Run.workerStep I id ⟨r, e.queue, e.world⟩ = ⟨r, e.queue, e.world⟩ := by
      simp only [Run.workerStep, void.stage, absent]
    rw [Alike.step_worker_some e here, rests, set_same here]
  | pump id g =>
    change e.runs[id]? = some r at here
    have rests : r.pumpStep g id e.queue = (r, e.queue) := by
      simp only [Run.pumpStep, void.pump]
    rw [Alike.step_pump_some e g here, rests, set_same here]
  | patience id =>
    refine modifyRun_same ?_
    change e.run id = r at own
    simp only [own, Run.expire, void.stage]
  | fault id =>
    refine modifyRun_same ?_
    change e.run id = r at own
    simp only [own, Run.failRead, void.pump]

namespace Added

variable {e f : Engine ω σ}

theorem refl (h : x.count = 0) (first : x.first ≤ e.runs.size)
    (slots : e.queue.slots.size = e.runs.size) : e.Added x e := by
  refine ⟨rfl, rfl, rfl, rfl, first, by rw [h, Nat.add_zero], fun j => ?_, fun i hi => ?_,
    .refl h (slots ▸ first)⟩
  · rw [Extra.place_of_none h]
  · rw [Extra.has_of_none h] at hi
    cases hi

/-! ## Looking at them -/

theorem isAlive_eq (h : e.Added x f) (j : Nat) : e.isAlive (x.place j) = f.isAlive j := by
  rw [Engine.isAlive, h.runs, Engine.isAlive]

theorem phase_eq (h : e.Added x f) (shown : e.shown = f.shown.place x) : e.phase = f.phase := by
  unfold Engine.phase
  rw [shown]
  cases f.shown with
  | run j => simp only [Shown.place, h.runs]
  | _ => rfl

theorem isRunning_eq (h : e.Added x f) (current : e.current = f.current.map x.place)
    (shown : e.shown = f.shown.place x) : e.isRunning = f.isRunning := by
  unfold Engine.isRunning
  rw [current, h.phase_eq shown]
  cases f.current with
  | none => rfl
  | some j => simp only [Option.map_some, h.isAlive_eq]

/-! ## What is done to both -/

theorem setPayload (h : e.Added x f) (g : Payload → Payload) :
    { e with payload := g e.payload }.Added x { f with payload := g f.payload } :=
  { h with payload := congrArg g h.payload }

theorem setScript (h : e.Added x f) (running : e.isRunning = f.isRunning) (source : ByteArray) :
    (e.setScript source).1 = (f.setScript source).1 ∧
      (e.setScript source).2.Added x (f.setScript source).2 := by
  unfold Engine.setScript Engine.ensureIdle
  rw [running]
  cases f.isRunning with
  | true => exact ⟨rfl, h⟩
  | false => exact ⟨rfl, h.setPayload fun p => { p with source }⟩

theorem setSearchDirs (h : e.Added x f) (running : e.isRunning = f.isRunning)
    (dirs : List String) :
    (e.setSearchDirs dirs).1 = (f.setSearchDirs dirs).1 ∧
      (e.setSearchDirs dirs).2.Added x (f.setSearchDirs dirs).2 := by
  unfold Engine.setSearchDirs Engine.ensureIdle
  rw [running]
  cases f.isRunning with
  | true => exact ⟨rfl, h⟩
  | false => exact ⟨rfl, h.setPayload fun p => { p with searchDirs := dirs }⟩

theorem modifyRun (h : e.Added x f) (g : Run σ → Run σ) (j : Nat) :
    (e.modifyRun (x.place j) g).Added x (f.modifyRun j g) := by
  refine { h with first := ?_, size := ?_, runs := fun i => ?_, void := fun i hi => ?_ }
  · simpa [Engine.modifyRun] using h.first
  · simp [Engine.modifyRun, h.size]
  · simp [Engine.modifyRun, Array.getElem?_modify, h.runs]
  · simpa [Engine.modifyRun, Array.getElem?_modify, (Extra.ne_place hi j).symm] using h.void i hi

theorem push (h : e.Added x f) (r : Run σ) (i : Nat) :
    (e.runs.push r)[x.place i]? = (f.runs.push r)[i]? := by
  have last : x.place i = e.runs.size ↔ i = f.runs.size := by
    rw [h.size, ← Extra.place_of_le h.first, Extra.place_inj]
  simp only [Array.getElem?_push, h.runs, last]

theorem push_void (h : e.Added x f) (r : Run σ) {i : Nat} (hi : x.has i = true) :
    ∃ r', (e.runs.push r)[i]? = some r' ∧ r'.Void := by
  obtain ⟨r', here, void⟩ := h.void i hi
  have other : i ≠ e.runs.size := Nat.ne_of_lt (Array.getElem?_eq_some_iff.mp here).1
  exact ⟨r', by rw [Array.getElem?_push, if_neg other, here], void⟩

/-- One more run in both. -/
theorem pushRun (h : e.Added x f) (r : Run σ) {q p : Queue} (queue : q.Added x p)
    (current current' : Option Nat) (shown shown' : Shown) :
    { e with queue := q, runs := e.runs.push r, current, shown }.Added x
      { f with queue := p, runs := f.runs.push r, current := current', shown := shown' } := by
  refine { h with
    first := ?_, size := ?_, runs := h.push r, void := fun i => h.push_void r, queue }
  · simpa using Nat.le_succ_of_le h.first
  · simp [h.size, Nat.add_right_comm]

theorem launch (h : e.Added x f) (l : Launch) :
    (e.launch l).1 = (f.launch l).1 ∧ (e.launch l).2.Added x (f.launch l).2 := by
  obtain ⟨number, queue⟩ := h.queue.openRun
  have fails (o : Outcome) (y : Failure) :
      (e.failLaunch o y).1 = (f.failLaunch o y).1 ∧
        (e.failLaunch o y).2.Added x (f.failLaunch o y).2 := by
    have run : (Run.failed e.payload e.settings.chunkName : Run σ) =
        Run.failed f.payload f.settings.chunkName := by rw [h.payload, h.settings]
    refine ⟨rfl, ?_⟩
    simp only [Engine.failLaunch, number, run]
    exact h.pushRun _ (queue.push (.event f.queue.openRun.1 (.stopped o))) _ _ _ _
  cases l with
  | noChannel c => exact fails _ _
  | noThread c turns late =>
    rw [e.launch_noThread, f.launch_noThread]
    exact fails _ _
  | works =>
    have run : ({ payload := e.payload, chunkName := e.settings.chunkName } : Run σ) =
        { payload := f.payload, chunkName := f.settings.chunkName } := by rw [h.payload, h.settings]
    refine ⟨rfl, ?_⟩
    simp only [Engine.launch, number, run]
    exact h.pushRun _ queue _ _ _ _

theorem silence (h : e.Added x f) (j : Nat) : (e.silence (x.place j)).Added x (f.silence j) :=
  { h with
    leaked := congrArg (· + 1) h.leaked
    queue := h.queue.modifySlot j _ }

/-! ## What others do -/

theorem set (h : e.Added x f) (j : Nat) {r r' : Run σ} {queue queue' : Queue} {world world' : ω}
    (hr : r = r') (hq : queue.Added x queue') (hw : world = world') :
    { e with queue, runs := e.runs.setIfInBounds (x.place j) r, world }.Added x
      { f with queue := queue', runs := f.runs.setIfInBounds j r', world := world' } := by
  subst hr
  refine { h with
    first := ?_, size := ?_, runs := fun i => ?_, void := fun i hi => ?_, queue := hq, world := hw }
  · simpa using h.first
  · simp [h.size]
  · simp [Array.getElem?_setIfInBounds, h.runs, h.size, Extra.place_lt h.first]
  · simpa [Array.getElem?_setIfInBounds, (Extra.ne_place hi j).symm] using h.void i hi

/-- A worker or a pump goes on in both. -/
theorem step (h : e.Added x f) (a : Actor) : (e.step I (a.place x)).Added x (f.step I a) := by
  cases a with
  | patience j | fault j => exact h.modifyRun _ j
  | worker j =>
    have runs := h.runs j
    cases hr : f.runs[j]? with
    | none =>
      rw [hr] at runs
      simp only [Actor.place, Engine.step, hr, runs]
      exact h
    | some r =>
      rw [hr] at runs
      have shared := h.queue.workerStep (I := I) (j := j) r e.world
      rw [Actor.place, Alike.step_worker_some e runs, Alike.step_worker_some f hr, ← h.world]
      exact h.set j shared.run shared.queue shared.world
  | pump j g =>
    have runs := h.runs j
    cases hr : f.runs[j]? with
    | none =>
      rw [hr] at runs
      simp only [Actor.place, Engine.step, hr, runs]
      exact h
    | some r =>
      rw [hr] at runs
      obtain ⟨run, queue⟩ := h.queue.pumpStep (j := j) g r
      rw [Actor.place, Alike.step_pump_some e g runs, Alike.step_pump_some f g hr]
      exact h.set j run queue h.world

/-- One more launch is refused in the first. -/
theorem more (h : e.Added x f) (last : f.runs.size = x.first)
    (slots : f.queue.slots.size = f.runs.size) (lt : ∀ m ∈ f.queue.toList, m.run < x.first)
    (o : Outcome) (y : Failure) : (e.failLaunch o y).2.Added x.more f := by
  have at_end : e.runs.size = x.first + x.count := by rw [h.size, last]
  refine ⟨h.settings, h.payload, h.leaked, h.world, Nat.le_of_eq last.symm, ?_, fun j => ?_,
    fun i hi => ?_, (h.queue.more (slots.trans last) lt o).2⟩
  · simp [Engine.failLaunch, at_end, last, Extra.more, Nat.add_assoc]
  · by_cases hj : j < x.first
    · have here := h.runs j
      rw [Extra.place_of_lt hj] at here
      rw [Extra.place_of_lt (x := x.more) hj, ← here]
      exact (Array.getElem?_push).trans (if_neg (by omega))
    · have past : x.more.place j = j + (x.count + 1) := if_neg hj
      have beyond : f.runs[j]? = none := Array.getElem?_eq_none (by omega)
      rw [past, beyond]
      refine Array.getElem?_eq_none ?_
      simp only [Engine.failLaunch, Array.size_push]
      omega
  · rcases Extra.more_has.mp hi with hi | rfl
    · exact h.push_void _ hi
    · refine ⟨_, ?_, Run.void_failed e.payload e.settings.chunkName⟩
      rw [← at_end]
      exact Array.getElem?_push_size

end Added
end Engine
end ScriptHost
