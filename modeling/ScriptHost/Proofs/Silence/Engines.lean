import ScriptHost.Proofs.Ensemble.Moves
import ScriptHost.Proofs.Silence.Queues

/-!
# Engines that differ in a disowned run

Two engines are alike for a run when their queues are, and they agree about
everything else but that run itself.

* `Alike.step`, `Alike.launch` and the like: what the controller does to both,
  and what the workers and pumps of other runs do, keeps them alike.
* `Alike.own`: so does what the worker and the pump of the run itself do to one
  of them, but for the world, in which the script goes on.
-/
namespace ScriptHost

variable {ω σ : Type} {I : Interpreter ω σ} {id j : Nat}

/-- The run of which somebody goes on. -/
def Actor.run : Actor → Nat
  | .worker r | .patience r | .pump r _ | .fault r => r

/-! ## Other workers and pumps -/

/-- Two queues are alike, and the run and the world beside them are the same. -/
structure Run.Shared.Alike (id : Nat) (x y : Run.Shared ω σ) : Prop where
  run : x.run = y.run
  queue : x.queue.Alike id y.queue
  world : x.world = y.world

theorem Queue.Alike.execute {q p : Queue} (h : q.Alike id p) (s : σ) (r : Run σ) (w : ω) :
    (Run.execute I j s ⟨r, q, w⟩).Alike id (Run.execute I j s ⟨r, p, w⟩) := by
  unfold Run.execute
  cases I.signal s with
  | working | waiting => exact ⟨rfl, h, rfl⟩
  | line n =>
    dsimp only
    split
    · exact ⟨rfl, h.modifySlot (by intro _ gone; exact gone) j, rfl⟩
    · exact ⟨rfl, h, rfl⟩
  | write bytes =>
    dsimp only
    split <;> exact ⟨rfl, h, rfl⟩
  | ended failure => exact ⟨rfl, h, rfl⟩

theorem Queue.Alike.finalize {q p : Queue} (h : q.Alike id p) (s : σ) (o : Outcome) (r : Run σ) (w : ω) :
    (Run.finalize I s o ⟨r, q, w⟩).Alike id (Run.finalize I s o ⟨r, p, w⟩) := by
  unfold Run.finalize
  cases I.signal s with
  | write bytes =>
    dsimp only
    split <;> exact ⟨rfl, h, rfl⟩
  | _ => exact ⟨rfl, h, rfl⟩

/-- The worker of another run does the same with both queues. -/
theorem Queue.Alike.workerStep {q p : Queue} (h : q.Alike id p) (hj : j ≠ id) (r : Run σ) (w : ω) :
    (Run.workerStep I j ⟨r, q, w⟩).Alike id (Run.workerStep I j ⟨r, p, w⟩) := by
  cases hr : r.stage with
  | executing s =>
    simp only [Run.workerStep, hr]
    exact h.execute s { r with stage := .absent } w
  | finalizing s o =>
    simp only [Run.workerStep, hr]
    exact h.finalize s o { r with stage := .absent } w
  | lineStored s =>
    have queued : (q.markQueued j).1 = (p.markQueued j).1 := congrArg Slot.queued (h.slot j hj)
    simp only [Run.workerStep, hr, queued]
    exact ⟨rfl, h.modifySlot (by intro _ gone; exact gone) j, rfl⟩
  | created | lineMarked | leaving =>
    simp only [Run.workerStep, hr]
    exact ⟨rfl, h.push _, rfl⟩
  | _ =>
    simp only [Run.workerStep, hr]
    exact ⟨rfl, h, rfl⟩

theorem Queue.Alike.pumpStep {q p : Queue} (h : q.Alike id p) (g : Grant) (r : Run σ) :
    (r.pumpStep g j q).1 = (r.pumpStep g j p).1 ∧
      (r.pumpStep g j q).2.Alike id (r.pumpStep g j p).2 := by
  unfold Run.pumpStep
  split
  · split <;> exact ⟨rfl, h⟩
  · exact ⟨rfl, h.push _⟩
  · exact ⟨rfl, h⟩
  · exact ⟨rfl, h⟩

namespace Engine

/-- The engines agree but for the run `id`, which both have disowned. -/
structure Alike (id : Nat) (e f : Engine ω σ) : Prop where
  settings : e.settings = f.settings
  payload : e.payload = f.payload
  current : e.current = f.current
  shown : e.shown = f.shown
  leaked : e.leaked = f.leaked
  world : e.world = f.world
  size : e.runs.size = f.runs.size
  runs : ∀ j ≠ id, e.runs[j]? = f.runs[j]?
  queue : e.queue.Alike id f.queue

namespace Alike

variable {e f : Engine ω σ}

/-! ## Looking at them -/

theorem run_eq (h : e.Alike id f) (hj : j ≠ id) : e.run j = f.run j := by
  rw [Engine.run, h.runs j hj, Engine.run]

theorem isAlive_eq (h : e.Alike id f) (hj : j ≠ id) : e.isAlive j = f.isAlive j := by
  rw [Engine.isAlive, h.runs j hj, Engine.isAlive]

theorem phase_eq (h : e.Alike id f) (shown : e.shown ≠ .run id) : e.phase = f.phase := by
  unfold Engine.phase
  rw [← h.shown]
  cases hs : e.shown with
  | run j =>
    have runs := h.runs j (by rintro rfl; exact shown hs)
    simp only [runs]
  | _ => rfl

theorem isRunning_eq (h : e.Alike id f) (current : e.current ≠ some id)
    (shown : e.shown ≠ .run id) : e.isRunning = f.isRunning := by
  unfold Engine.isRunning
  rw [← h.current, h.phase_eq shown]
  cases hc : e.current with
  | none => rfl
  | some j =>
    have alive := h.isAlive_eq (j := j) (by rintro rfl; exact current hc)
    simp only [alive]

/-! ## What is done to both -/

theorem setPayload (h : e.Alike id f) (g : Payload → Payload) :
    { e with payload := g e.payload }.Alike id { f with payload := g f.payload } :=
  { h with payload := congrArg g h.payload }

theorem setScript (h : e.Alike id f) (running : e.isRunning = f.isRunning) (source : ByteArray) :
    (e.setScript source).1 = (f.setScript source).1 ∧
      (e.setScript source).2.Alike id (f.setScript source).2 := by
  unfold Engine.setScript Engine.ensureIdle
  rw [running]
  cases f.isRunning with
  | true => exact ⟨rfl, h⟩
  | false => exact ⟨rfl, h.setPayload fun p => { p with source }⟩

theorem setSearchDirs (h : e.Alike id f) (running : e.isRunning = f.isRunning)
    (dirs : List String) :
    (e.setSearchDirs dirs).1 = (f.setSearchDirs dirs).1 ∧
      (e.setSearchDirs dirs).2.Alike id (f.setSearchDirs dirs).2 := by
  unfold Engine.setSearchDirs Engine.ensureIdle
  rw [running]
  cases f.isRunning with
  | true => exact ⟨rfl, h⟩
  | false => exact ⟨rfl, h.setPayload fun p => { p with searchDirs := dirs }⟩

theorem modifyRun (h : e.Alike id f) (g : Run σ → Run σ) (j : Nat) :
    (e.modifyRun j g).Alike id (f.modifyRun j g) := by
  refine { h with size := ?_, runs := fun i hi => ?_ }
  · simp [Engine.modifyRun, h.size]
  · simp [Engine.modifyRun, Array.getElem?_modify, h.runs i hi]

theorem push (h : e.Alike id f) (r : Run σ) {i : Nat} (hi : i ≠ id) :
    (e.runs.push r)[i]? = (f.runs.push r)[i]? := by
  rw [Array.getElem?_push, Array.getElem?_push, h.size, h.runs i hi]

theorem launch (h : e.Alike id f) (hid : id < e.queue.slots.size) (l : Launch) :
    (e.launch l).1 = (f.launch l).1 ∧ (e.launch l).2.Alike id (f.launch l).2 := by
  obtain ⟨number, queue⟩ := h.queue.openRun hid
  have fails (o : Outcome) (x : Failure) :
      (e.failLaunch o x).1 = (f.failLaunch o x).1 ∧
        (e.failLaunch o x).2.Alike id (f.failLaunch o x).2 := by
    refine ⟨rfl, { h with shown := ?_, size := ?_, runs := fun i hi => ?_, queue := ?_ }⟩
    · exact congrArg Shown.run number
    · simp [Engine.failLaunch, h.size]
    · simp only [Engine.failLaunch, ← h.payload, ← h.settings]
      exact h.push _ hi
    · simp only [Engine.failLaunch, number]
      exact queue.push _
  cases l with
  | noChannel c => exact fails _ _
  | noThread c turns late =>
    rw [e.launch_noThread, f.launch_noThread]
    exact fails _ _
  | works =>
    refine ⟨rfl, { h with current := ?_, shown := ?_, size := ?_, runs := fun i hi => ?_, queue := ?_ }⟩
    · exact congrArg some number
    · exact congrArg Shown.run number
    · simp [Engine.launch, h.size]
    · simp only [Engine.launch, ← h.payload, ← h.settings]
      exact h.push _ hi
    · exact queue

theorem silence (h : e.Alike id f) (j : Nat) : (e.silence j).Alike id (f.silence j) :=
  { h with
    shown := rfl
    leaked := congrArg (· + 1) h.leaked
    queue := h.queue.modifySlot (by intro _ _; rfl) j }

/-! ## What others do -/

theorem set (h : e.Alike id f) (j : Nat) {r r' : Run σ} {queue queue' : Queue} {world world' : ω}
    (hr : r = r') (hq : queue.Alike id queue') (hw : world = world') :
    { e with queue, runs := e.runs.setIfInBounds j r, world }.Alike id
      { f with queue := queue', runs := f.runs.setIfInBounds j r', world := world' } := by
  subst hr
  refine { h with size := ?_, runs := fun i hi => ?_, queue := hq, world := hw }
  · simp [h.size]
  · rw [Array.getElem?_setIfInBounds, Array.getElem?_setIfInBounds, h.size, h.runs i hi]

theorem step_worker_some (e : Engine ω σ) {r : Run σ} (hr : e.runs[j]? = some r) :
    e.step I (.worker j) =
      { e with
        queue := (Run.workerStep I j ⟨r, e.queue, e.world⟩).queue
        runs := e.runs.setIfInBounds j (Run.workerStep I j ⟨r, e.queue, e.world⟩).run
        world := (Run.workerStep I j ⟨r, e.queue, e.world⟩).world } := by
  simp [Engine.step, hr]

theorem step_pump_some (e : Engine ω σ) (g : Grant) {r : Run σ} (hr : e.runs[j]? = some r) :
    e.step I (.pump j g) =
      { e with
        queue := (r.pumpStep g j e.queue).2
        runs := e.runs.setIfInBounds j (r.pumpStep g j e.queue).1 } := by
  simp [Engine.step, hr]

/-- The worker or the pump of another run goes on. -/
theorem step (h : e.Alike id f) {a : Actor} (ha : a.run ≠ id) :
    (e.step I a).Alike id (f.step I a) := by
  cases a with
  | patience j | fault j => exact h.modifyRun _ j
  | worker j =>
    have runs := h.runs j ha
    cases hr : e.runs[j]? with
    | none =>
      rw [hr] at runs
      simp only [Engine.step, hr, ← runs]
      exact h
    | some r =>
      rw [hr] at runs
      have shared := h.queue.workerStep (I := I) (j := j) ha r e.world
      rw [step_worker_some e hr, step_worker_some f runs.symm, ← h.world]
      exact h.set j shared.run shared.queue shared.world
  | pump j g =>
    have runs := h.runs j ha
    cases hr : e.runs[j]? with
    | none =>
      rw [hr] at runs
      simp only [Engine.step, hr, ← runs]
      exact h
    | some r =>
      rw [hr] at runs
      obtain ⟨run, queue⟩ := h.queue.pumpStep (j := j) g r
      rw [step_pump_some e g hr, step_pump_some f g runs.symm]
      exact h.set j run queue h.world

/-! ## What the run itself does -/

theorem set_own (h : e.Alike id f) (r : Run σ) {queue : Queue} (world : ω)
    (hq : queue.Alike id f.queue) :
    { e with queue, runs := e.runs.setIfInBounds id r, world }.Alike id { f with world } := by
  refine { h with size := ?_, runs := fun i hi => ?_, queue := hq, world := rfl }
  · simp [h.size]
  · rw [Array.getElem?_setIfInBounds, if_neg (Ne.symm hi), h.runs i hi]

theorem modifyRun_own (h : e.Alike id f) (g : Run σ → Run σ) : (e.modifyRun id g).Alike id f := by
  refine { h with size := ?_, runs := fun i hi => ?_ }
  · simp [Engine.modifyRun, h.size]
  · simp [Engine.modifyRun, Array.getElem?_modify, h.runs i hi, Ne.symm hi]

/-- The worker or the pump of the disowned run goes on, and all there is of it is what its script
makes of the world. -/
theorem own (h : e.Alike id f) {a : Actor} (ha : a.run = id) (hid : id < e.queue.slots.size)
    (receiving : e.queue.receiving = true) :
    (e.step I a).Alike id { f with world := (e.step I a).world } := by
  have rest : e.Alike id { f with world := e.world } := { h with world := rfl }
  cases a with
  | patience j | fault j =>
    obtain rfl : j = id := ha
    exact rest.modifyRun_own _
  | worker j =>
    obtain rfl : j = id := ha
    cases hr : e.runs[j]? with
    | none =>
      simp only [Engine.step, hr]
      exact rest
    | some r =>
      obtain ⟨ms, ext, move⟩ := workerStep_move I (.other (.worker j)) r e.world hid receiving
      rw [step_worker_some e hr]
      exact h.set_own _ _ (h.queue.extends ext move.abandoned_eq)
  | pump j g =>
    obtain rfl : j = id := ha
    cases hr : e.runs[j]? with
    | none =>
      simp only [Engine.step, hr]
      exact rest
    | some r =>
      obtain ⟨ms, ext, move⟩ := pumpStep_move g (.other (.pump j g) : Label ω) r receiving
      rw [step_pump_some e g hr]
      exact h.set_own _ _ (h.queue.extends ext move.abandoned_eq)

end Alike
end Engine
end ScriptHost
