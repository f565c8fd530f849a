import ScriptHost.CommandLine.Job
import ScriptHost.Proofs.Control.Idle
import ScriptHost.Proofs.Control.Stops
import ScriptHost.Proofs.Ensemble.Settings
import ScriptHost.Shutdown

/-!
# Waiting for a worker by the clock

A shutdown looks at the worker from time to time until it has ended or the
deadline is reached; the other way to wait has no deadline to compute and ends
when the worker has ended or the time is over. Meanwhile everybody else goes on.

* `Engine.Settles`: what a wait is to come to.
* `Reached.attend_settles`: however often the worker is looked at, that is what
  the looks come to, at the latest with the first that is not before the
  deadline.
* `shutdown_settles`: both ways of waiting come to it, unless the clock cannot
  tell the deadline. Then the worker is out of the engine, and goes on.
-/
namespace ScriptHost

variable {ω σ : Type} {I : Interpreter ω σ}

namespace Engine

variable {e e' : Engine ω σ} {id : Nat}

/-- What a wait for the worker of the run `id` comes to: it has ended, or it is given up, stays
cancelled, is not heard any more and is counted. -/
inductive Settles (e : Engine ω σ) (id : Nat) : Except Failure Unit → Engine ω σ → Prop where
  | ended {e' : Engine ω σ} (gone : e'.isAlive id = false) (leaked : e'.leaked = e.leaked) :
    Settles e id (.ok ()) e'
  | abandoned {e' : Engine ω σ} (token : (e'.run id).token = true)
    (silent : (e'.queue.slot id).abandoned = true) (leaked : e'.leaked = e.leaked + 1) :
    Settles e id (.error (.joinTimeout e.settings.joinTimeout)) e'

theorem Settles.congr {f : Engine ω σ} {answer : Except Failure Unit} (h : f.Settles id answer e')
    (leaked : f.leaked = e.leaked) (settings : f.settings = e.settings) : e.Settles id answer e' := by
  cases h with
  | ended gone same => exact .ended gone (same.trans leaked)
  | abandoned token silent more =>
    rw [settings]
    exact .abandoned token silent (by rw [more, leaked])

theorem abandon_token (runs : id < e.runs.size) : ((e.abandon id).2.run id).token = true := by
  have cancelled : ((e.cancel id).silence id).run id = { e.run id with token := true } :=
    (Ensemble.run_cancel e id runs).trans (if_pos rfl)
  have size : id < ((e.cancel id).silence id).runs.size := by
    simpa [silence, cancel, modifyRun] using runs
  have aborted : (e.abandon id).2.run id = Run.abortPump { e.run id with token := true } := by
    rw [← cancelled]
    exact (Ensemble.run_modifyRun Run.abortPump id size).trans (if_pos rfl)
  rw [aborted]
  unfold Run.abortPump
  split <;> rfl

/-- A wait that is over has come to what it is to come to. -/
theorem finish_settles (runs : id < e.runs.size) (slots : id < e.queue.slots.size) :
    e.Settles id (e.finish id).1 (e.finish id).2 := by
  unfold finish
  cases alive : e.isAlive id with
  | false => exact .ended alive rfl
  | true =>
    have silent : (e.abandon id).2.queue.slot id = { e.queue.slot id with abandoned := true } :=
      Queue.slot_modifySlot_self e.queue _ slots
    have given : e.Settles id (.error (e.abandon id).1) (e.abandon id).2 :=
      .abandoned (abandon_token runs) (by rw [silent]) rfl
    exact given

/-- A look at the worker ends the wait, or finds the worker alive before the deadline. -/
theorem poll_cases (e : Engine ω σ) (id : Nat) (deadline now : Instant) :
    e.poll id deadline now = (some (e.finish id).1, (e.finish id).2) ∨
      e.poll id deadline now = (none, e) ∧ ¬ deadline ≤ now := by
  unfold poll finish
  split
  · split
    · exact .inl rfl
    · exact .inr ⟨rfl, ‹_›⟩
  · exact .inl rfl

/-- A stop leaves alone what a wait depends on. -/
theorem stop_rest (e : Engine ω σ) :
    e.stop.current = e.current ∧ e.stop.settings = e.settings ∧ e.stop.leaked = e.leaked ∧
      e.stop.queue = e.queue ∧ ∀ id, e.stop.isAlive id = e.isAlive id := by
  cases hr : e.isRunning with
  | false => simp [stop, hr]
  | true =>
    cases hc : e.current with
    | none => simp [stop, hr, hc]
    | some id =>
      have asked : e.stop = (e.cancel id).showRequest id := by simp [stop, hr, hc]
      rw [asked]
      exact ⟨hc, rfl, rfl, rfl, fun j =>
        (Ensemble.isAlive_showRequest _ id j).trans (Ensemble.isAlive_cancel _ id j)⟩

/-- What a shutdown finds: no worker, a worker and a deadline, or a worker and no deadline. -/
theorem shutdownAt_eq (e : Engine ω σ) (now : Instant) :
    e.shutdownAt now =
      (match e.current with
        | none => .nothing
        | some id =>
          if now.nanos + e.settings.joinTimeout.nanos < Instant.limit then
            .worker id ⟨now.nanos + e.settings.joinTimeout.nanos⟩
          else .overflow,
        e.beginShutdown.2) := by
  obtain ⟨current, settings, _⟩ := e.stop_rest
  simp only [shutdownAt, beginShutdown, takeWorker, current, Instant.after?]
  cases e.current with
  | none => rfl
  | some id =>
    dsimp only
    rw [settings]
    split
    · rename_i deadline h
      obtain ⟨fits, h⟩ := Option.ite_none_right_eq_some.mp h
      cases h
      rw [if_pos fits]
    · rename_i h
      rw [if_neg (by simpa using h)]

/-- The worker is out of the engine, and nothing else has come of it. -/
theorem beginShutdown_rest (e : Engine ω σ) :
    e.beginShutdown.2.current = none ∧ e.beginShutdown.2.settings = e.settings ∧
      e.beginShutdown.2.leaked = e.leaked ∧ e.beginShutdown.2.queue = e.queue ∧
      ∀ id, e.beginShutdown.2.isAlive id = e.isAlive id :=
  ⟨rfl, e.stop_rest.2⟩

end Engine

namespace Ensemble

variable {s t u : Ensemble ω σ} {l : Label ω} {ls : List (Label ω)} {id : Nat}
  {settings : Settings} {world : ω} {answer : Option (Except Failure Unit)} {deadline : Instant}

/-- The controller has taken the worker of the run `id` out, and waits for it. -/
def leaving (s : Ensemble ω σ) (id : Nat) : Ensemble ω σ :=
  { s with engine := s.engine.beginShutdown.2, call := .waiting id none }

/-- The steps of a shutdown lead there. -/
theorem exec_leaving_running (free : s.isFree = true) (current : s.engine.current = some id)
    (running : s.engine.isRunning = true) :
    exec I s [.shutdown, .goOn, .goOn] = some (s.leaving id) := by
  obtain ⟨-, rest⟩ := isFree_iff.mp free
  have stopped : s.engine.stop = (s.engine.cancel id).showRequest id := by
    simp [Engine.stop, running, current]
  have held : ((s.engine.cancel id).showRequest id).current = some id := current
  simp [exec, step, free, requestStop, running, current, rest, goOn, afterStop, await, leaving,
    Engine.beginShutdown, stopped, Engine.takeWorker, held]

/-- Whether or not the run is running. -/
theorem exec_leaving (free : s.isFree = true) (current : s.engine.current = some id) :
    ∃ ls, exec I s ls = some (s.leaving id) := by
  cases running : s.engine.isRunning with
  | false =>
    refine ⟨[.shutdown], ?_⟩
    have stopped : s.engine.stop = s.engine := by simp [Engine.stop, running]
    simp [exec, step, free, requestStop, running, current, afterStop, await, leaving,
      Engine.beginShutdown, stopped, Engine.takeWorker]
  | true => exact ⟨_, exec_leaving_running free current running⟩

/-- The worker is looked at at some moments, and before each look others go on. The answer is there
with the look that ends the wait. -/
def attend (I : Interpreter ω σ) (id : Nat) (deadline : Instant) (s : Ensemble ω σ) :
    List (List (Label ω) × Instant) → Option (Option (Except Failure Unit) × Ensemble ω σ)
  | [] => some (none, s)
  | (others, now) :: looks =>
    (exec I s others).bind fun s =>
      match s.engine.poll id deadline now with
      | (some answer, engine) => some (some answer, { s with engine, call := .idle })
      | (none, engine) => attend I id deadline { s with engine } looks

/-- While the controller waits, the others leave the call alone, launch nothing and count nothing. -/
theorem Reached.exec_waiting (reached : Reached I (fun _ => True) (initial settings world) s)
    {next : Option Launch} (call : s.call = .waiting id next)
    (others : ∀ l ∈ ls, l.isOfCall = false) (h : exec I s ls = some t) :
    t.call = .waiting id next ∧ t.engine.leaked = s.engine.leaked := by
  induction ls generalizing s with
  | nil =>
    cases h
    exact ⟨call, rfl⟩
  | cons l ls ih =>
    obtain ⟨s₁, step, h⟩ := Option.bind_eq_some_iff.mp h
    have apart := others l List.mem_cons_self
    have c := reached.ruled.conduct step
    have call₁ := (c.call_eq apart (by rw [call]; nofun)).1
    have leaked : s₁.engine.leaked = s.engine.leaked := by
      rw [c.leaked_eq, if_neg, Nat.add_zero]
      rw [timesOut_iff]
      rintro ⟨rfl, _⟩
      cases apart
    rw [← leaked]
    exact ih (reached.step trivial step) (call₁.trans call)
      (fun l hl => others l (List.mem_cons_of_mem _ hl)) h

/-- Whenever the wait is ended, it comes to what it is to come to. -/
theorem Reached.finish_settles (reached : Reached I (fun _ => True) (initial settings world) s)
    (call : s.call = .waiting id none) :
    s.engine.Settles id (s.engine.finish id).1 (s.engine.finish id).2 := by
  have size := reached.sound.holder id (by simp [holder, call, Call.held?])
  have slots := reached.sound.slots
  exact Engine.finish_settles (by omega) (by omega)

/-- The looks come to what the wait is to come to, or none of them was too late. -/
theorem Reached.attend_settles (reached : Reached I (fun _ => True) (initial settings world) s)
    (call : s.call = .waiting id none) {looks : List (List (Label ω) × Instant)}
    (others : ∀ x ∈ looks, ∀ l ∈ x.1, l.isOfCall = false)
    (h : attend I id deadline s looks = some (answer, u)) :
    (∀ a, answer = some a → s.engine.Settles id a u.engine) ∧
      (answer = none → ∀ x ∈ looks, ¬ deadline ≤ x.2) := by
  induction looks generalizing s with
  | nil =>
    cases h
    exact ⟨nofun, fun _ => nofun⟩
  | cons x looks ih =>
    obtain ⟨ls, now⟩ := x
    obtain ⟨t, run, h⟩ := Option.bind_eq_some_iff.mp h
    have reached' := reached.of_exec run
    obtain ⟨call', leaked⟩ := reached.exec_waiting call (others _ List.mem_cons_self) run
    have kept := exec_settings run
    rcases t.engine.poll_cases id deadline now with past | ⟨early, before⟩
    · simp only [past, Option.some.injEq, Prod.mk.injEq] at h
      obtain ⟨rfl, rfl⟩ := h
      refine ⟨?_, nofun⟩
      rintro _ ⟨⟩
      exact (reached'.finish_settles call').congr leaked kept
    · simp only [early] at h
      obtain ⟨settles, late⟩ := ih reached' call' (fun x hx => others x (List.mem_cons_of_mem _ hx)) h
      refine ⟨fun a ha => (settles a ha).congr leaked kept, fun none x hx => ?_⟩
      rcases List.mem_cons.mp hx with rfl | hx
      · exact before
      · exact late none x hx

/-- **How a shutdown ends.** Whatever the join timeout and whenever it is called, where no worker is
held there is nothing to wait for. Else both ways to wait begin in the same way. The one that has no
deadline to compute always settles. The one by the clock settles too if the clock can tell the
deadline, at the latest with the first look that is not before it. If the clock cannot tell it, the
worker is out of the engine and nothing else: it is as alive as before, heard as before, and not
counted. -/
theorem shutdown_settles {before : List (Label ω)}
    (h : exec I (initial settings world) before = some s) (free : s.isFree = true) (now : Instant) :
    (s.engine.current = none → (s.engine.shutdownAt now).1 = .nothing) ∧
    ∀ id, s.engine.current = some id →
      (s.engine.shutdownAt now).2 = (s.leaving id).engine ∧
      (∀ others u, (∀ l ∈ others, l.isOfCall = false) → exec I (s.leaving id) others = some u →
        s.engine.Settles id (u.engine.finish id).1 (u.engine.finish id).2) ∧
      (now.nanos + settings.joinTimeout.nanos < Instant.limit → ∃ deadline,
        (s.engine.shutdownAt now).1 = .worker id deadline ∧
        deadline.nanos = now.nanos + settings.joinTimeout.nanos ∧
        ∀ looks answer u, (∀ x ∈ looks, ∀ l ∈ x.1, l.isOfCall = false) →
          attend I id deadline (s.leaving id) looks = some (answer, u) →
          (∀ a, answer = some a → s.engine.Settles id a u.engine) ∧
            (answer = none → ∀ x ∈ looks, ¬ deadline ≤ x.2)) ∧
      (Instant.limit ≤ now.nanos + settings.joinTimeout.nanos →
        (s.engine.shutdownAt now).1 = .overflow ∧ (s.leaving id).engine.current = none ∧
          (s.leaving id).engine.leaked = s.engine.leaked ∧
          (s.leaving id).engine.queue = s.engine.queue ∧
          ∀ j, (s.leaving id).engine.isAlive j = s.engine.isAlive j) := by
  have reached := Reached.start.of_exec h
  have kept : s.engine.settings = settings := exec_settings h
  obtain ⟨gone, same, leaked, queue, alive⟩ := s.engine.beginShutdown_rest
  rw [s.engine.shutdownAt_eq]
  refine ⟨fun none => by rw [none], fun id current => ?_⟩
  obtain ⟨ls, leave⟩ := exec_leaving (I := I) free current
  have reached' := reached.of_exec leave
  rw [current, kept]
  refine ⟨rfl, fun others u apart run => ?_, fun fits => ⟨_, if_pos fits, rfl, ?_⟩,
    fun late => ⟨if_neg (Nat.not_lt.mpr late), gone, leaked, queue, alive⟩⟩
  · obtain ⟨call, leaked'⟩ := reached'.exec_waiting rfl apart run
    exact ((reached'.of_exec run).finish_settles call).congr (leaked'.trans leaked)
      ((exec_settings run).trans same)
  · intro looks answer u apart run
    obtain ⟨settles, late⟩ := reached'.attend_settles rfl apart run
    exact ⟨fun a ha => (settles a ha).congr leaked same, late⟩

/-- The worker of `launched` begins before the first look, and is given up with the second. -/
def twoLooks : List (List (Label (List Signal)) × Instant) :=
  [([.other (.worker 0)], ⟨5⟩), ([], ⟨10 * Duration.second + 3⟩)]

/-- The state behind them. -/
def workerGivenUp : Ensemble (List Signal) (List Signal) :=
  ((attend replay 0 ⟨10 * Duration.second + 3⟩ (launched.leaving 0) twoLooks).get
    (by decide +kernel)).2

theorem attend_twoLooks :
    attend replay 0 ⟨10 * Duration.second + 3⟩ (launched.leaving 0) twoLooks =
      some (some (.error (.joinTimeout (.ofParts 10 0))), workerGivenUp) := by
  have answer : ((attend replay 0 ⟨10 * Duration.second + 3⟩ (launched.leaving 0) twoLooks).get
      (by decide +kernel)).1 = some (.error (.joinTimeout (.ofParts 10 0))) := rfl
  rw [← answer, workerGivenUp, Option.some_get]

/-- The worker of `stopTaken` ends while it is waited for. -/
def joined : Ensemble (List Signal) (List Signal) := (stopTaken.leaving 0).act replay (.worker 0)

/-- A shutdown by the clock gives the worker up; one without a deadline finds that it has ended. -/
theorem shutdown_settles_launched :
    (launched.engine.shutdownAt ⟨3⟩).1 = .worker 0 ⟨10 * Duration.second + 3⟩ ∧
      launched.engine.Settles 0 (.error (.joinTimeout (.ofParts 10 0))) workerGivenUp.engine ∧
      stopTaken.engine.Settles 0 (.ok ()) joined.engine := by
  have others (l : Label (List Signal)) (hl : l ∈ [.other (.worker 0)]) : l.isOfCall = false := by
    rw [List.mem_singleton.mp hl]
    rfl
  obtain ⟨_, _, clock, _⟩ :=
    (shutdown_settles exec_launched (by decide +kernel) ⟨3⟩).2 0 (by decide +kernel)
  obtain ⟨_, blocking, _⟩ :=
    (shutdown_settles exec_runToStop (by decide +kernel) ⟨3⟩).2 0 (by decide +kernel)
  obtain ⟨deadline, told, nanos, settles⟩ := clock (by decide +kernel)
  obtain rfl : deadline = ⟨10 * Duration.second + 3⟩ := congrArg Instant.mk nanos
  have ended : joined.engine.isAlive 0 = false := by decide +kernel
  have finished : joined.engine.finish 0 = (.ok (), joined.engine) := by
    simp [Engine.finish, ended]
  have settled := blocking [.other (.worker 0)] joined others rfl
  rw [finished] at settled
  refine ⟨told, (settles twoLooks _ _ ?_ attend_twoLooks).1 _ rfl, settled⟩
  simpa [twoLooks] using others

/-- A join timeout of `10 ^ 19` seconds. -/
def longTimeout : Settings := { joinTimeout := ⟨10 ^ 19 * Duration.second⟩ }

/-- A run was launched under it. -/
def underLongTimeout : Ensemble (List Signal) (List Signal) :=
  (exec replay (initial longTimeout []) [.start .works]).get (by decide +kernel)

/-- A join timeout that the command line takes lets every shutdown fail, whatever the clock tells,
and the worker that it has let go of goes on without being counted or disowned. -/
theorem shutdown_settles_overflow :
    ((Seconds.read "1e19").toOption.map CommandLine.Job.settingsFor).map (·.toOption) =
        some (some longTimeout) ∧
      exec replay (initial longTimeout []) [.start .works] = some underLongTimeout ∧
      ∀ now, (underLongTimeout.engine.shutdownAt now).1 = .overflow ∧
        (underLongTimeout.engine.shutdownAt now).2.current = none ∧
        (underLongTimeout.engine.shutdownAt now).2.isAlive 0 = true ∧
        (underLongTimeout.engine.shutdownAt now).2.leaked = 0 ∧
        ((underLongTimeout.engine.shutdownAt now).2.queue.slot 0).abandoned = false := by
  refine ⟨by decide +kernel, (Option.some_get _).symm, fun now => ?_⟩
  have current : underLongTimeout.engine.current = some 0 := by decide +kernel
  have patience : underLongTimeout.engine.settings = longTimeout := by decide +kernel
  have late : ¬ now.nanos + longTimeout.joinTimeout.nanos < Instant.limit := by
    have : Instant.limit ≤ longTimeout.joinTimeout.nanos := by decide +kernel
    omega
  rw [Engine.shutdownAt_eq, current, patience]
  simp only [if_neg late]
  exact ⟨trivial, rfl, by decide +kernel, by decide +kernel, by decide +kernel⟩

end Ensemble
end ScriptHost
