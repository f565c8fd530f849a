import ScriptHost.Proofs.CommandLine.Showing
import ScriptHost.Proofs.Scenario.Solo

/-!
# The course of a command

A command that runs a script once lets its engine go on and looks from time to
time what has come of it. `Job.Course` says what can come of it in any order of
steps, while nobody interrupts it. Where the command stands, a run of the system
has led (`Attended`), and what it has shown is what was heard of its one run.

* `Course.attended`: so it is all along, unless the worker is given up.
-/
namespace ScriptHost

open Script (World)

variable {σ : Type} {I : Interpreter World σ} {P : Scenario World}

/-! ## Worlds -/

/-- Nothing was written past the output channel, and the program was not ended. -/
structure Script.World.Silent (w : World) : Prop where
  held : w.held = .empty
  out : w.out = .empty
  err : w.err = .empty
  exit : w.exit = none

namespace Script.World.Silent

variable {w : World}

theorem clear (h : w.Silent) : { w with out := .empty, err := .empty } = w := by
  obtain ⟨_, out, err, _⟩ := h
  cases w
  cases out
  cases err
  rfl

/-- Nothing is held back. -/
theorem flush (h : w.Silent) : w.flush = w := by
  obtain ⟨held, out, _, _⟩ := h
  cases w
  cases held
  cases out
  rfl

end Script.World.Silent

/-- The script and its finalizers write to its output channel only, and do not end the program. -/
def Scenario.Discreet (P : Scenario World) (I : Interpreter World σ) : Prop :=
  ∀ w, P.Sees I w → w.Silent

/-- Whoever goes on, the settings stay. -/
theorem Engine.step_settings {ω : Type} {J : Interpreter ω σ} (e : Engine ω σ) (a : Actor) :
    (e.step J a).settings = e.settings := by
  cases a <;> simp only [step] <;> split <;> rfl

namespace Log

theorem reporting_of_shape {x : Stage σ} {text : String} (h : shape x = .reporting () text) :
    ∃ s, x = .reporting s text := by
  cases x <;> cases h
  exact ⟨_, rfl⟩

/-- A worker that can write its error text logs nothing of weight. -/
theorem ofStep_light {left : Stage Unit} {r : Run σ}
    (reading : ∀ text, left = .reporting () text → r.channel.reading = true) :
    ∀ x ∈ ofStep left r, x.level = .debug := by
  cases left with
  | reporting _ text => simp [ofStep, reading text rfl]
  | _ => simp [ofStep]

end Log

/-- Where a command stands with its one run. -/
def Ensemble.Stands (s : Ensemble World σ) : CommandLine.Task → Prop
  | .following => s.call = .idle ∧ s.engine.current = some 0
  | .closing id _ code =>
    id = 0 ∧ s.call = .waiting 0 none ∧ ∃ o, .stopped o ∈ s.heard 0 ∧ code = o.exitCode
  | .restarting _ _ => False
  | .ended e =>
    s.engine.isAlive 0 = false ∧ s.pending = [] ∧ ∃ o, .stopped o ∈ s.heard 0 ∧ e = .code o.exitCode

/-- It stands where it did before a step by which nothing is heard. -/
theorem Ensemble.Stands.of_same {s s' : Ensemble World σ} {t : CommandLine.Task} (h : s.Stands t)
    (going : ∀ e, t ≠ .ended e) (call : s'.call = s.call) (current : s'.engine.current = s.engine.current)
    (heard : s'.heard 0 = s.heard 0) : s'.Stands t := by
  cases t with
  | following => exact ⟨call.trans h.1, current.trans h.2⟩
  | closing =>
    obtain ⟨rfl, waits, o, stopped, code⟩ := h
    exact ⟨rfl, call.trans waits, o, heard ▸ stopped, code⟩
  | restarting => exact h
  | ended e => exact absurd rfl (going e)

namespace CommandLine
namespace Job

variable {j j₀ j' : Job σ} {s : Ensemble World σ} {o : Outcome} {now : Instant}
  {mode : Console.Mode} {filter : Log.Filter}

/-! ## Steps of a command -/

/-- What is logged of a step of a worker. -/
def recordsOf (I : Interpreter World σ) (e : Engine World σ) (a : Actor) : List Log.Record :=
  match a with
  | .worker id =>
    match e.runs[id]?, (e.step I a).runs[id]? with
    | some r, some r' => Log.ofStep (Log.shape r.stage) r'
    | _, _ => []
  | _ => []

/-- A worker or a pump goes on, and the log hears of it. -/
def act (I : Interpreter World σ) (j : Job σ) (a : Actor) : Job σ :=
  (recordsOf I j.engine a).foldl log { j with engine := j.engine.step I a }

/-- The command deals with what has come. -/
def attend (I : Interpreter World σ) (j : Job σ) (now : Instant) : Job σ :=
  let j := j.collect
  match j.engine.world.exit with
  | some code => j.finish (.code (code % 256).toNat)
  | none => j.perform I now

/-- What can come of a command while nobody interrupts it: workers and pumps go on, the world changes
as the scenario allows, and the command takes some events or deals with all that has come. No worker's
patience ends, and no look at the channel of its run fails. -/
inductive Course (P : Scenario World) (I : Interpreter World σ) (j₀ : Job σ) : Job σ → Prop where
  | start : Course P I j₀ j₀
  | act {j : Job σ} (h : Course P I j₀ j) (going : j.ending? = none) (a : Actor)
    (smooth : Ensemble.Smooth (.other a : Label World)) : Course P I j₀ (j.act I a)
  | outside {j : Job σ} (h : Course P I j₀ j) (going : j.ending? = none) (w : World)
    (drift : P.drift j.engine.world w) : Course P I j₀ { j with engine.world := w }
  | follow {j : Job σ} (h : Course P I j₀ j) (following : j.task = .following) (now : Instant) (n : Nat) :
    Course P I j₀ (j.follow now n)
  | attend {j : Job σ} (h : Course P I j₀ j) (going : j.ending? = none) (now : Instant) :
    Course P I j₀ (j.attend I now)

/-! ## In a silent world -/

theorem collect_silent (h : j.engine.world.Silent) : j.collect = j := by
  unfold collect
  simp only [h.clear, h.out, h.err]
  rfl

theorem finish_silent (h : j.engine.world.Silent) (e : Ending) :
    j.finish e = { j with task := .ended e } := by
  unfold finish
  rw [h.flush]
  exact collect_silent (j := { j with task := .ended e }) h

theorem attend_silent (h : j.engine.world.Silent) (now : Instant) :
    j.attend I now = j.perform I now := by
  simp only [attend, collect_silent h, h.exit]

theorem finish_task (j : Job σ) (e : Ending) : (j.finish e).task = .ended e := by
  unfold finish collect
  dsimp only
  split <;> split <;> rfl

/-- A command that ran its script once prints nothing more. -/
theorem leave_once (once : j.watched = none) {code : Nat} : j.leave code = j.finish (.code code) := by
  simp only [leave, once]

theorem finish_leaked (j : Job σ) (e : Ending) : (j.finish e).engine.leaked = j.engine.leaked := by
  unfold finish collect
  dsimp only
  split <;> split <;> rfl

theorem fail_leaked (j : Job σ) (t : Trouble) : (j.fail t).engine.leaked = j.engine.leaked :=
  (finish_leaked _ _).trans (congrArg (·.engine.leaked) (shows_write j _).same)

/-! ## Where a command stands -/

/-- A run of the system has led to the engine of a command with one run, and what was heard of it was
shown. -/
structure Follows (P : Scenario World) (I : Interpreter World σ) (mode : Console.Mode)
    (filter : Log.Filter) (j : Job σ) (s : Ensemble World σ) : Prop where
  engine : s.engine = j.engine
  rest : s.taking = .resting
  solo : s.Solo P I
  once : j.watched = none
  /-- A worker waits for a while for its output to be taken. -/
  patient : j.engine.settings.drainTimeout.nanos ≠ 0
  displays : j.Displays mode filter (s.heard 0)

/-- And it stands there where the command does. -/
structure Attended (P : Scenario World) (I : Interpreter World σ) (mode : Console.Mode)
    (filter : Log.Filter) (j : Job σ) (s : Ensemble World σ) : Prop extends Follows P I mode filter j s where
  stands : s.Stands j.task

/-- The end has come otherwise: a worker was given up, or the clock could not tell a deadline. -/
inductive Lost (j : Job σ) : Prop where
  | leaked (e : Ending) (ended : j.task = .ended e) (leaked : j.engine.leaked ≠ 0)
  | broken (message : String) (ended : j.task = .ended (.broken message))

theorem Lost.ended (h : j.Lost) : j.ending? ≠ none := by
  rcases h with ⟨e, h, -⟩ | ⟨_, h⟩ <;> simp [ending?, h]

namespace Follows

theorem silent (h : j.Follows P I mode filter s) (discreet : P.Discreet I) : j.engine.world.Silent :=
  h.engine ▸ discreet _ h.solo.sees

/-- Something is shown that is not of the run. -/
theorem quiet (h : j.Follows P I mode filter s) (hs : Shows j j' [] []) : j'.Follows P I mode filter s where
  engine := by rw [h.engine, hs.same]
  rest := h.rest
  solo := h.solo
  once := by rw [hs.same, ← h.once]
  patient := by
    rw [hs.same]
    exact h.patient
  displays := h.displays.quiet hs

/-- The next event is taken, heard and shown, if one is queued. -/
theorem takeEvent (h : j.Follows P I mode filter s) (listens : s.call.listens = true) :
    ∃ s', j.takeEvent.2.Follows P I mode filter s' ∧
      s'.heard 0 = s.heard 0 ++ j.takeEvent.1.toList ∧ s'.call = s.call ∧
      s'.engine.current = s.engine.current := by
  obtain ⟨s', same, solo, heard⟩ := h.solo.receive h.rest listens
  have engine : s'.engine = { s.engine with queue := s.engine.queue.receive.2 } :=
    congrArg (·.engine) same
  rw [h.engine] at heard engine
  have shows : Shows { j with engine.queue := j.engine.queue.receive.2 } j.takeEvent.2
      (j.takeEvent.1.toList.flatMap (Console.outBytes j.mode))
      (j.takeEvent.1.toList.flatMap (Console.errBytes j.mode)) :=
    shows_print _ j.engine.queue.receive.1.toList
  have displays : Displays { j with engine.queue := j.engine.queue.receive.2 } mode filter (s.heard 0) :=
    h.displays.of_shown rfl rfl rfl
  refine ⟨s', ⟨?_, by rw [same]; exact h.rest, solo, ?_, ?_, ?_⟩, heard, by rw [same], ?_⟩
  · rw [engine, shows.same]
  · rw [shows.same]
    exact h.once
  · rw [shows.same]
    exact h.patient
  · rw [heard]
    exact displays.more shows
  · rw [engine, h.engine]

/-- The program ends in a silent world. -/
theorem finish (h : j.Follows P I mode filter s) (discreet : P.Discreet I) (e : Ending) :
    (j.finish e).Follows P I mode filter s := by
  rw [finish_silent (h.silent discreet)]
  exact ⟨h.engine, h.rest, h.solo, h.once, h.patient, h.displays.of_shown rfl rfl rfl⟩

/-- The stop is heard: the worker is waited for, unless the clock cannot tell until when. -/
theorem close (h : j.Follows P I mode filter s) (call : s.call = .idle) (current : s.engine.current = some 0)
    (stopped : .stopped o ∈ s.heard 0) (now : Instant) :
    (∃ s', (j.close now o.exitCode).Attended P I mode filter s') ∨ (j.close now o.exitCode).Lost := by
  obtain ⟨still, solo⟩ := h.solo.leave (Ensemble.isFree_iff.mpr ⟨call, h.rest⟩) current stopped
  rw [h.engine] at still current
  have unlogged : j.logStop = j := by simp [logStop, still]
  have unstopped : j.engine.stop = j.engine := by simp [Engine.stop, still]
  cases hd : now.after? j.engine.settings.joinTimeout with
  | some deadline =>
    have closes : j.close now o.exitCode =
        { j with engine.current := none, task := .closing 0 deadline o.exitCode } := by
      simp [Job.close, unlogged, Engine.shutdownAt, Engine.beginShutdown, unstopped, Engine.takeWorker,
        current, hd]
    rw [closes]
    have engine : { s.engine with current := none } = { j.engine with current := none } := by rw [h.engine]
    exact .inl ⟨{ s with engine.current := none, call := .waiting 0 none }, ⟨engine, h.rest, solo, h.once,
      h.patient, h.displays.of_shown rfl rfl rfl⟩, rfl, rfl, o, stopped, rfl⟩
  | none =>
    have closes : j.close now o.exitCode =
        ({ j with engine.current := none }).finish (.broken overflowText) := by
      simp [Job.close, unlogged, Engine.shutdownAt, Engine.beginShutdown, unstopped, Engine.takeWorker,
        current, hd]
    rw [closes]
    exact .inr (.broken overflowText (finish_task _ _))

end Follows

theorem takeEvent_task (j : Job σ) : j.takeEvent.2.task = j.task :=
  congrArg (·.task) (shows_print { j with engine.queue := j.engine.queue.receive.2 }
    j.engine.queue.receive.1.toList).same

theorem going_iff : j.ending? = none ↔ ∀ e, j.task ≠ .ended e := by
  unfold ending?
  cases j.task <;> simp

namespace Attended

section
variable (h : j.Attended P I mode filter s)
include h

/-- What is logged of a worker is of no weight. -/
theorem light {a : Actor} (smooth : Ensemble.Smooth (.other a : Label World)) :
    ∀ x ∈ recordsOf I j.engine a, x.level = .debug := by
  unfold recordsOf
  split
  · rename_i id
    split
    · rename_i r r' here here'
      obtain rfl : id = 0 := by
        have := (Array.getElem?_eq_some_iff.mp here).1
        rw [← h.engine, h.solo.size] at this
        omega
      refine Log.ofStep_light fun text shape => ?_
      obtain ⟨x, reporting⟩ := Log.reporting_of_shape shape
      have before : s.engine.run 0 = r := Ensemble.run_of_some (h.engine ▸ here)
      have after : (s.act I (.worker 0)).engine.run 0 = r' := by
        rw [← h.engine] at here'
        exact Ensemble.run_of_some here'
      rw [← after]
      exact (h.solo.reading_reported (before ▸ reporting) smooth).2
    · nofun
  · nofun

/-- A worker or a pump goes on. -/
theorem act (going : j.ending? = none) {a : Actor} (smooth : Ensemble.Smooth (.other a : Label World)) :
    (j.act I a).Attended P I mode filter (s.act I a) := by
  obtain ⟨solo, current, heard⟩ := h.solo.act smooth
  have shows : Shows { j with engine := j.engine.step I a } (j.act I a) [] [] :=
    shows_logs _ (h.light smooth)
  have follows : Follows P I mode filter { j with engine := j.engine.step I a } (s.act I a) :=
    { engine := by rw [← h.engine]; rfl
      rest := h.rest
      solo := solo
      once := h.once
      patient := by
        dsimp only
        rw [Engine.step_settings]
        exact h.patient
      displays := by
        rw [heard]
        exact h.displays.of_shown rfl rfl rfl }
  refine ⟨follows.quiet shows, ?_⟩
  rw [shows.same]
  exact h.stands.of_same (going_iff.mp going) rfl current heard

/-- The world changes. -/
theorem outside {w : World} (drift : P.drift j.engine.world w) :
    ({ j with engine.world := w }).Attended P I mode filter { s with engine.world := w } where
  engine := by rw [h.engine]
  rest := h.rest
  solo := h.solo.outside (h.engine ▸ drift)
  once := h.once
  patient := h.patient
  displays := h.displays.of_shown rfl rfl rfl
  stands := h.stands

omit h in
/-- The command takes some events and prints them, and begins to close with the stop. -/
theorem follow (h : j.Attended P I mode filter s) (following : j.task = .following) (now : Instant)
    (n : Nat) : (∃ s', (j.follow now n).Attended P I mode filter s') ∨ (j.follow now n).Lost := by
  induction n generalizing j s with
  | zero => exact .inl ⟨s, h⟩
  | succ n ih =>
    obtain ⟨idle, own⟩ : s.call = .idle ∧ s.engine.current = some 0 := by
      have stands := h.stands
      rwa [following] at stands
    obtain ⟨s', follows, heard, call, current⟩ := h.takeEvent (by rw [idle]; rfl)
    have task := (takeEvent_task j).trans following
    rw [idle] at call
    rw [own] at current
    have stands : s'.Stands j.takeEvent.2.task := by
      rw [task]
      exact ⟨call, current⟩
    unfold Job.follow
    rcases hx : j.takeEvent with ⟨event, j'⟩
    rw [hx] at follows heard task stands
    dsimp only at follows heard task stands
    match event with
    | none => exact .inl ⟨s', follows, stands⟩
    | some (.stopped o) =>
      have stopped : .stopped o ∈ s'.heard 0 := by
        rw [heard]
        exact List.mem_append_right _ (List.mem_singleton_self _)
      exact follows.close call current stopped now
    | some .started | some (.output _) | some (.currentLine _) => exact ih ⟨follows, stands⟩ task

/-- The command looks whether the worker has ended. -/
theorem wait (discreet : P.Discreet I) {deadline : Instant} (closing : j.task = .closing 0 deadline o.exitCode)
    (now : Instant) : (∃ s', (j.perform I now).Attended P I mode filter s') ∨ (j.perform I now).Lost := by
  obtain ⟨-, waits, o', stopped, code⟩ : 0 = 0 ∧ s.call = .waiting 0 none ∧
      ∃ o', .stopped o' ∈ s.heard 0 ∧ o.exitCode = o'.exitCode := by
    have stands := h.stands
    rwa [closing] at stands
  unfold perform Engine.poll
  rw [closing]
  dsimp only
  rw [← closing]
  cases alive : j.engine.isAlive 0 with
  | true =>
    by_cases late : deadline ≤ now
    · simp only [late, if_true]
      refine .inr (.leaked _ (finish_task _ _) ?_)
      rw [fail_leaked, logLeak, log_same]
      exact Nat.succ_ne_zero _
    · simp only [late, if_true, if_false]
      exact .inl ⟨s, h⟩
  | false =>
    simp only [Bool.false_eq_true, if_false]
    rw [leave_once h.once]
    refine .inl ⟨s, h.finish discreet _, ?_⟩
    rw [finish_task]
    exact ⟨h.engine ▸ alive, h.solo.taken stopped, o', stopped, by rw [code]⟩

/-- The command deals with what has come. -/
theorem attend (discreet : P.Discreet I) (going : j.ending? = none) (now : Instant) :
    (∃ s', (j.attend I now).Attended P I mode filter s') ∨ (j.attend I now).Lost := by
  rw [attend_silent (h.silent discreet)]
  cases ht : j.task with
  | following =>
    simp only [perform, ht, h.once]
    exact h.follow ht now _
  | closing id deadline code =>
    obtain ⟨rfl, -, o, -, rfl⟩ : id = 0 ∧ s.call = .waiting 0 none ∧
        ∃ o, .stopped o ∈ s.heard 0 ∧ code = o.exitCode := by
      have stands := h.stands
      rwa [ht] at stands
    exact h.wait discreet ht now
  | restarting =>
    have stands := h.stands
    rw [ht] at stands
    exact stands.elim
  | ended e => exact absurd ht (going_iff.mp going e)

end
end Attended

/-- **A command follows its run.** Whatever comes of a command while nobody interrupts it, a run of the
system leads to where it stands, and what was heard was shown; or a worker was given up, or the clock
could not tell a deadline, and it has ended. -/
theorem Course.attended (h : Course P I j₀ j) (discreet : P.Discreet I) (begun : j₀.Attended P I mode filter s) :
    (∃ s', j.Attended P I mode filter s') ∨ j.Lost := by
  have on {j : Job σ} (ih : (∃ s', j.Attended P I mode filter s') ∨ j.Lost) (going : j.ending? = none) :
      ∃ s', j.Attended P I mode filter s' := ih.resolve_right fun lost => lost.ended going
  induction h with
  | start => exact .inl ⟨s, begun⟩
  | act _ going a smooth ih =>
    obtain ⟨s', attended⟩ := on ih going
    exact .inl ⟨_, attended.act going smooth⟩
  | outside _ going w drift ih =>
    obtain ⟨s', attended⟩ := on ih going
    exact .inl ⟨_, attended.outside drift⟩
  | follow _ following now n ih =>
    obtain ⟨s', attended⟩ := on ih (going_iff.mpr fun e ended => by cases following.symm.trans ended)
    exact attended.follow following now n
  | attend _ going now ih =>
    obtain ⟨s', attended⟩ := on ih going
    exact attended.attend discreet going now

end Job
end CommandLine
end ScriptHost
