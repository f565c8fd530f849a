import ScriptHost.Proofs.CommandLine.Course

/-!
# The beginning of a command

A command that begins to run its script once has read the script, knows its
settings, and has launched the one run there is on a new engine.

* `start_of_following`: the job of such a command.
* `begun_attended`: the state of the system in which it stands.
-/
namespace ScriptHost

open Script (World)

variable {ω σ : Type} {I : Interpreter World σ} {P : Scenario World}

/-- An engine on which a payload was set and nothing was ever started. -/
def Engine.prepared (settings : Settings) (payload : Payload) (world : ω) : Engine ω σ :=
  { settings, payload, world }

/-- On a new engine a payload is set and launched. -/
theorem Ensemble.exec_prepare (I : Interpreter ω σ) (settings : Settings) (payload : Payload) (world : ω) :
    exec I (initial settings world)
        [.setScript payload.source, .setSearchDirs payload.searchDirs, .start .works] =
      some (launch { engine := Engine.prepared settings payload world } .works) := rfl

theorem Engine.startAfter_prepared (I : Interpreter ω σ) (settings : Settings) (payload : Payload)
    (world : ω) : (prepared settings payload world).startAfter I .works =
      (prepared settings payload world).launch .works := rfl

namespace CommandLine
namespace Job

variable {script : String} {included : List String} {json lines verbose : Bool}
  {timeout : Option Seconds} {w : World} {mode : Console.Mode} {filter : Log.Filter}
  {settings : Settings} {payload : Payload} {source : ByteArray}

theorem fail_task (j : Job σ) (t : Trouble) : (j.fail t).task = .ended (.code troubleCode) :=
  finish_task _ _

/-- The script is read on a new engine. -/
theorem load_new (read : w.files.read script = .ok source) :
    load ({ engine := { world := w }, mode, filter } : Job σ) script =
      (.ok (), { engine := Engine.prepared {} { source } w, mode, filter }) := by
  simp only [load, read]
  rfl

theorem launch_prepared {j : Job σ} (prepared : j.engine = Engine.prepared settings payload w) :
    launch I j = (.ok (), { j with
      engine := ((Engine.prepared settings payload w).launch .works).2 }.log Log.spawned) := by
  unfold launch
  rw [prepared, Engine.startAfter_prepared]
  rfl

/-- The job of a command that runs a script with some payload: the log tells where modules are searched,
and that a worker was made. -/
def begun (mode : Console.Mode) (filter : Log.Filter) (settings : Settings) (payload : Payload) (w : World) :
    Job σ :=
  { ({ engine := Engine.prepared settings payload w, mode, filter } : Job σ).log
      ⟨.debug, .running, "search path: " ++ payload.pathPrefix⟩ with
    engine := ((Engine.prepared settings payload w).launch .works).2 }.log Log.spawned

theorem beginRun_ready (included : List String) (there : w.files.hasEntry script = true)
    (read : w.files.read script = .ok source)
    (fit : settingsFor timeout = .ok settings) :
    beginRun I { engine := { world := w }, mode, filter } script included timeout =
      begun mode filter settings { source, searchDirs := searchDirs w script included } w := by
  unfold beginRun
  dsimp only
  rw [there, load_new read]
  dsimp only
  rw [fit]
  dsimp only
  rw [launch_prepared (log_engine _ _)]
  rfl

/-- No option makes a worker impatient. -/
theorem patient_of_fit (fit : settingsFor timeout = .ok settings) :
    settings.drainTimeout.nanos ≠ 0 := by
  unfold settingsFor at fit
  split at fit
  · cases fit
    decide
  · split at fit
    · cases fit
      dsimp only
      decide
    · cases fit

/-- A command that follows its script from the beginning has launched it. -/
theorem start_of_following
    (h : (start I ⟨verbose, .run script included json lines timeout⟩ w).task = .following) :
    ∃ settings payload, settings.drainTimeout.nanos ≠ 0 ∧
      start I ⟨verbose, .run script included json lines timeout⟩ w =
        begun (if json then .json else .text lines) (filterFor w verbose) settings payload w := by
  have failed {j : Job σ} {t : Trouble} : (j.fail t).task ≠ .following := by
    rw [fail_task]
    nofun
  obtain ⟨source, settings, there, read, fit⟩ : ∃ source settings, w.files.hasEntry script = true ∧
      w.files.read script = .ok source ∧ settingsFor timeout = .ok settings := by
    unfold start beginRun at h
    dsimp only at h
    cases there : w.files.hasEntry script with
    | false =>
      rw [there] at h
      exact absurd h failed
    | true =>
      rw [there] at h
      cases read : w.files.read script with
      | error e =>
        simp only [load, read] at h
        exact absurd h failed
      | ok source =>
        rw [load_new read] at h
        dsimp only at h
        cases fit : settingsFor timeout with
        | error t =>
          rw [fit] at h
          exact absurd h failed
        | ok settings => exact ⟨source, settings, rfl, rfl, rfl⟩
  exact ⟨settings, _, patient_of_fit fit, beginRun_ready included there read fit⟩

/-- A command that has begun has shown nothing of its run. -/
theorem begun_displays : (begun mode filter settings payload w : Job σ).Displays mode filter [] := by
  have first : Displays ({ engine := Engine.prepared settings payload w, mode, filter } : Job σ) mode filter [] :=
    ⟨rfl, rfl, rfl, rfl, nofun⟩
  unfold begun
  refine Displays.log ?_ rfl
  exact (first.log (r := ⟨.debug, .running, "search path: " ++ payload.pathPrefix⟩) rfl).of_shown rfl rfl rfl

/-- A command that has begun stands where its run was launched. -/
theorem begun_attended (ready : P.start w) (patient : settings.drainTimeout.nanos ≠ 0)
    (own : payload = P.payload) (named : settings.chunkName = P.chunkName) :
    (begun mode filter settings payload w : Job σ).Attended P I mode filter
      (Ensemble.launch { engine := Engine.prepared settings payload w } .works) where
  engine := by
    rw [begun, log_engine]
    rfl
  rest := rfl
  solo :=
    { led := ⟨settings, w, _, .of_alone ready (Ensemble.exec_prepare I settings payload w) rfl, by
        simp [Ensemble.Smooth]⟩
      size := rfl
      launched := List.mem_cons_self
      unasked := ⟨own, named, rfl, rfl⟩ }
  once := by
    rw [begun, log_same, log_same]
  patient := by
    rw [begun, log_engine]
    exact patient
  displays := begun_displays
  stands := by
    rw [begun, log_same, log_same]
    exact ⟨rfl, rfl⟩

end Job
end CommandLine
end ScriptHost
