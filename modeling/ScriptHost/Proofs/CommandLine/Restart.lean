import ScriptHost.Proofs.CommandLine.Modes
import ScriptHost.Proofs.Control.Deadline
import ScriptHost.Proofs.Control.Restart

/-!
# The restart of a job

A command that watches its script restarts when the script has changed. Between its
steps the system goes on, and so it restarts as a controller does (`Relaunches`).

* `Job.noticed_shown`, `Job.relaunch_shown`: what it takes it shows before its
  notice, and what comes of the next launch behind.
* `Job.restart_course`: a job restarts as `Ensemble.Restarts` says.
* `Job.restart_drains_overtaken`: it can show the notice, launch, and print the stop
  of the run before after that.
-/
namespace ScriptHost

open Script (World)

variable {σ : Type} {I : Interpreter World σ} {s t u : Ensemble World σ} {ls : List (Label World)}

/-- Nothing is heard while others go on. -/
theorem Ensemble.heard_of_foreign (own : ∀ l ∈ ls, l.isForeign = true) (run : exec I s ls = some u) :
    Note.heard u.log = Note.heard s.log := by
  induction ls generalizing s with
  | nil =>
    cases run
    rfl
  | cons l ls ih =>
    obtain ⟨s₁, step, run⟩ := Option.bind_eq_some_iff.mp run
    have silent : Note.heard s₁.log = Note.heard s.log := by
      have foreign := own l List.mem_cons_self
      cases l with
      | other a =>
        cases step
        exact heard_act a
      | dropPump id =>
        simp only [Ensemble.step, Option.ite_none_right_eq_some, Option.some.injEq] at step
        obtain ⟨_, rfl⟩ := step
        rfl
      | outside w =>
        cases step
        rfl
      | _ => cases foreign
    exact (ih (fun l hl => own l (List.mem_cons_of_mem _ hl)) run).trans silent

namespace CommandLine
namespace Job

variable {j : Job σ} {w : Watched} {id : Nat} {deadline now : Instant}

/-! ## What is shown stays -/

theorem put_unless_shown (c : Prop) [Decidable c] (j : Job σ) (p : Piece) :
    j.shown <:+ (if c then j else j.put p).shown := by
  split
  · exact List.suffix_rfl
  · exact List.suffix_cons _ _

theorem write_shown (j : Job σ) (x : Console.Written) : j.shown <:+ (j.write x).shown :=
  (put_unless_shown _ _ _).trans (put_unless_shown _ _ _)

theorem collect_shown (j : Job σ) : j.shown <:+ j.collect.shown := by
  unfold collect
  dsimp only
  refine List.IsSuffix.trans ?_ (put_unless_shown _ _ _)
  split
  · exact List.suffix_rfl
  · exact List.suffix_cons _ _

theorem log_shown (j : Job σ) (r : Log.Record) : j.shown <:+ (j.log r).shown := by
  unfold log
  split
  · exact List.suffix_cons _ _
  · exact List.suffix_rfl

theorem logs_shown (rs : List Log.Record) (j : Job σ) : j.shown <:+ (rs.foldl log j).shown := by
  induction rs generalizing j with
  | nil => exact List.suffix_rfl
  | cons r rs ih => exact (log_shown j r).trans (ih (j.log r))

/-- What was shown before a round is shown behind it. -/
theorem round_shown (I : Interpreter World σ) (j : Job σ) :
    j.shown <:+ (j.round I).collect.shown := by
  have logged : j.shown <:+ (j.round I).shown := by
    unfold round
    dsimp only
    exact logs_shown _ { j with engine := j.engine.round I }
  exact logged.trans (collect_shown _)

/-! ## The notice -/

/-- The notice of a restart. -/
def announce (j : Job σ) (w : Watched) : Job σ :=
  if j.isJson then j.log ⟨.debug, .watching, "file changed, re-running"⟩
  else
    let j := if w.clear then j.write { out := clearScreen } else j
    j.note (Console.paint Console.yellow "File changed, re-running...")

/-- The job behind the notice: what was queued is taken and printed. -/
def noticed (j : Job σ) (w : Watched) : Job σ := { j.takeEvents.2 with task := .following }.announce w

theorem announce_shown (j : Job σ) (w : Watched) : j.shown <:+ (j.announce w).shown := by
  unfold announce
  split
  · exact log_shown _ _
  · dsimp only
    split
    · exact (write_shown _ _).trans (write_shown _ _)
    · exact write_shown _ _

/-- What was taken is shown before the notice. -/
theorem noticed_shown (j : Job σ) (w : Watched) : j.takeEvents.2.shown <:+ (j.noticed w).shown :=
  announce_shown { j.takeEvents.2 with task := .following } w

theorem loadAndLaunch_shown (I : Interpreter World σ) (j : Job σ) (path : String) :
    j.shown <:+ (j.loadAndLaunch I path).2.shown := by
  have launched (j : Job σ) : j.shown <:+ (j.launch I).2.shown := by
    have logged (engine : Engine World σ) (r : Log.Record) :
        j.shown <:+ (log { j with engine } r).shown := log_shown { j with engine } r
    unfold launch
    split <;> exact logged _ _
  have loaded : (j.load path).2.shown = j.shown := by
    unfold load
    split
    · rfl
    · split <;> rfl
  unfold loadAndLaunch
  rcases hx : j.load path with ⟨_ | _, j'⟩ <;> rw [hx] at loaded
  · exact loaded ▸ List.suffix_rfl
  · exact loaded ▸ launched j'

/-- What comes of the next launch is shown behind the notice. -/
theorem relaunch_shown (I : Interpreter World σ) (j : Job σ) (w : Watched) :
    (j.noticed w).shown <:+ (j.relaunch I w).shown := by
  have launched := loadAndLaunch_shown I (j.noticed w) w.path
  unfold relaunch
  dsimp only
  split <;> rename_i hx
  all_goals
    have hx : (j.noticed w).loadAndLaunch I w.path = _ := hx
    rw [hx] at launched
  · exact launched
  · exact launched.trans (write_shown _ _)

/-! ## The course of a restart -/

open Ensemble in
/-- A restart of the system leads from `s` to where the job has taken all that is queued. -/
def Relaunches (I : Interpreter World σ) (s : Ensemble World σ) (j : Job σ) : Prop :=
  ∃ ls t, s.Restarts I ls t ∧ t.engine = j.takeEvents.2.engine ∧
    Note.heard t.log = Note.heard s.log ++ j.takeEvents.1

theorem takeEvents_engine (j : Job σ) :
    j.takeEvents.2.engine = { j.engine with queue := j.engine.queue.drain.2 } :=
  congrArg (·.engine)
    (shows_print { j with engine.queue := j.engine.queue.drain.2 } j.engine.queue.drain.1).same

open Ensemble in
/-- To take all that is queued at one go is to drain. -/
theorem drains_takeEvents (same : s.engine = j.engine) (idle : s.call = .idle)
    (rest : s.taking = .resting) :
    ∃ ls t, s.Drains I ls t ∧ t.engine = j.takeEvents.2.engine ∧
      Note.heard t.log = Note.heard s.log ++ j.takeEvents.1 := by
  obtain ⟨e, call, taking, log⟩ := s
  obtain rfl : call = .idle := idle
  obtain rfl : taking = .resting := rest
  obtain rfl : e = j.engine := same
  obtain ⟨ns, ⟨n, run⟩, heard⟩ := takes_drain (I := I) (c := .idle) rfl j.engine log
  refine ⟨_, _, ⟨run, fun l hl => .inl (List.mem_replicate.mp hl).2, ?_⟩, ?_, ?_⟩
  · exact take_of_empty rfl (j.engine.queue.drain_rest 0).1
  · rw [takeEvents_engine]
  · rw [Note.heard_append, heard]
    rfl

theorem relaunches_of_still (same : s.engine = j.engine) (free : s.isFree = true)
    (still : j.engine.isRunning = false) : Relaunches I s j := by
  obtain ⟨idle, rest⟩ := Ensemble.isFree_iff.mp free
  obtain ⟨ls, t, drains, behind⟩ := drains_takeEvents (I := I) same idle rest
  exact ⟨ls, t, .still free (same ▸ still) drains, behind⟩

theorem relaunches_of_ended (free : s.isFree = true) (current : s.engine.current = some id)
    (running : s.engine.isRunning = true) (own : ∀ l ∈ ls, l.isForeign = true)
    (run : Ensemble.exec I (s.leaving id) ls = some u) (same : u.engine = j.engine)
    (ended : j.engine.isAlive id = false) : Relaunches I s j := by
  obtain ⟨call, taking⟩ := Ensemble.exec_still own run
  have rest : u.taking = .resting := taking.trans (Ensemble.isFree_iff.mp free).2
  have settled : u.step I .goOn = some { u with call := .idle } := by
    have call : u.call = .waiting id none := call
    rw [← same] at ended
    simp [Ensemble.step, rest, Ensemble.goOn, call, ended, Ensemble.proceed]
  have shut : Ensemble.exec I s (.shutdown :: ([.goOn, .goOn] ++ (ls ++ [.goOn]))) =
      some { u with call := .idle } := by
    have begun := Ensemble.exec_leaving_running (I := I) free current running
    rw [← List.cons_append, ← List.append_assoc]
    refine Ensemble.exec_snoc ?_ settled
    rw [Ensemble.exec_append, begun]
    exact run
  obtain ⟨ls', t, drains, engine, heard⟩ :=
    drains_takeEvents (I := I) (s := { u with call := .idle }) same rfl rest
  -- the job asks and shuts down with one step, so nothing comes between
  have first : Ensemble.exec I s [] = some s := rfl
  refine ⟨_, t, .running running first (fun _ h => absurd h List.not_mem_nil) shut ?_ rfl drains, engine, ?_⟩
  · intro l hl
    simp only [List.mem_append, List.mem_cons, List.not_mem_nil, or_false] at hl
    rcases hl with (rfl | rfl) | hl | rfl
    · exact .inl rfl
    · exact .inl rfl
    · exact .inr (.inr (own l hl))
    · exact .inl rfl
  · rw [heard, Ensemble.heard_of_foreign own run]
    rfl

/-- A restart that waits has taken out the worker of the running run. -/
theorem restart_waits (running : j.engine.isRunning = true)
    (task : (j.restart I now w).task = .restarting id deadline) :
    j.engine.current = some id ∧ (j.restart I now w).engine = j.engine.beginShutdown.2 := by
  have logged : j.logStop.engine = j.engine := by
    unfold logStop
    rw [if_pos running, log_engine]
  obtain ⟨held, current⟩ : ∃ held, j.engine.current = some held := by
    unfold Engine.isRunning at running
    split at running
    · exact ⟨_, ‹_›⟩
    · cases running
  have told := j.logStop.engine.shutdownAt_eq now
  rw [logged, current] at told
  unfold restart at task ⊢
  rw [if_pos running] at task ⊢
  dsimp only at told task ⊢
  by_cases fits : now.nanos + j.engine.settings.joinTimeout.nanos < Instant.limit
  · rw [logged, told, if_pos fits] at task ⊢
    cases task
    exact ⟨current, rfl⟩
  · rw [logged, told, if_neg fits] at task
    cases (finish_task _ _).symm.trans task

/-- **A job restarts in this way.** Where nothing is running it takes what is queued, shows its notice
and launches at once. Else it shuts the run down, and does so when it finds that the worker has ended,
whatever the others have done meanwhile. -/
theorem restart_course (same : s.engine = j.engine) (free : s.isFree = true) :
    (j.engine.isRunning = false → j.restart I now w = j.relaunch I w ∧ Relaunches I s j) ∧
    (j.engine.isRunning = true → (j.restart I now w).task = .restarting id deadline →
      (j.restart I now w).engine = (s.leaving id).engine ∧
      ∀ others u j' later, (∀ l ∈ others, l.isForeign = true) →
        Ensemble.exec I (s.leaving id) others = some u → u.engine = j'.engine →
        j'.task = .restarting id deadline → j'.watched = some w → j'.engine.isAlive id = false →
        j'.perform I later = j'.relaunch I w ∧ Relaunches I s j') := by
  refine ⟨fun still => ⟨by simp [restart, still], relaunches_of_still same free still⟩,
    fun running task => ?_⟩
  obtain ⟨current, engine⟩ := restart_waits running task
  rw [← same] at running current engine
  refine ⟨engine, fun others u j' later own run same' waits watched ended => ⟨?_, ?_⟩⟩
  · have settled : j'.engine.poll id deadline later = (some (.ok ()), j'.engine) := by
      simp [Engine.poll, ended]
    simp only [perform, waits, settled, watched]
    rw [← watched, ← waits]
  · exact relaunches_of_ended free current running own run same' ended

/-! ## A notice before the stop -/

/-- A command that watches a script and prints events as JSON; all is logged. -/
def watching : Job (List Signal) := .start echo ⟨true, .watch "a.lua" [] true true⟩ oneFile

/-- It follows its run for some rounds, and hears of a change. -/
def changed : Job (List Signal) :=
  ((List.replicate 16 ⟨1⟩).foldl (Job.advance echo) watching).noteChange "/home/a.lua"

/-- It has restarted. -/
def restartedEarly : Job (List Signal) := changed.advance echo ⟨2⟩

/-- **The notice can come before the stop.** With the round in which the change is dealt with, the
worker of the run moves its phase to the end, and has its stop still to announce. So nothing is running,
the notice is shown, and the next run is launched; and what is printed next is the stop. -/
theorem restart_drains_overtaken :
    ((changed.round echo).engine.isRunning = false ∧
      ((changed.round echo).engine.run 0).stage.unsaid = [.stopped .finished]) ∧
    (⟨.debug, .watching, "file changed, re-running"⟩ ∈ restartedEarly.records ∧
      restartedEarly.engine.runs.size = 2 ∧ restartedEarly.engine.leaked = 0) ∧
    ∃ j : Job (List Signal), restartedEarly.shown <:+ j.shown ∧
      restartedEarly.advance echo ⟨3⟩ = j.print [.stopped .finished, .started] := by
  refine ⟨by decide +kernel, by decide +kernel, ?_⟩
  have task : restartedEarly.task = .following := by decide +kernel
  have exit : (restartedEarly.round echo).collect.engine.world.exit = none := by decide +kernel
  have task' : (restartedEarly.round echo).collect.task = .following := by decide +kernel
  have watched : (restartedEarly.round echo).collect.watched = some ⟨"/home/a.lua", true⟩ := by decide +kernel
  have changes : (restartedEarly.round echo).collect.takeEvents.2.changes = 0 := by decide +kernel
  have events : (restartedEarly.round echo).collect.engine.queue.drain.1 = [.stopped .finished, .started] := by
    decide +kernel
  have taken : restartedEarly.advance echo ⟨3⟩ = (restartedEarly.round echo).collect.takeEvents.2 := by
    unfold advance
    rw [task]
    dsimp only
    rw [exit]
    unfold perform
    dsimp only
    rw [task', watched]
    dsimp only
    unfold watch
    dsimp only
    rw [changes, if_pos rfl]
  refine ⟨{ (restartedEarly.round echo).collect with
    engine.queue := (restartedEarly.round echo).collect.engine.queue.drain.2 }, round_shown echo restartedEarly, ?_⟩
  rw [taken, ← events]
  rfl

end Job
end CommandLine
end ScriptHost
