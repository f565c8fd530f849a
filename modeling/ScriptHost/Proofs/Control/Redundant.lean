import ScriptHost.Proofs.Control.Apart
import ScriptHost.Proofs.Control.Idle
import ScriptHost.Proofs.Control.Phases
import ScriptHost.Proofs.Control.Stops

/-!
# Calls that leave no trace

While a script is running, the setters refuse and a start does nothing; where
nothing is running, neither does a stop. Another stop of a run of which one was
requested before goes through all its steps, sets a token that is set and moves
a phase that has been moved.

* `Traceless`: a call that ends where it began.
* `Reached.asked`: what a request leaves behind on its run.
* `Repeats`: a stop that may be left out, whatever the others do during it.
* `redundant_calls`: which calls are of which kind.
-/
namespace ScriptHost

variable {ω σ : Type} {I : Interpreter ω σ}

theorem Phase.requestStop_of_rank {p : Phase} (h : stopRequested.rank ≤ p.rank) :
    p.requestStop = p := by
  revert h
  cases p <;> decide

namespace Ensemble

variable {s s' t u : Ensemble ω σ} {l : Label ω} {ls xs ys : List (Label ω)} {id : Nat}
  {settings : Settings} {world : ω} {answer : Except Failure Unit}

/-! ## At one go -/

/-- The call `l` is over with its first step, and nothing is changed by it: what is done behind it
is done without it, and seen in the same way. -/
def Traceless (I : Interpreter ω σ) (s : Ensemble ω σ) (l : Label ω) (answer : Except Failure Unit) :
    Prop :=
  s.answer? l = some answer ∧ ∀ ls, exec I s (l :: ls) = exec I s ls ∧
    watch I s (l :: ls) = s.sight l s :: watch I s ls

theorem traceless_of_step (step : s.step I l = some s) (told : s.answer? l = some answer) :
    s.Traceless I l answer :=
  ⟨told, fun ls => ⟨by rw [exec, step, Option.bind_some], watch_cons step⟩⟩

section
variable (free : s.isFree = true)
include free

theorem setScript_traceless (running : s.engine.isRunning = true) (source : ByteArray) :
    s.Traceless I (.setScript source)
      (.error (.invalidOperation "cannot set the script while a script is running")) := by
  have refused : s.engine.setScript source =
      (.error (.invalidOperation "cannot set the script while a script is running"), s.engine) := by
    simp only [Engine.setScript, Engine.ensureIdle, running, if_true]
    rfl
  exact traceless_of_step (by simp [step, free, refused]) (by simp [answer?, refused])

theorem setSearchDirs_traceless (running : s.engine.isRunning = true) (dirs : List String) :
    s.Traceless I (.setSearchDirs dirs)
      (.error (.invalidOperation "cannot change search directories while a script is running")) := by
  have refused : s.engine.setSearchDirs dirs =
      (.error (.invalidOperation "cannot change search directories while a script is running"),
        s.engine) := by
    simp only [Engine.setSearchDirs, Engine.ensureIdle, running, if_true]
    rfl
  exact traceless_of_step (by simp [step, free, refused]) (by simp [answer?, refused])

theorem start_traceless (running : s.engine.isRunning = true) (launch : Launch) :
    s.Traceless I (.start launch) (.ok ()) :=
  traceless_of_step (by simp [step, free, running]) (by simp [answer?, running])

theorem stop_traceless (still : s.engine.isRunning = false) : s.Traceless I .stop (.ok ()) :=
  traceless_of_step (step_stop_still still free) (by simp [answer?, still])

end

/-! ## One stop behind another -/

/-- A stop was requested of a run: its token is set, and its phase has been moved. -/
structure Asked (s : Ensemble ω σ) (id : Nat) : Prop where
  token : (s.engine.run id).token = true
  phase : Phase.stopRequested.rank ≤ (s.engine.run id).phase.rank

theorem Treats.asked (c : Treats I s s' id) (h : s.Asked id) : s'.Asked id :=
  ⟨c.token_of h.token, Nat.le_trans h.phase c.rank_le⟩

/-- A run that is held but not running is over. -/
theorem Reached.stopped_of_still (h : Reached I (fun _ => True) (initial settings world) s)
    (idle : s.call = .idle) (current : s.engine.current = some id)
    (still : s.engine.isRunning = false) : (s.engine.run id).phase = .stopped := by
  obtain ⟨hid, shown⟩ := h.held idle current
  simp only [Engine.isRunning, current, Bool.and_eq_false_iff, decide_eq_false_iff_not,
    Decidable.not_not] at still
  rcases still with ended | past
  · rw [isAlive_run hid] at ended
    exact (h.steady hid).stopped_of_ended ended
  · rwa [shown] at past

/-- Behind a stop that was called for while the engine held a run, the run is asked to stop, as long
as it is running. -/
theorem Reached.asked (h : Reached I (fun _ => True) (initial settings world) t)
    (current : t.engine.current = some id) (run : exec I t (.stop :: ls) = some s)
    (idle : s.call = .idle) (current' : s.engine.current = some id)
    (running : s.engine.isRunning = true) : s.Asked id := by
  obtain ⟨t₁, first, run₁⟩ := Option.bind_eq_some_iff.mp run
  have free : t.isFree = true := by
    simp only [Ensemble.step, Option.ite_none_right_eq_some] at first
    exact first.1
  have hid := (h.held (isFree_iff.mp free).1 current).1
  have reached := h.of_exec run
  obtain ⟨hid', shown⟩ := reached.held idle current'
  cases requested : t.engine.isRunning with
  | true =>
    have hid₁ := Nat.lt_of_lt_of_le hid ((h.ruled.conduct first).size_le h.sound)
    obtain ⟨_, urgent⟩ := (h.step trivial first).later (P := fun t => t.Urgent id) hid₁
      (fun c => c.urgent) (urgent_of_request (.inl rfl) current requested first) run₁
    have token : (s.engine.run id).token = true := by
      refine urgent.resolve_right ?_
      rintro ⟨leave, call⟩
      rw [idle] at call
      cases call
    obtain ⟨_, j, held, told⟩ := reached.running idle running
    obtain rfl : j = id := Option.some.inj (held.symm.trans current')
    exact ⟨token, by rw [← shown, told.mpr token]⟩
  | false =>
    -- the run was over already, and cannot be running now
    have stopped := h.stopped_of_still (isFree_iff.mp free).1 current requested
    have past := (h.later (P := fun s => Phase.stopped.rank ≤ (s.engine.run id).phase.rank) hid
      (fun c le => Nat.le_trans le c.rank_le) (Nat.le_of_eq (by rw [stopped])) run).2
    rw [Engine.isRunning, current', shown, Phase.eq_stopped_of_rank past] at running
    simp at running

/-- The steps that a stop makes on a run that is asked already change nothing. -/
theorem Asked.goOn (h : s.Asked id) (idle : s.call = .idle) (rest : s.taking = .resting) :
    (s.turned (.cancelling id false) (·)).step I .goOn = some (s.turned (.marking id false) (·)) ∧
      (s.turned (.marking id false) (·)).step I .goOn = some s := by
  have cancel : s.engine.cancel id = s.engine := by
    refine Engine.modifyRun_same ?_
    rw [← h.token]
  have mark : s.engine.showRequest id = s.engine := by
    refine Engine.modifyRun_same ?_
    rw [Phase.requestStop_of_rank h.phase]
  constructor
  · exact (if_pos rest).trans (by simp [Ensemble.goOn, turned, cancel])
  · exact (if_pos rest).trans (by simp [Ensemble.goOn, turned, mark, afterStop, ← idle])

/-- A stop may be left out: between its steps and behind them everything is as without it, whatever
the others do meanwhile, but that the controller is busy. -/
structure Repeats (I : Interpreter ω σ) (s : Ensemble ω σ) (id : Nat) (xs ys : List (Label ω)) :
    Prop where
  begun : exec I s (.stop :: xs) =
    (exec I s xs).map fun u => { u with call := .cancelling id false }
  halfway : exec I s (.stop :: (xs ++ .goOn :: ys)) =
    (exec I s (xs ++ ys)).map fun u => { u with call := .marking id false }
  whole : ∀ zs, exec I s (.stop :: (xs ++ .goOn :: (ys ++ .goOn :: zs))) = exec I s (xs ++ (ys ++ zs))
  answer : ∀ u, exec I s (.stop :: (xs ++ .goOn :: ys)) = some u → u.answer? .goOn = some (.ok ())

/-- What holds of a run while others go on. -/
theorem Asked.kept (h : s.Asked id) (reached : Reached I (fun _ => True) (initial settings world) s)
    (hid : id < s.engine.runs.size) (hs : exec I s ls = some t) : t.Asked id :=
  (reached.later (P := fun t => t.Asked id) hid (fun c => c.asked) h hs).2

theorem Asked.repeats (h : s.Asked id)
    (reached : Reached I (fun _ => True) (initial settings world) s) (free : s.isFree = true)
    (current : s.engine.current = some id) (running : s.engine.isRunning = true)
    (hx : ∀ l ∈ xs, l.isForeign = true) (hy : ∀ l ∈ ys, l.isForeign = true) :
    s.Repeats I id xs ys := by
  obtain ⟨idle, rest⟩ := isFree_iff.mp free
  have hid := (reached.held idle current).1
  have first : s.step I .stop = some (s.turned (.cancelling id false) (·)) := by
    simp only [step, free, if_true, requestStop, current, running]
    rfl
  have begun : exec I s (.stop :: xs) =
      (exec I s xs).map (·.turned (.cancelling id false) (·)) := by
    rw [exec, first, Option.bind_some, exec_turned hx]
  -- a state to which the others come from here is as free as this one, and the run as asked
  have goOn {u : Ensemble ω σ} {ls : List (Label ω)} (hl : ∀ l ∈ ls, l.isForeign = true)
      (hu : exec I s ls = some u) :=
    (h.kept reached hid hu).goOn (I := I) ((exec_still hl hu).1.trans idle)
      ((exec_still hl hu).2.trans rest)
  have halfway : exec I s (.stop :: (xs ++ .goOn :: ys)) =
      (exec I s (xs ++ ys)).map (·.turned (.marking id false) (·)) := by
    rw [← List.cons_append, exec_append, begun, exec_append]
    cases hu : exec I s xs with
    | none => rfl
    | some u =>
      rw [Option.map_some, Option.bind_some, exec, (goOn hx hu).1, Option.bind_some,
        exec_turned hy, Option.bind_some]
  refine ⟨begun, halfway, fun zs => ?_, fun u hu => ?_⟩
  · have split : .stop :: (xs ++ .goOn :: (ys ++ .goOn :: zs)) =
        (.stop :: (xs ++ .goOn :: ys)) ++ .goOn :: zs := by simp
    rw [split, exec_append, halfway, ← List.append_assoc, exec_append s (xs ++ ys)]
    cases hu : exec I s (xs ++ ys) with
    | none => rfl
    | some u =>
      have hxy : ∀ l ∈ xs ++ ys, l.isForeign = true := fun l hl =>
        (List.mem_append.mp hl).elim (hx l) (hy l)
      rw [Option.map_some, Option.bind_some, exec, (goOn hxy hu).2, Option.bind_some]
  · rw [halfway] at hu
    obtain ⟨u, _, rfl⟩ := Option.map_eq_some_iff.mp hu
    rfl

/-- **Rejected and redundant calls leave no trace.** Let a call be made at any point of any run of the
system. While a script is running, the setters refuse and a start answers that all is well; where
nothing is running, so does a stop; and each of them passes. A stop of a run that is running, and of
which a stop was called for before, answers that all is well and may be left out. -/
theorem redundant_calls {before : List (Label ω)}
    (h : exec I (initial settings world) before = some s) (free : s.isFree = true) :
    (s.engine.isRunning = true →
      (∀ source, s.Traceless I (.setScript source)
        (.error (.invalidOperation "cannot set the script while a script is running"))) ∧
      (∀ dirs, s.Traceless I (.setSearchDirs dirs)
        (.error (.invalidOperation "cannot change search directories while a script is running"))) ∧
      ∀ launch, s.Traceless I (.start launch) (.ok ())) ∧
    (s.engine.isRunning = false → s.Traceless I .stop (.ok ())) ∧
    ∀ earlier later t id, before = earlier ++ .stop :: later →
      exec I (initial settings world) earlier = some t → t.engine.current = some id →
      s.engine.current = some id → s.engine.isRunning = true →
      ∀ xs ys, (∀ l ∈ xs, l.isForeign = true) → (∀ l ∈ ys, l.isForeign = true) →
        s.Repeats I id xs ys := by
  refine ⟨fun running => ⟨setScript_traceless free running, setSearchDirs_traceless free running,
    start_traceless free running⟩, stop_traceless free, ?_⟩
  rintro earlier later t id rfl ht current current' running xs ys hx hy
  rw [exec_append, ht, Option.bind_some] at h
  have reached := Reached.start.of_exec ht
  have asked := reached.asked current h (isFree_iff.mp free).1 current' running
  exact asked.repeats (reached.of_exec h) free current' running hx hy

/-- The launch of `asked`, and its first stop. -/
theorem exec_launched_asked :
    exec replay (initial {} [.line 3, .ended none]) ([.start .works] ++ [.stop, .goOn, .goOn]) =
      some asked := by
  rw [exec_append, exec_launched, Option.bind_some, exec_asked]

/-- A worker begins while it is asked to stop for a second time. -/
theorem redundant_calls_asked :
    asked.engine.isRunning = true ∧ asked.isFree = true ∧
      asked.Traceless replay (.start .works) (.ok ()) ∧
      exec replay asked [.stop, .other (.worker 0), .goOn, .other (.worker 0), .goOn] =
        exec replay asked [.other (.worker 0), .other (.worker 0)] ∧
      stopTaken.engine.isRunning = false ∧ stopTaken.Traceless replay .stop (.ok ()) := by
  have running : asked.engine.isRunning = true := by decide +kernel
  have free : asked.isFree = true := by decide +kernel
  have still : stopTaken.engine.isRunning = false := by decide +kernel
  obtain ⟨refused, _, repeats⟩ := redundant_calls exec_launched_asked free
  have goesOn (l : Label (List Signal)) (hl : l ∈ [.other (.worker 0)]) : l.isForeign = true := by
    rw [List.mem_singleton.mp hl]
    rfl
  have once := repeats [.start .works] [.goOn, .goOn] launched 0 rfl exec_launched (by decide +kernel)
    (by decide +kernel) running _ _ goesOn goesOn
  refine ⟨running, free, (refused running).2.2 .works, once.whole [], still, ?_⟩
  exact (redundant_calls exec_runToStop (by decide +kernel)).2.1 still

end Ensemble
end ScriptHost
