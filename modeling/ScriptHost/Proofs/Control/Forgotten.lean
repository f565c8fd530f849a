import ScriptHost.Proofs.Control.Punctual

/-!
# Shutdowns that are dropped

A shutdown that waits for a worker can be dropped between two looks, say because
whoever called it has waited long enough for it. It has taken the worker out of
the engine by then, and gives it back to nobody (`forget`).

* `Orderly`: what holds of the engine between calls.
* `exec_of_attend`: looks that find the worker alive leave no trace.
* `shutdown_forgotten`: a shutdown that was not begun does no harm. One that is
  dropped leaves the engine orderly only if the worker has ended by then;
  otherwise it is neither held nor disowned, its phase is still shown, and the
  next start launches a run beside it.
-/
namespace ScriptHost.Ensemble

variable {ω σ : Type} {I : Interpreter ω σ} {s t u : Ensemble ω σ} {ls : List (Label ω)} {id : Nat}
  {settings : Settings} {world : ω} {deadline : Instant}

/-- A worker that has not ended is held or disowned, those that are disowned are counted, and no
phase but the first and the last is shown where no worker is held. -/
structure Orderly (s : Ensemble ω σ) : Prop where
  held : ∀ id, s.engine.isAlive id = true →
    s.engine.current = some id ∨ (s.engine.queue.slot id).abandoned = true
  counted : s.engine.leaked = s.disowned.card
  vacant : s.engine.current = none → s.engine.phase = .idle ∨ s.engine.phase = .stopped

theorem Reached.orderly (h : Reached I (fun _ => True) (initial settings world) s)
    (idle : s.call = .idle) : s.Orderly :=
  ⟨fun _ => h.alive_cases idle, h.leaked_eq_card,
    fun none => h.phase_of_free ((holder_of_call rfl idle).trans none)⟩

/-- The call that goes on is dropped: it does nothing any more, and nobody does it in its place. -/
def forget (s : Ensemble ω σ) : Ensemble ω σ := { s with call := .idle }

@[simp] theorem forget_engine (s : Ensemble ω σ) : s.forget.engine = s.engine := rfl

/-- Looks that find the worker alive before the deadline leave no trace. -/
theorem exec_of_attend {looks : List (List (Label ω) × Instant)}
    (h : attend I id deadline s looks = some (none, t)) :
    exec I s (looks.flatMap (·.1)) = some t := by
  induction looks generalizing s with
  | nil =>
    cases h
    rfl
  | cons look looks ih =>
    obtain ⟨ls, now⟩ := look
    obtain ⟨s₁, run, h⟩ := Option.bind_eq_some_iff.mp h
    by_cases goes : s₁.engine.isAlive id = true ∧ ¬deadline ≤ now
    · simp only [s₁.engine.poll_eq, if_pos goes] at h
      rw [List.flatMap_cons, exec_append, run, Option.bind_some]
      exact ih h
    · simp [s₁.engine.poll_eq, if_neg goes] at h

/-- A shutdown has set the token of a run that was running. -/
theorem leaving_token (current : s.engine.current = some id) (hid : id < s.engine.runs.size)
    (running : s.engine.isRunning = true) : ((s.leaving id).engine.run id).token = true := by
  have asked : s.engine.stop = (s.engine.cancel id).showRequest id := by
    simp [Engine.stop, running, current]
  have size : id < (s.engine.cancel id).runs.size := by
    simpa [Engine.cancel, Engine.modifyRun] using hid
  have same : (s.leaving id).engine.run id = s.engine.stop.run id := rfl
  rw [same, asked, run_showRequest _ id size, if_pos rfl, run_cancel _ id hid, if_pos rfl]

/-- A shutdown that waits for a worker waits for the one that was held. -/
theorem current_of_shutdownAt {now : Instant}
    (told : (s.engine.shutdownAt now).1 = .worker id deadline) : s.engine.current = some id := by
  rw [s.engine.shutdownAt_eq] at told
  cases hc : s.engine.current with
  | none => simp [hc] at told
  | some j =>
    simp only [hc] at told
    split at told <;> cases told
    rfl

/-- What others do between the looks and behind the last of them is one run without calls. -/
theorem exec_behind {looks : List (List (Label ω) × Instant)} {others : List (Label ω)}
    (early : ∀ x ∈ looks, ∀ l ∈ x.1, l.isOfCall = false) (apart : ∀ l ∈ others, l.isOfCall = false)
    (seen : attend I id deadline s looks = some (none, t)) (run : exec I t others = some u) :
    ∃ ls, (∀ l ∈ ls, l.isOfCall = false) ∧ exec I s ls = some u := by
  refine ⟨looks.flatMap (·.1) ++ others, fun l hl => ?_, ?_⟩
  · rcases List.mem_append.mp hl with hl | hl
    · obtain ⟨x, hx, hl⟩ := List.mem_flatMap.mp hl
      exact early x hx l hl
    · exact apart l hl
  · rw [exec_append, exec_of_attend seen, Option.bind_some, run]

/-- A wait that is dropped leaves the engine orderly exactly if the worker has ended. -/
theorem Reached.forget_orderly (h : Reached I (fun _ => True) (initial settings world) u)
    (call : u.call = .waiting id none) : u.forget.Orderly ↔ u.engine.isAlive id = false := by
  obtain ⟨hid, gone, kept, phase⟩ := h.waited call
  refine ⟨fun orderly => ?_, fun ended => ⟨fun j alive => ?_, h.leaked_eq_card, fun _ => .inr ?_⟩⟩
  · by_contra alive
    rcases orderly.held id (by simpa using alive) with held | silenced
    · rw [forget_engine, gone] at held
      cases held
    · rw [forget_engine, kept] at silenced
      cases silenced
  · -- the run that is waited for is the only one that may live without being disowned
    by_contra apart
    have holds : u.holder = some j :=
      h.sound.alive j alive (by simpa using mt Or.inr apart)
    rw [holder, call] at holds
    cases holds
    exact absurd (alive.symm.trans ended) Bool.noConfusion
  · rw [forget_engine, phase]
    exact (h.steady hid).stopped_of_ended ((isAlive_run hid).symm.trans ended)

/-- A start while no worker is held launches its run at once, and touches no run before it. -/
theorem start_beside (sound : u.Sound) (none : u.engine.current = none)
    (hid : id < u.engine.runs.size) :
    u.engine.start .works = (.ok (), (u.launch .works).engine) ∧
      (u.launch .works).engine.current = some u.engine.runs.size ∧
      (u.launch .works).engine.isAlive u.engine.runs.size = true ∧
      (u.launch .works).engine.isAlive id = u.engine.isAlive id ∧
      (u.launch .works).engine.queue.slot id = u.engine.queue.slot id ∧
      (u.launch .works).engine.leaked = u.engine.leaked := by
  have launched := launched_launch sound
  have same : { u.engine with current := .none } = u.engine := by rw [← none]
  have size : (u.launch .works).engine.runs.size = u.engine.runs.size + 1 := launched.last.symm
  refine ⟨?_, launched.current, ?_, ?_, ?_, rfl⟩
  · simp only [Engine.start, Engine.isRunning_of_none none, Engine.finishCurrent, Engine.takeWorker,
      none, same]
    rfl
  · rw [isAlive_run (by omega), launched.created]
    rfl
  · rw [isAlive_run (by omega), run_launch .works hid, isAlive_run hid]
  · have old : id < u.engine.queue.slots.size := by
      rw [sound.slots]
      exact hid
    simp [Ensemble.launch, Engine.launch, Queue.openRun, Queue.slot, Array.getElem?_push,
      Nat.ne_of_lt old]

/-- **Dropping a shutdown.** Before a shutdown has begun, and so if it is dropped before, the engine
is orderly. If it is dropped after any number of looks that found the worker alive in time, and
after anything that others did behind the last of them, then no worker is held, none was disowned or
counted, and the token is set if the run was running. The engine is orderly if the worker has ended
meanwhile, and only then: otherwise its phase is the one that is shown, and a start launches its run
at once and beside it. -/
theorem shutdown_forgotten {before : List (Label ω)}
    (h : exec I (initial settings world) before = some s) (free : s.isFree = true) (now : Instant) :
    (∀ others u, (∀ l ∈ others, l.isOfCall = false) → exec I s others = some u → u.Orderly) ∧
    ∀ id deadline, (s.engine.shutdownAt now).1 = .worker id deadline → ∀ looks t others u,
      (∀ x ∈ looks, ∀ l ∈ x.1, l.isOfCall = false) → (∀ l ∈ others, l.isOfCall = false) →
      attend I id deadline (s.leaving id) looks = some (none, t) → exec I t others = some u →
        u.forget.engine.current = none ∧ u.forget.engine.leaked = s.engine.leaked ∧
        (∀ j, (u.forget.engine.queue.slot j).abandoned = (s.engine.queue.slot j).abandoned) ∧
        (u.forget.engine.queue.slot id).abandoned = false ∧
        (s.engine.isRunning = true → (u.forget.engine.run id).token = true) ∧
        u.forget.engine.phase = (u.forget.engine.run id).phase ∧
        (u.forget.Orderly ↔ u.forget.engine.isAlive id = false) ∧
        ∃ e next, u.forget.engine.start .works = (.ok (), e) ∧ next ≠ id ∧ e.current = some next ∧
          e.isAlive next = true ∧ e.isAlive id = u.forget.engine.isAlive id ∧
          (e.queue.slot id).abandoned = false ∧ e.leaked = s.engine.leaked := by
  have reached := Reached.start.of_exec h
  obtain ⟨idle, -⟩ := isFree_iff.mp free
  refine ⟨fun others u apart run => ?_,
    fun id deadline told looks t others u early apart seen run => ?_⟩
  · exact (reached.of_exec run).orderly ((exec_untouched apart run).call.trans idle)
  have current := current_of_shutdownAt told
  obtain ⟨ls, leave⟩ := exec_leaving (I := I) free current
  have reached' := reached.of_exec leave
  obtain ⟨all, apart', run'⟩ := exec_behind early apart seen run
  obtain ⟨-, -, leaked, queue, -⟩ := s.engine.beginShutdown_rest
  have untouched := exec_untouched apart' run'
  have call : u.call = .waiting id none := untouched.call
  have behind := reached'.of_exec run'
  obtain ⟨hid, gone, kept, phase⟩ := behind.waited call
  have counted : u.engine.leaked = s.engine.leaked := untouched.leaked.trans leaked
  have flags (j : Nat) : (u.engine.queue.slot j).abandoned = (s.engine.queue.slot j).abandoned := by
    rw [reached'.exec_abandoned apart' run', leaving, queue]
  have told (running : s.engine.isRunning = true) : (u.engine.run id).token = true := by
    have size := reached'.sound.holder id rfl
    have token := leaving_token current (reached.held idle current).1 running
    exact (reached'.later (P := fun u => (u.engine.run id).token = true) (by omega)
      (fun c => c.token_of) token run').2
  obtain ⟨start, current', alive', same, slot, leaked'⟩ := start_beside behind.sound gone hid
  exact ⟨gone, counted, flags, kept, told, phase, behind.forget_orderly call, _, _, start, by omega,
    current', alive', same, by rw [slot, kept], leaked'.trans counted⟩

theorem attend_once : attend replay 0 ⟨10 * Duration.second + 3⟩ (launched.leaving 0) [([], ⟨5⟩)] =
    some (none, launched.leaving 0) := by
  have goes : (launched.leaving 0).engine.isAlive 0 = true ∧
      ¬(⟨10 * Duration.second + 3⟩ : Instant) ≤ ⟨5⟩ := by decide +kernel
  simp only [attend, exec, Option.bind_some, Engine.poll_eq, if_pos goes]

/-- The shutdown of `launched` is dropped behind its first look, and the worker begins. -/
def shutdownDropped : Ensemble (List Signal) (List Signal) :=
  ((launched.leaving 0).act replay (.worker 0)).forget

/-- The worker is nobody's, and goes on with its token set. -/
theorem shutdown_forgotten_dropped :
    launched.Orderly ∧ shutdownDropped.engine.current = none ∧ shutdownDropped.engine.leaked = 0 ∧
      (shutdownDropped.engine.queue.slot 0).abandoned = false ∧ (shutdownDropped.engine.run 0).token = true ∧
      shutdownDropped.engine.phase = .stopRequested ∧ ¬shutdownDropped.Orderly := by
  obtain ⟨first, later⟩ := shutdown_forgotten exec_launched (by decide +kernel) ⟨3⟩
  have worker : ∀ l ∈ ([.other (.worker 0)] : List (Label (List Signal))), l.isOfCall = false := by
    intro l hl
    rw [List.mem_singleton.mp hl]
    rfl
  obtain ⟨none, leaked, -, heard, token, phase, orderly, -⟩ :=
    later 0 ⟨10 * Duration.second + 3⟩ (by decide +kernel) [([], ⟨5⟩)] _ [.other (.worker 0)] _
      (by simp) worker attend_once rfl
  refine ⟨first [] _ nofun rfl, none, leaked.trans (by decide +kernel), heard,
    token (by decide +kernel), phase.trans (by decide +kernel), fun well => ?_⟩
  exact absurd (orderly.mp well) (by decide +kernel)

/-- The shutdown of `launched` is dropped behind its first look, and another run is started. -/
def twoWorkers : Engine (List Signal) (List Signal) :=
  ((launched.leaving 0).forget.engine.start .works).2

/-- A shutdown that is dropped behind its first look leaves a worker that is neither held nor
disowned and whose phase is not over; the start behind it leaves two workers alive, none disowned
and none counted. -/
theorem shutdown_forgotten_twoWorkers :
    (launched.engine.shutdownAt ⟨3⟩).1 = .worker 0 ⟨10 * Duration.second + 3⟩ ∧
      attend replay 0 ⟨10 * Duration.second + 3⟩ (launched.leaving 0) [([], ⟨5⟩)] =
        some (none, launched.leaving 0) ∧
      ¬(launched.leaving 0).forget.Orderly ∧
      (launched.leaving 0).forget.engine.current = none ∧
      (launched.leaving 0).forget.engine.phase = .stopRequested ∧
      twoWorkers.isAlive 0 = true ∧ twoWorkers.isAlive 1 = true ∧ twoWorkers.current = some 1 ∧
      (twoWorkers.queue.slot 0).abandoned = false ∧ twoWorkers.leaked = 0 := by
  refine ⟨by decide +kernel, attend_once, fun orderly => ?_, rfl, by decide +kernel,
    by decide +kernel, by decide +kernel, by decide +kernel, by decide +kernel, by decide +kernel⟩
  have held := orderly.held 0 (by decide +kernel)
  exact absurd held (by decide +kernel)

end ScriptHost.Ensemble
