import ScriptHost.Proofs.Control.Idle
import ScriptHost.Proofs.Session
import ScriptHost.Proofs.Scenario.Conclusion

/-!
# An engine with one run

A controller that starts one run of a script of the scenario and does not ask it to stop
leads the system through states that are `Solo`: whoever goes on, whatever is
taken, and even when the controller waits for the worker at the end.

* `Solo.act`, `Solo.outside`, `Solo.receive`, `Solo.leave`: what is done keeps it.
* `Solo.taken`: nothing is on its way behind the stop.
* `Solo.recounts`: when the worker has ended and everything was taken, an execution of
  the script up to its end was heard.
-/
namespace ScriptHost

variable {ω σ : Type} {P : Scenario ω} {I : Interpreter ω σ}

namespace Ensemble

variable {s s' : Ensemble ω σ} {l : Label ω} {o : Outcome}

/-- No patience ends, and no look at the channel of the one run fails. -/
def Smooth (l : Label ω) : Prop := (∀ run, l ≠ .other (.patience run)) ∧ l ≠ .other (.fault 0)

/-- A step by which no call goes on or begins leaves every run its token. -/
theorem Conduct.uncalled (c : Conduct I s l s') (id : Nat) (goOn : l ≠ .goOn)
    (start : ∀ launch, l ≠ .start launch) (call : s'.call = s.call) :
    s'.engine.current = s.engine.current ∧
      s'.engine.runs.size = s.engine.runs.size ∧
      (s'.engine.run id).token = (s.engine.run id).token ∧
      Note.partings s'.log = Note.partings s.log := by
  cases c with
  | aside _ runs _ current _ _ partings => exact ⟨current, by rw [runs], by rw [run_eq runs], partings⟩
  | work j r r' _ here turn runs _ current _ _ partings =>
    refine ⟨current, by simp [runs], ?_, partings⟩
    rw [run_set (Array.getElem?_eq_some_iff.mp here).1 runs]
    split
    · rename_i hj
      rw [turn.token_eq, hj, run_of_some here]
    · rfl
  | launch launch due =>
    rcases due with ⟨hl, _⟩ | ⟨_, hl, _⟩
    · exact absurd hl (start launch)
    · exact absurd hl goOn
  | request _ _ _ free | await _ _ _ free =>
    rw [free] at call
    cases call
  | giveUp _ _ _ waits =>
    rw [waits] at call
    cases call
  | cancel _ _ hl | mark _ hl | leave _ hl | settle _ hl | forsake _ hl | silence _ hl =>
    exact absurd hl goOn

/-- Nothing is heard by what a worker or a pump does. -/
theorem heard_act (a : Actor) : Note.heard (s.act I a).log = Note.heard s.log := by
  cases a with
  | worker id =>
    have log : (s.act I (.worker id)).log = s.log ++ (s.engine.runs[id]?.map (notesOf I id)).getD [] :=
      rfl
    rw [log, Note.heard_append, List.append_right_eq_self]
    cases s.engine.runs[id]? with
    | none => rfl
    | some r => exact heard_notesOf id r
  | _ => exact congrArg Note.heard (List.append_nil _)

/-- A run of the system has led here in which one run of the script of the scenario was launched, is
not asked to stop, and nobody's patience has ended. -/
structure Solo (P : Scenario ω) (I : Interpreter ω σ) (s : Ensemble ω σ) : Prop where
  led : ∃ settings world ls, Passes P I 0 (initial settings world) ls s ∧ ∀ l ∈ ls, Smooth l
  size : s.engine.runs.size = 1
  launched : .launched 0 .works ∈ s.log
  unasked : s.Unasked P 0

namespace Solo

section
variable (h : s.Solo P I)
include h

theorem reached : ∃ settings world, Reached I Smooth (initial settings world) s := by
  obtain ⟨settings, world, ls, passes, smooth⟩ := h.led
  exact ⟨settings, world, reached_of_exec .start passes.exec smooth⟩

theorem there : 0 < s.engine.runs.size := by
  rw [h.size]
  exact Nat.one_pos

/-- All that is heard is heard of the one run. -/
theorem heard : s.heard 0 = Note.heard s.log := by
  obtain ⟨_, _, reached⟩ := h.reached
  refine congrArg Note.heard (filter_run_self fun n hn => ?_)
  have := reached.sound.log n hn
  rw [h.size] at this
  omega

theorem kept : .abandoned 0 ∉ s.log := by
  obtain ⟨_, _, reached⟩ := h.reached
  rw [← reached.abandoned, h.unasked.kept]
  exact Bool.false_ne_true

/-- The script is in a world in which it can be at work. -/
theorem sees : P.Sees I s.engine.world := by
  obtain ⟨settings, world, ls, passes, smooth⟩ := h.led
  exact passes.sees .start (Nat.zero_le 0) smooth (fun _ hl => hl.2) h.unasked

/-- The channel is read as long as the worker can write to it. -/
theorem reading (hs : (s.engine.run 0).stage.isOpen = true) : (s.engine.run 0).channel.reading = true := by
  obtain ⟨_, _, reached⟩ := h.reached
  exact ((reached.poured h.there (fun _ hl => hl.2) h.unasked.kept).flow.ends hs).2

/-! ## What keeps it -/

/-- A step that launches nothing and sets no token. -/
theorem next (hs : s.step I l = some s') (smooth : Smooth l)
    (world : l = .other (.worker 0) ∨ s'.engine.world = s.engine.world ∨
      P.drift s.engine.world s'.engine.world) (size : s'.engine.runs.size = s.engine.runs.size)
    (token : (s'.engine.run 0).token = (s.engine.run 0).token)
    (partings : Note.partings s'.log = Note.partings s.log) : s'.Solo P I := by
  obtain ⟨settings, world₀, ls, passes, before⟩ := h.led
  obtain ⟨_, _, reached⟩ := h.reached
  have script := script_of_step h.there hs
  obtain ⟨ns, adds⟩ := (step_cases reached.sound hs).adds reached.sound
  refine ⟨⟨settings, world₀, ls ++ [l], passes.step hs world, fun l' hl => ?_⟩, size.trans h.size, ?_,
    ⟨script.1.trans h.unasked.payload, script.2.trans h.unasked.chunkName,
      token.trans h.unasked.token, ?_⟩⟩
  · rcases List.mem_append.mp hl with hl | hl
    · exact before l' hl
    · rwa [List.mem_singleton.mp hl]
  · rw [adds.log]
    exact List.mem_append_left _ h.launched
  · refine (reached.step smooth hs).kept fun gone => h.kept ?_
    rw [← Note.mem_partings, partings] at gone
    exact Note.mem_partings.mp gone

/-- The receiver, a worker, a pump or the world goes on. -/
theorem goes (hs : s.step I l = some s') (smooth : Smooth l) (goOn : l ≠ .goOn)
    (start : ∀ launch, l ≠ .start launch) (call : s'.call = s.call)
    (world : l = .other (.worker 0) ∨ s'.engine.world = s.engine.world ∨
      P.drift s.engine.world s'.engine.world) :
    s'.Solo P I ∧ s'.engine.current = s.engine.current := by
  obtain ⟨_, _, reached⟩ := h.reached
  obtain ⟨current, size, token, partings⟩ :=
    (reached.ruled.conduct hs).uncalled 0 goOn start call
  exact ⟨h.next hs smooth world size token partings, current⟩

/-- A worker or a pump goes on, and nothing is heard. -/
theorem act {a : Actor} (smooth : Smooth (.other a : Label ω)) :
    (s.act I a).Solo P I ∧ (s.act I a).engine.current = s.engine.current ∧
      (s.act I a).heard 0 = s.heard 0 := by
  have hs : s.step I (.other a) = some (s.act I a) := rfl
  have world : Label.other a = (.other (.worker 0) : Label ω) ∨
      (s.act I a).engine.world = s.engine.world := by
    by_cases working : ∃ j, a = .worker j
    · obtain ⟨j, rfl⟩ := working
      rcases Nat.eq_zero_or_pos j with rfl | other
      · exact .inl rfl
      · have absent : s.engine.runs[j]? = none := Array.getElem?_eq_none (by rw [h.size]; omega)
        exact .inr (by simp [Ensemble.act, Engine.step, absent])
    · exact .inr (step_world hs (fun j hj => working ⟨j, Label.other.inj hj⟩) (by simp))
  obtain ⟨solo, current⟩ := h.goes hs smooth (by simp) (by simp) rfl (world.imp_right .inl)
  exact ⟨solo, current, by rw [solo.heard, h.heard, heard_act]⟩

/-- A worker that reports an error can write its text, and still holds its end of the channel. -/
theorem reading_reported {x : σ} {text : String} (hs : (s.engine.run 0).stage = .reporting x text)
    (smooth : Smooth (.other (.worker 0) : Label ω)) :
    ((s.act I (.worker 0)).engine.run 0).stage.isOpen = true ∧
      ((s.act I (.worker 0)).engine.run 0).channel.reading = true := by
  have own : (s.act I (.worker 0)).engine.run 0 = _ :=
    congrArg Run.Shared.run (act_shared (I := I) h.there)
  have stage : ((s.act I (.worker 0)).engine.run 0).stage = .finalizing (I.close x) .failed := by
    rw [own]
    simp [Run.workerStep, shared, hs]
  have isOpen : ((s.act I (.worker 0)).engine.run 0).stage.isOpen = true := by
    rw [stage]
    rfl
  exact ⟨isOpen, (h.act smooth).1.reading isOpen⟩

/-- The world changes as the scenario allows. -/
theorem outside {w : ω} (drift : P.drift s.engine.world w) : ({ s with engine.world := w }).Solo P I :=
  (h.goes (l := .outside w) rfl ⟨nofun, nofun⟩ nofun nofun rfl (.inr (.inr drift))).1

/-- The next event is taken and heard, if one is queued. -/
theorem receive (rest : s.taking = .resting) (listens : s.call.listens = true) :
    ∃ s' : Ensemble ω σ, s' = { s with engine.queue := s.engine.queue.receive.2, log := s'.log } ∧
      s'.Solo P I ∧ s'.heard 0 = s.heard 0 ++ s.engine.queue.receive.1.toList := by
  obtain ⟨e, call, taking, log⟩ := s
  obtain rfl : taking = .resting := rest
  obtain ⟨ns, ⟨n, takes⟩, heard⟩ := takes_receive (I := I) listens e log
  obtain ⟨settings, world, ls, passes, smooth⟩ := h.led
  have solo : Solo P I (⟨{ e with queue := e.queue.receive.2 }, call, .resting, log ++ ns⟩) := by
    refine ⟨⟨settings, world, _, passes.alone takes (by simp [Label.isAlone]), fun l hl => ?_⟩, h.size,
      List.mem_append_left _ h.launched,
      ⟨h.unasked.payload, h.unasked.chunkName, h.unasked.token,
        (e.queue.receive_abandoned 0).trans h.unasked.kept⟩⟩
    rcases List.mem_append.mp hl with hl | hl
    · exact smooth l hl
    · rw [(List.mem_replicate.mp hl).2]
      exact ⟨nofun, nofun⟩
  refine ⟨_, rfl, solo, ?_⟩
  rw [solo.heard, h.heard, Note.heard_append, heard]

/-- Behind the stop nothing is on its way. -/
theorem taken (stopped : .stopped o ∈ s.heard 0) : s.pending = [] := by
  obtain ⟨_, _, reached⟩ := h.reached
  obtain ⟨launch, -, told⟩ := reached.told true h.there fun _ l hl => hl.1 0
  have trail := told.trail h.unasked.kept
  rw [Position.after, View.trail, List.filter_append] at trail
  obtain ⟨p, heard, rest⟩ := Position.read_left trail
  obtain ⟨rfl, -⟩ := Position.read_stopped heard (List.mem_filter.mpr ⟨stopped, rfl⟩)
  have none := (Position.read_past rest).1
  rw [List.filter_eq_self.mpr fun e _ => e.voices_true, List.map_eq_nil_iff, view_pending] at none
  refine List.eq_nil_iff_forall_not_mem.mpr fun m hm => ?_
  have own : m.run = 0 := by
    have := pending_lt reached.sound m hm
    rw [h.size] at this
    omega
  exact List.filter_eq_nil_iff.mp none m hm (by simp [own])

/-- Behind its stop the controller turns to the end, and finds nothing to be stopped. -/
theorem leave (free : s.isFree = true) (current : s.engine.current = some 0)
    (stopped : .stopped o ∈ s.heard 0) : s.engine.isRunning = false ∧
      ({ s with engine.current := none, call := .waiting 0 none }).Solo P I := by
  obtain ⟨_, _, reached⟩ := h.reached
  have last : 0 + 1 = s.engine.runs.size := h.size.symm
  have still := (reached.resting last (mem_heard.mp stopped)).2
  have hs : s.step I .shutdown =
      some { s with engine.current := none, call := .waiting 0 none } := by
    simp [step, free, requestStop, current, still, afterStop, await, Engine.takeWorker]
  exact ⟨still, h.next hs (by simp [Smooth]) (.inr (.inl rfl)) rfl rfl rfl⟩

/-! ## The end -/

/-- **What is heard of the one run.** When its worker has ended and everything was taken, an
execution of the script up to the end is told by what was heard between the start and the stop that
fits the end. -/
theorem recounts (ended : s.engine.isAlive 0 = false) (taken : s.pending = []) :
    ∃ l failure finals reports, P.Ends I l failure finals ∧ Recounts l failure finals reports ∧
      s.heard 0 = .started :: (reports ++ [.stopped (.ofFailure failure)]) := by
  obtain ⟨settings, world, ls, passes, smooth⟩ := h.led
  have reached := reached_of_exec .start passes.exec smooth
  rw [isAlive_run h.there] at ended
  have concluded := passes.concluded .start (Nat.zero_le 0) smooth (fun _ hl => hl.2) h.there h.unasked
    (Stage.isMute_of_ended ended)
  have none : ∀ m ∈ s.pending, m.run ≠ 0 := by
    rw [taken]
    nofun
  rcases concluded.recounts reached (fun l hl => ⟨hl.1 0, hl.2⟩) h.launched h.kept none with
    ⟨o, refusal, _⟩ | ⟨_, told⟩
  · cases refusal
  · exact told

end

end Solo
end Ensemble
end ScriptHost
