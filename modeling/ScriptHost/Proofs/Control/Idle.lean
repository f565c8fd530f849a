import ScriptHost.Proofs.Control.Census
import ScriptHost.Proofs.Delivery.Leftover

/-!
# Behind the stop of the last run

A worker moves the phase to its end before it announces the stop, and lives on
for a while; a start that comes meanwhile waits for it. So a controller that was
delivered the stop of the run launched last finds the engine at rest.

* `Reached.resting`: nothing is running, and the phase is over.
* `Waiting.step`: a start that waits ends with an error or with a launch.
* `Waiting.ends`: the controller can end its wait whatever the others do.
* `idle_of_stopped`: all that the controller can ask or do.
-/
namespace ScriptHost

/-- The number of steps after which the receiver is done with its message at the latest. -/
def Taking.left : Taking → Nat
  | .resting => 0
  | .comparing _ _ => 1
  | .loading _ => 2
  | .clearing _ => 3
  | .testing _ => 4

namespace Ensemble

variable {ω σ : Type} {I : Interpreter ω σ} {s s' t u : Ensemble ω σ} {l : Label ω} {id : Nat}
  {ls ls' : List (Label ω)} {settings : Settings} {world : ω} {ok : Label ω → Prop} {o : Outcome}
  {launch : Launch}

/-! ## Answers -/

/-- The first answer of a call in a run of the system. -/
def reply (I : Interpreter ω σ) (s : Ensemble ω σ) (ls : List (Label ω)) :
    Option (Except Failure Unit) := (watch I s ls).findSome? (·.answer)

theorem reply_cons (h : s.step I l = some s') :
    reply I s (l :: ls) = (s.answer? l).or (reply I s' ls) := by
  rw [reply, watch_cons h, List.findSome?_cons, show (s.sight l s').answer = s.answer? l from rfl]
  cases s.answer? l with
  | none => exact Option.none_or.symm
  | some answer => exact Option.some_or.symm

/-- The controller can bring the call it is in to its end by steps of its own, and has an answer. -/
def CanEnd (I : Interpreter ω σ) (s : Ensemble ω σ) : Prop :=
  ∃ own u answer, (∀ l ∈ own, l = .take ∨ l = .giveUp ∨ l = .goOn) ∧ exec I s own = some u ∧
    reply I s own = some answer

theorem canEnd_of_answer {answer : Except Failure Unit} (hl : l = .take ∨ l = .giveUp ∨ l = .goOn)
    (h : s.step I l = some s') (ha : s.answer? l = some answer) : s.CanEnd I := by
  refine ⟨[l], s', answer, by simpa using hl, by simp [exec, h], ?_⟩
  rw [reply_cons h, ha, Option.some_or]

theorem canEnd_of_step (hl : l = .take ∨ l = .giveUp ∨ l = .goOn) (h : s.step I l = some s')
    (next : s'.CanEnd I) : s.CanEnd I := by
  obtain ⟨own, u, answer, steps, run, reply⟩ := next
  cases ha : s.answer? l with
  | some answer => exact canEnd_of_answer hl h ha
  | none =>
    refine ⟨l :: own, u, answer, ?_, by simpa [exec, h] using run, ?_⟩
    · simpa using ⟨hl, steps⟩
    · rw [reply_cons h, ha, Option.none_or, reply]

/-! ## At rest -/

/-- Nothing is struck from the log. -/
theorem Reached.log_kept (h : Reached I (fun _ => True) (initial settings world) s)
    (hu : exec I s ls = some u) {n : Note} (hn : n ∈ s.log) : n ∈ u.log := by
  refine exec_induction (P := fun _ u => n ∈ u.log) hn ?_ hu
  intro ls t l t' ht mem step
  have reached := h.of_exec ht
  obtain ⟨ns, adds⟩ := (step_cases reached.sound step).adds reached.sound
  rw [adds.log]
  exact List.mem_append_left _ mem

/-- The stop of the run launched last was delivered: nothing is running, and the phase is over. -/
theorem Reached.resting (h : Reached I ok (initial settings world) s)
    (last : id + 1 = s.engine.runs.size) (stopped : .delivered id (.stopped o) ∈ s.log) :
    s.engine.phase = .stopped ∧ s.engine.isRunning = false := by
  have hid : id < s.engine.runs.size := h.sound.log _ stopped
  have phase : s.engine.phase = .stopped := by
    cases hs : s.engine.shown with
    | nothing =>
      have := h.ruled.nothing.mp hs
      omega
    | run j =>
      obtain rfl : j = id := by
        have := (h.ruled.shown j hs).1
        omega
      rw [phase_of_shown hs hid]
      have mute := (h.announced hid (List.mem_append_left _ (mem_heard.mpr stopped))).1
      have past : (s.engine.run j).stage.phase = .stopped := by
        cases hx : (s.engine.run j).stage <;> rw [hx] at mute <;> first | rfl | cases mute
      rcases (h.steady hid).phase with same | ⟨_, _, apart⟩
      · exact same.trans past
      · exact absurd past apart
    | _ => simp [Engine.phase, hs]
  refine ⟨phase, ?_⟩
  unfold Engine.isRunning
  cases s.engine.current <;> simp [phase]

/-- Of an earlier run, too, only outputs are on their way, unless it was disowned. -/
theorem Reached.earlier_left (h : Reached I (fun _ => True) (initial settings world) s)
    (stopped : .delivered id (.stopped o) ∈ s.log) :
    ∀ m ∈ s.pending, m.run ≤ id →
      m.run < id ∧ .abandoned m.run ∈ s.log ∨ ∃ text, m = .event m.run (.output text) := by
  intro m hm le
  by_cases own : m.run = id
  · rw [own]
    exact .inr (h.outputs_left stopped m hm own)
  · by_cases gone : .abandoned m.run ∈ s.log
    · exact .inl ⟨by omega, gone⟩
    · -- a report of it would be out of order behind the stop of the later run
      refine .inr (output_of_mute (Bool.eq_false_iff.mpr fun report => ?_))
      have := h.heard_le (by simp) (List.mem_filterMap.mpr ⟨_, stopped, rfl⟩) rfl hm gone report
      omega

/-! ## A start that waits -/

/-- A start has found the worker of the run launched last: it waits for it, or gives it up. -/
structure Waiting (s : Ensemble ω σ) (id : Nat) (launch : Launch) : Prop where
  last : id + 1 = s.engine.runs.size
  call : s.call = .waiting id (some launch) ∨
    (s.call = .abandoning id ∨ s.call = .silencing id) ∧ s.taking = .resting

theorem canEnd_silencing (call : s.call = .silencing id) (rest : s.taking = .resting) :
    s.CanEnd I := by
  have step : s.step I .goOn = some { s with
      engine := s.engine.silence id, call := .idle, log := s.log ++ [.abandoned id] } := by
    simp only [Ensemble.step, goOn, call, rest, if_true]
  have answer : s.answer? .goOn = some (.error (s.engine.abandon id).1) := by
    simp only [answer?, call]
  exact canEnd_of_answer (.inr (.inr rfl)) step answer

theorem canEnd_abandoning (call : s.call = .abandoning id) (rest : s.taking = .resting) :
    s.CanEnd I := by
  have step : s.step I .goOn = some { s with
      engine := s.engine.cancel id, call := .silencing id } := by
    simp only [Ensemble.step, goOn, call, rest, if_true]
  exact canEnd_of_step (.inr (.inr rfl)) step (canEnd_silencing rfl rest)

theorem take_left (hand : s.taking ≠ .resting) :
    ∃ s', s.take = some s' ∧ s'.call = s.call ∧ s'.taking.left < s.taking.left := by
  unfold take
  cases ht : s.taking with
  | resting => exact absurd ht hand
  | testing m =>
    dsimp only
    split
    · exact ⟨_, rfl, rfl, by simp [deliver, Taking.left]⟩
    · cases m <;> exact ⟨_, rfl, rfl, by simp [deliver, Taking.left]⟩
  | clearing | loading | comparing => exact ⟨_, rfl, rfl, by simp [deliver, Taking.left]⟩

theorem canEnd_waiting {next : Option Launch} (call : s.call = .waiting id next) : s.CanEnd I := by
  induction hn : s.taking.left using Nat.strong_induction_on generalizing s with
  | _ n ih =>
    by_cases rest : s.taking = .resting
    · have step : s.step I .giveUp = some { s with call := .abandoning id } := by
        simp only [Ensemble.step, call, rest, if_true]
      exact canEnd_of_step (.inr (.inl rfl)) step (canEnd_abandoning rfl rest)
    · obtain ⟨s', taken, call', less⟩ := take_left rest
      have step : s.step I .take = some s' := by simpa only [Ensemble.step, call] using taken
      exact canEnd_of_step (.inl rfl) step (ih _ (hn ▸ less) (call'.trans call) rfl)

/-- While a call goes on, nobody but the controller changes how far it is, or launches a run. -/
theorem Conduct.call_eq (c : Conduct I s l s') (hl : l.isOfCall = false) (busy : s.call ≠ .idle) :
    s'.call = s.call ∧ s'.engine.runs.size = s.engine.runs.size := by
  cases c with
  | aside _ runs call => exact ⟨call, by rw [runs]⟩
  | work _ _ _ _ _ _ runs call => exact ⟨call, by simp [runs]⟩
  | request _ _ _ free | await _ _ _ free => exact absurd free busy
  | launch _ due =>
    rcases due with ⟨_, free, _⟩ | ⟨_, rfl, _⟩
    · exact absurd free busy
    · cases hl
  | cancel _ _ own | mark _ own | leave _ own | settle _ own | giveUp _ _ own | forsake _ own
  | silence _ own => rw [own] at hl; cases hl

namespace Waiting

theorem ne_idle (h : s.Waiting id launch) : s.call ≠ .idle := by
  rcases h.call with call | ⟨call | call, _⟩ <;> rw [call] <;> nofun

theorem not_free (h : s.Waiting id launch) : s.isFree = false := by
  simp [isFree, h.ne_idle]

/-- A step of somebody else leaves it waiting. -/
theorem of_other (h : s.Waiting id launch) (c : Conduct I s l s') (hl : l.isOfCall = false)
    (taking : (∃ next, s.call = .waiting id (some next)) ∨ s'.taking = s.taking) :
    s'.Waiting id launch := by
  obtain ⟨call, size⟩ := c.call_eq hl h.ne_idle
  refine ⟨h.last.trans size.symm, ?_⟩
  rw [call]
  rcases h.call with waits | ⟨gives, rest⟩
  · exact .inl waits
  · rcases taking with ⟨next, waits⟩ | same
    · rw [waits] at gives
      rcases gives with gives | gives <;> cases gives
    · exact .inr ⟨gives, same.trans rest⟩

/-- A start that waits goes on waiting, or ends with an error, or launches its run. -/
theorem step (h : s.Waiting id launch) (ruled : s.Ruled) (hs : s.step I l = some s') :
    s.answer? l = none ∧ s'.Waiting id launch ∨ (∃ f, s.answer? l = some (.error f)) ∨
      s.answer? l = some (.ok ()) ∧ launch = .works ∧ s' = s.launch .works := by
  cases l with
  | setScript | setSearchDirs | start | stop | shutdown =>
    simp [Ensemble.step, h.not_free] at hs
  | goOn =>
    simp only [Ensemble.step, Option.ite_none_right_eq_some] at hs
    obtain ⟨rest, hs⟩ := hs
    rcases h.call with call | ⟨call | call, _⟩
    · -- the worker has ended
      simp only [goOn, call, Option.ite_none_left_eq_some, Option.some.injEq] at hs
      obtain ⟨_, rfl⟩ := hs
      cases launch with
      | works => exact .inr (.inr ⟨by simp [answer?, call, answerAfter, Engine.launch], rfl, rfl⟩)
      | noChannel cause =>
        exact .inr (.inl ⟨.channel cause, by simp [answer?, call, answerAfter, Engine.launch,
          Engine.failLaunch]⟩)
      | noThread cause =>
        exact .inr (.inl ⟨.spawn cause, by simp [answer?, call, answerAfter, Engine.launch,
          Engine.failThread]⟩)
    · simp only [goOn, call, Option.some.injEq] at hs
      subst hs
      have size : (s.engine.cancel id).runs.size = s.engine.runs.size := Array.size_modify
      exact .inl ⟨by simp [answer?, call], ⟨h.last.trans size.symm, .inr ⟨.inr rfl, rest⟩⟩⟩
    · exact .inr (.inl ⟨(s.engine.abandon id).1, by simp [answer?, call]⟩)
  | giveUp =>
    rcases h.call with call | ⟨call | call, _⟩ <;> simp only [Ensemble.step, call] at hs
    · simp only [Option.ite_none_right_eq_some, Option.some.injEq] at hs
      obtain ⟨rest, rfl⟩ := hs
      exact .inl ⟨rfl, ⟨h.last, .inr ⟨.inl rfl, rest⟩⟩⟩
    · cases hs
    · cases hs
  | take =>
    have c := ruled.conduct hs
    rcases h.call with call | ⟨call | call, _⟩ <;> simp only [Ensemble.step, call] at hs
    · exact .inl ⟨rfl, h.of_other c rfl (.inl ⟨launch, call⟩)⟩
    · cases hs
    · cases hs
  | other | outside =>
    have c := ruled.conduct hs
    cases hs
    exact .inl ⟨rfl, h.of_other c rfl (.inr rfl)⟩
  | dropPump j =>
    have c := ruled.conduct hs
    simp only [Ensemble.step, Option.ite_none_right_eq_some, Option.some.injEq] at hs
    obtain ⟨_, rfl⟩ := hs
    exact .inl ⟨rfl, h.of_other c rfl (.inr rfl)⟩

/-- However far the receiver is with its message, it can finish, and then the wait be given up. -/
theorem canEnd (h : s.Waiting id launch) : s.CanEnd I := by
  rcases h.call with call | ⟨call | call, rest⟩
  · exact canEnd_waiting call
  · exact canEnd_abandoning call rest
  · exact canEnd_silencing call rest

/-- As long as there is no answer, a start that waits goes on waiting. -/
theorem exec (h : s.Waiting id launch) (hs : Reached I (fun _ => True) (initial settings world) s)
    (run : Ensemble.exec I s ls = some t) (none : reply I s ls = none) : t.Waiting id launch := by
  induction ls generalizing s with
  | nil =>
    cases run
    exact h
  | cons l ls ih =>
    obtain ⟨s₁, first, run⟩ := Option.bind_eq_some_iff.mp run
    rw [reply_cons first, Option.or_eq_none_iff] at none
    rcases h.step hs.ruled first with ⟨_, waits⟩ | ⟨_, answer⟩ | ⟨answer, _⟩
    · exact ih waits (hs.step trivial first) run none.2
    · rw [none.1] at answer
      cases answer
    · rw [none.1] at answer
      cases answer

end Waiting

/-! ## A start behind a stop -/

/-- The run `id` was launched just now, is the one that counts, and has not said anything. -/
structure Launched (s : Ensemble ω σ) (id : Nat) : Prop where
  last : id + 1 = s.engine.runs.size
  current : s.engine.current = some id
  created : (s.engine.run id).stage = .created
  payload : (s.engine.run id).payload = s.engine.payload
  phase : s.engine.phase = .starting
  isRunning : s.engine.isRunning = true
  unsaid : ∀ m ∈ s.pending, m.run ≠ id

theorem launched_launch (hs : s.Sound) : (s.launch .works).Launched s.engine.runs.size := by
  have current : (s.launch .works).engine.current = some s.engine.runs.size := by
    simp [Ensemble.launch, Engine.launch, Queue.openRun, hs.slots]
  have shown : (s.launch .works).engine.shown = .run s.engine.runs.size := by
    simp [Ensemble.launch, Engine.launch, Queue.openRun, hs.slots]
  have runs : (s.launch .works).engine.runs =
      s.engine.runs.push { payload := s.engine.payload, chunkName := s.engine.settings.chunkName } := rfl
  have phase : (s.launch .works).engine.phase = .starting := by simp [Engine.phase, shown, runs]
  refine ⟨by simp [runs], current, by simp [Engine.run, runs], by simp [Engine.run, runs]; rfl, phase,
    ?_, fun m hm => ?_⟩
  · simp [Engine.isRunning, current, Engine.isAlive, runs, phase, Stage.isAlive]
  · have := pending_lt hs m hm
    omega

/-- The first answer behind the state `s`, from which the label `call` is taken, comes with a step to
`u`. -/
def Answers (I : Interpreter ω σ) (s : Ensemble ω σ) (call : Label ω) (answer : Except Failure Unit)
    (u : Ensemble ω σ) : Prop :=
  ∃ before l t rest, call :: rest = before ++ [l] ∧ exec I s before = some t ∧
    reply I s before = none ∧ t.step I l = some u ∧ t.answer? l = some answer

/-- A start while nothing is running launches its run at once, or waits for the worker before it. -/
theorem step_start (hs : s.Sound) (last : id + 1 = s.engine.runs.size)
    (still : s.engine.isRunning = false) (h : s.step I (.start launch) = some s') :
    s.answer? (.start launch) = some (s.answerAfter (some launch)) ∧ s' = s.launch launch ∨
      s.answer? (.start launch) = none ∧ s'.Waiting id launch := by
  simp only [step, still, Option.ite_none_right_eq_some, Option.some.injEq] at h
  obtain ⟨free, h⟩ := h
  simp only [Bool.false_eq_true, if_false] at h
  cases hc : s.engine.current with
  | none =>
    have same : { s with engine := { s.engine with current := none } } = s := by rw [← hc]
    refine .inl ⟨by simp [answer?, still, hc], ?_⟩
    simpa [await, Engine.takeWorker, proceed, hc, same] using h.symm
  | some j =>
    have held : s.holder = some j := (holder_of_call rfl (isFree_iff.mp free).1).trans hc
    obtain rfl : j = id := by
      have := hs.holder j held
      omega
    simp only [await, Engine.takeWorker, hc] at h
    subst h
    exact .inr ⟨by simp [answer?, still, hc], last, .inl rfl⟩

/-- A launch that is due at last answers with an error, or launches the run. -/
theorem answerAfter_cases (s : Ensemble ω σ) (launch : Launch) :
    (∃ f, s.answerAfter (some launch) = .error f) ∨
      s.answerAfter (some launch) = .ok () ∧ launch = .works := by
  cases launch with
  | works => exact .inr ⟨rfl, rfl⟩
  | noChannel cause => exact .inl ⟨.channel cause, rfl⟩
  | noThread cause => exact .inl ⟨.spawn cause, rfl⟩

/-- A request to stop changes nothing where nothing is running. -/
theorem step_stop_still (still : s.engine.isRunning = false) (free : s.isFree = true) :
    s.step I .stop = some s := by
  have idle := (isFree_iff.mp free).1
  have same : s.afterStop false = s := by simp [afterStop, ← idle]
  have asked : s.requestStop false = s := by
    unfold requestStop
    cases s.engine.current <;> simp [still, same]
  simp only [step, free, if_true, asked]

section
variable (reached : Reached I (fun _ => True) (initial settings world) s)
  (last : id + 1 = s.engine.runs.size) (still : s.engine.isRunning = false)
include reached last still

/-- A start of which nothing has been told yet waits. -/
theorem waiting_of_start {rest : List (Label ω)} {t : Ensemble ω σ}
    (run : exec I s (.start launch :: rest) = some t)
    (none : reply I s (.start launch :: rest) = none) : t.Waiting id launch := by
  obtain ⟨s₁, first, run⟩ := Option.bind_eq_some_iff.mp run
  rw [reply_cons first, Option.or_eq_none_iff] at none
  rcases step_start reached.sound last still first with ⟨answer, _⟩ | ⟨_, waits⟩
  · rw [none.1] at answer
    cases answer
  · exact waits.exec (reached.step trivial first) run none.2

/-- The answer to a start is an error, or its run was launched. -/
theorem answer_of_start {answer : Except Failure Unit} {u : Ensemble ω σ}
    (h : s.Answers I (.start launch) answer u) :
    (∃ f, answer = .error f) ∨ answer = .ok () ∧ u.Launched (id + 1) := by
  obtain ⟨before, l, t, rest, split, run, none, final, told⟩ := h
  cases before with
  | nil =>
    -- the start is answered at once
    obtain ⟨rfl, rfl⟩ : Label.start launch = l ∧ rest = [] := by simpa using split
    cases run
    rcases step_start reached.sound last still final with ⟨ha, rfl⟩ | ⟨ha, _⟩
    · rw [ha, Option.some.injEq] at told
      subst told
      rcases s.answerAfter_cases launch with error | ⟨ok, rfl⟩
      · exact .inl error
      · exact .inr ⟨ok, last ▸ launched_launch reached.sound⟩
    · rw [ha] at told
      cases told
  | cons first before =>
    -- it has waited, and the last step has answered it
    obtain ⟨rfl, rfl⟩ : Label.start launch = first ∧ rest = before ++ [l] := by simpa using split
    have waits := waiting_of_start reached last still run none
    have reached' := reached.of_exec run
    rcases waits.step reached'.ruled final with ⟨ha, _⟩ | ⟨f, ha⟩ | ⟨ha, _, rfl⟩
    · rw [ha] at told
      cases told
    · rw [ha, Option.some.injEq] at told
      exact .inl ⟨f, told.symm⟩
    · rw [ha, Option.some.injEq] at told
      exact .inr ⟨told.symm, waits.last ▸ launched_launch reached'.sound⟩

end

/-- **A controller that was delivered the stop of the run launched last finds the engine at rest.**
The phase is over and nothing is running, though the worker may be alive; setters succeed; a stop
changes nothing. A start can be called for, its call can always be brought to its end, and it is not
ignored: its answer is an error, or a run was launched that has said nothing yet. And of what the
workers before have sent nothing is on its way any more, then or ever after, but for disowned ones. -/
theorem idle_of_stopped (h : exec I (initial settings world) ls = some s)
    (last : id + 1 = s.engine.runs.size) (stopped : .delivered id (.stopped o) ∈ s.log) :
    (s.engine.phase = .stopped ∧ s.engine.isRunning = false) ∧
    (∀ source, s.engine.setScript source =
      (.ok (), { s.engine with payload := { s.engine.payload with source } })) ∧
    (∀ dirs, s.engine.setSearchDirs dirs =
      (.ok (), { s.engine with payload := { s.engine.payload with searchDirs := dirs } })) ∧
    (s.engine.stop = s.engine ∧ (s.isFree = true → s.step I .stop = some s)) ∧
    (∀ launch, s.isFree = true → (∃ s', s.step I (.start launch) = some s') ∧
      (∀ rest t, exec I s (.start launch :: rest) = some t →
        reply I s (.start launch :: rest) = none → t.CanEnd I) ∧
      ∀ answer u, s.Answers I (.start launch) answer u →
        (∃ f, answer = .error f) ∨ answer = .ok () ∧ u.Launched (id + 1)) ∧
    ∀ later u, exec I s later = some u →
      ∀ m ∈ u.pending, m.run ≤ id →
        m.run < id ∧ .abandoned m.run ∈ u.log ∨ ∃ text, m = .event m.run (.output text) := by
  have reached := Reached.start.of_exec h
  obtain ⟨phase, still⟩ := reached.resting last stopped
  have stop : s.engine.stop = s.engine := by simp [Engine.stop, still]
  refine ⟨⟨phase, still⟩, fun source => ?_, fun dirs => ?_, ⟨stop, step_stop_still still⟩,
    fun launch free => ⟨?_, fun rest t run none => ?_, fun answer u answers => ?_⟩,
    fun later u hu => ?_⟩
  · simp [Engine.setScript, Engine.ensureIdle, still]
  · simp [Engine.setSearchDirs, Engine.ensureIdle, still]
  · simp [step, free]
  · exact (waiting_of_start reached last still run none).canEnd
  · exact answer_of_start reached last still answers
  · exact (reached.of_exec hu).earlier_left (reached.log_kept hu stopped)

/-- A run is launched and ends, and its stop is taken while its worker is still alive. -/
def runToStop : List (Label (List Signal)) :=
  let work (n : Nat) : List (Label (List Signal)) := .replicate n (.other (.worker 0))
  [.start .works] ++ work 5 ++ [.other (.pump 0 (.upTo 1)), .other (.pump 0 .nothing)] ++ work 3 ++
    .replicate 4 .take

/-- The state behind it. -/
def stopTaken : Ensemble (List Signal) (List Signal) :=
  (exec replay (initial {} [.ended none]) runToStop).get (by decide +kernel)

/-- Another start has found the worker alive, which has ended since. -/
def startWaited : Ensemble (List Signal) (List Signal) :=
  (exec replay stopTaken [.start .works, .other (.worker 0)]).get (by decide +kernel)

/-- The start has gone on. -/
def startedAgain : Ensemble (List Signal) (List Signal) :=
  (startWaited.step replay .goOn).get (by decide +kernel)

theorem exec_runToStop : exec replay (initial {} [.ended none]) runToStop = some stopTaken :=
  (Option.some_get _).symm

/-- The start that comes while the worker before is still alive is not ignored: it waits for the
worker and launches. -/
theorem idle_of_stopped_startedAgain :
    stopTaken.engine.isAlive 0 = true ∧ 0 + 1 = stopTaken.engine.runs.size ∧
      .delivered 0 (.stopped .finished) ∈ stopTaken.log ∧ stopTaken.engine.isRunning = false ∧
      stopTaken.Answers replay (.start .works) (.ok ()) startedAgain ∧ startedAgain.Launched 1 := by
  have last : 0 + 1 = stopTaken.engine.runs.size := by decide +kernel
  have stopped : .delivered 0 (.stopped .finished) ∈ stopTaken.log := by decide +kernel
  obtain ⟨⟨_, still⟩, _, _, _, start, _⟩ := idle_of_stopped exec_runToStop last stopped
  have answers : stopTaken.Answers replay (.start .works) (.ok ()) startedAgain := by
    have waits : exec replay stopTaken [.start .works, .other (.worker 0)] = some startWaited :=
      (Option.some_get _).symm
    have none : reply replay stopTaken [.start .works, .other (.worker 0)] = none :=
      Option.isNone_iff_eq_none.mp (by decide +kernel)
    exact ⟨_, .goOn, startWaited, [.other (.worker 0), .goOn], rfl, waits, none,
      (Option.some_get _).symm, rfl⟩
  obtain ⟨_, _, told⟩ := start .works (by decide +kernel)
  refine ⟨by decide +kernel, last, stopped, still, answers, ?_⟩
  exact ((told _ _ answers).resolve_left (by rintro ⟨_, ⟨⟩⟩)).2

end Ensemble
end ScriptHost
