import ScriptHost.Proofs.Control.Stops
import ScriptHost.Proofs.Script.Lines

/-!
# Scripts that are stopped

A worker answers a line whose run has its token set with a stop, and the script
then has an error of the host raised at the line, in place of its first
instruction. A protected call can catch the error. But the token stays set, so
that the next line that is shown, in whatever calls, meets with the same.

* `Machine.Struck`: the error is raised at the line a machine shows.
* `Ensemble.Begins`: a line that was shown goes on.
* `Ensemble.Halted`: from here on no line begins, each that is shown is struck,
  and then the run ends cancelled.
* `Ensemble.stops_arrive`: a request halts the run that was the running one, and
  nothing else has a run cancelled but that it is given up.
-/
namespace ScriptHost

namespace Script

/-- A value is an error of the host, with the place where it was raised. -/
def Heap.Wraps (h : Heap) (v : Value) (e : HostError) : Prop :=
  ∃ u trace, v = .userdata u ∧ h.userdata[u]? = some (.failure (.callback e trace))

namespace Machine

/-- An error of the host is raised at the line that a machine shows, in place of the instruction. The
same functions are under way, the same handler sees the error, and nothing is shown to the hook
until the error is caught. -/
structure Struck (e : HostError) (m m' : Machine) : Prop where
  raises : ∃ v, m'.todo = .raise v ∧ m'.heap.Wraps v e
  frames : m'.frame = m.frame ∧ m'.callers = m.callers
  stack : m'.stack = m.stack
  handler : m'.handler = m.handler
  quiet : m'.allowHook = false

theorem struck_interrupt (m : Machine) (e : HostError) : Struck e m (m.interrupt e) where
  raises := ⟨_, rfl, _, _, rfl, Array.getElem?_push_size⟩
  frames := ⟨rfl, rfl⟩
  stack := rfl
  handler := rfl
  quiet := rfl

end Machine
end Script

namespace Ensemble

open Script

variable {s t : Ensemble World Execution} {settings : Settings} {world : World} {id : Nat}
  {ls : List (Label World)}

/-- A line of a run begins: the script has shown it, and its first instruction is next. -/
def Begins (s s' : Ensemble World Execution) (id : Nat) : Prop :=
  ∃ m n m', (s.engine.run id).stage = .testing (.loaded m) ∧ m.todo = .line n ∧
    (s'.engine.run id).stage = .executing (.loaded m') ∧ m'.todo = .again

/-- A run is stopped for good. -/
structure Halted (s : Ensemble World Execution) (id : Nat) : Prop where
  /-- Whenever the hook has been told of a line, it answers with the error, wherever the line is and
  whatever errors were caught before; and then the run ends cancelled. -/
  strikes : ∀ after t p, exec interpreter s after = some t → (t.engine.run id).stage = .testing p →
    ∃ m n m' t', p = .loaded m ∧ m.todo = .line n ∧
      t.step interpreter (.other (.worker id)) = some t' ∧
      (t'.engine.run id).stage = .executing (.loaded m') ∧ m.Struck Execution.cancelled m' ∧
      ∀ rest u o, exec interpreter t' rest = some u → u.Ends id o → o = .cancelled
  /-- No line begins any more. -/
  rests : ∀ after t l t', exec interpreter s after = some t → t.step interpreter l = some t' →
    ¬Begins t t' id

/-- What is tested is a line that the script shows. -/
theorem Reached.shows {ok : Label World → Prop} {p : Execution}
    (h : Reached interpreter ok (initial settings world) s) (hid : id < s.engine.runs.size)
    (hp : (s.engine.run id).stage = .testing p) : ∃ m n, p = .loaded m ∧ m.todo = .line n := by
  have attended := h.attended hid
  rw [hp] at attended
  obtain ⟨_, m, n, rfl, line, _⟩ := attended
  exact ⟨m, n, rfl, line⟩

/-- A line that is tested while the token is set does not begin. -/
theorem not_begins (hid : id < s.engine.runs.size) (token : (s.engine.run id).token = true)
    {l : Label World} (h : s.step interpreter l = some t) : ¬Begins s t id := by
  rintro ⟨m, n, m', testing, line, executing, again⟩
  rcases step_shared hid h with ⟨_, own⟩ | meddled
  · have stage : (t.engine.run id).stage = .executing (.loaded (m.interrupt Execution.cancelled)) := by
      have stage : (t.engine.run id).stage = (Run.workerStep interpreter id (s.shared id)).run.stage :=
        congrArg (fun x : Run.Shared World Execution => x.run.stage) own
      rw [stage]
      simp only [Run.workerStep, shared, testing, token]
      rfl
    obtain rfl : m.interrupt Execution.cancelled = m' := by simpa [stage] using executing
    obtain ⟨v, raise, _⟩ := (Machine.struck_interrupt m Execution.cancelled).raises
    rw [raise] at again
    cases again
  · rcases meddled.stage with same | ⟨o, draining, _⟩
    · rw [executing, testing] at same
      cases same
    · rw [testing] at draining
      cases draining

/-- A line that is tested while the token is clear begins. -/
theorem begins_of_clear {ok : Label World → Prop}
    (h : Reached interpreter ok (initial settings world) s) (hid : id < s.engine.runs.size)
    (test : .test false ∈ Run.deeds interpreter id (s.shared id)) :
    Begins s (s.act interpreter (.worker id)) id := by
  obtain ⟨p, hp : (s.engine.run id).stage = .testing p⟩ := Run.test_of_deeds test
  have clear : (s.engine.run id).token = false := by
    simpa [Run.deeds, shared, hp] using test
  obtain ⟨m, n, rfl, line⟩ := h.shows hid hp
  refine ⟨m, n, m.proceed, hp, line, ?_, rfl⟩
  have here : s.engine.runs[id]? = some (s.engine.run id) := by simp [Engine.run, hid]
  have runs : (s.act interpreter (.worker id)).engine.runs = s.engine.runs.setIfInBounds id
      (Run.workerStep interpreter id ⟨s.engine.run id, s.engine.queue, s.engine.world⟩).run := by
    simp [act, Engine.step, here]
  rw [run_set hid runs, if_pos rfl]
  simp only [Run.workerStep, hp, clear]
  rfl

theorem halted_of_token (h : Reached interpreter (fun _ => True) (initial settings world) s)
    (hid : id < s.engine.runs.size) (token : (s.engine.run id).token = true) : s.Halted id where
  strikes := by
    intro after t p ht hp
    obtain ⟨hidt, tokent⟩ := h.later (P := fun t => (t.engine.run id).token = true) hid
      (fun c => c.token_of) token ht
    have reached := h.of_exec ht
    obtain ⟨m, n, rfl, line⟩ := reached.shows hidt hp
    obtain ⟨stage, ends⟩ := stopped_of_testing reached hidt tokent hp
    exact ⟨m, n, _, _, rfl, line, rfl, stage, Machine.struck_interrupt m _, ends⟩
  rests := by
    intro after t l t' ht step
    obtain ⟨hidt, tokent⟩ := h.later (P := fun t => (t.engine.run id).token = true) hid
      (fun c => c.token_of) token ht
    exact not_begins hidt tokent step

/-- **Requests arrive, and at their run.** A stop or a shutdown called for while a run is the running
one halts it once the token is set, and in particular once the call is over; a run is cancelled only
if a stop was requested of it, or it was given up; and a token that is set stays so. -/
theorem stops_arrive (h : exec interpreter (initial settings world) ls = some s)
    (hid : id < s.engine.runs.size) :
    (∀ request between t, (request = .stop ∨ request = .shutdown) → s.engine.current = some id →
      s.engine.isRunning = true → exec interpreter s (request :: between) = some t →
      (∀ leave, t.call ≠ .cancelling id leave) → t.Halted id) ∧
    ((s.Ends id .cancelled ∨ (s.engine.run id).token = true) →
      Requested interpreter (initial settings world) ls id ∨ s.GivenUp id) ∧
    ∀ later t, (s.engine.run id).token = true → exec interpreter s later = some t →
      (t.engine.run id).token = true := by
  have reached := Reached.start.of_exec h
  refine ⟨fun request between t call current running ht past => ?_, ?_, fun later t => ?_⟩
  · obtain ⟨reached', hid', token⟩ := stops_of_request reached hid call current running ht past
    exact halted_of_token reached' hid' token
  · rintro (ends | token)
    · exact requested_of_ends h hid ends
    · exact requested_of_token h hid token
  · exact reached.token_of hid

/-- A script of two lines is set and launched. -/
def twoLines : List (Label World) := [.setScript "local a\nlocal b = a".toUTF8, .start .works]

/-- Its worker has not begun. -/
def twoLinesLaunched : Ensemble World Execution :=
  (exec interpreter (initial {} {}) twoLines).get (by decide +kernel)

/-- A stop was requested of it. -/
def twoLinesAsked : Ensemble World Execution :=
  (exec interpreter twoLinesLaunched [.stop, .goOn, .goOn]).get (by decide +kernel)

/-- What the worker does until it tests the token at the first line. -/
def untilTested : List (Label World) := .replicate 6 (.other (.worker 0))

/-- Nobody has requested a stop, and the token is tested. -/
def twoLinesTested : Ensemble World Execution :=
  (exec interpreter (initial {} {}) (twoLines ++ untilTested)).get (by decide +kernel)

/-- A stop was requested, and the script has ended behind the test. -/
def twoLinesStopped : List (Label World) :=
  twoLines ++ [.stop, .goOn, .goOn] ++ untilTested ++ .replicate 3 (.other (.worker 0))

def twoLinesEnded : Ensemble World Execution :=
  (exec interpreter (initial {} {}) twoLinesStopped).get (by decide +kernel)

theorem exec_twoLinesLaunched : exec interpreter (initial {} {}) twoLines = some twoLinesLaunched :=
  (Option.some_get _).symm

theorem exec_twoLinesAsked : exec interpreter twoLinesLaunched [.stop, .goOn, .goOn] = some twoLinesAsked :=
  (Option.some_get _).symm

theorem exec_twoLinesTested :
    exec interpreter (initial {} {}) (twoLines ++ untilTested) = some twoLinesTested :=
  (Option.some_get _).symm

theorem exec_twoLinesEnded : exec interpreter (initial {} {}) twoLinesStopped = some twoLinesEnded :=
  (Option.some_get _).symm

/-- A stop comes before the worker has begun: its script has the error raised at the first line and
never shows the second, and the run ends cancelled. The line begins where nobody asks for a stop. -/
theorem stops_arrive_twoLines :
    twoLinesAsked.Halted 0 ∧ twoLinesEnded.Ends 0 .cancelled ∧
      Requested interpreter (initial {} {}) twoLinesStopped 0 ∧
      .published 0 1 ∈ twoLinesEnded.log ∧ .published 0 2 ∉ twoLinesEnded.log ∧
      Begins twoLinesTested (twoLinesTested.act interpreter (.worker 0)) 0 := by
  have size : 0 < twoLinesLaunched.engine.runs.size := by decide +kernel
  have size' : 0 < twoLinesEnded.engine.runs.size := by decide +kernel
  have halted := (stops_arrive exec_twoLinesLaunched size).1 .stop [.goOn, .goOn] twoLinesAsked
    (.inl rfl) (by decide +kernel) (by decide +kernel) exec_twoLinesAsked (by decide +kernel)
  have ends : twoLinesEnded.Ends 0 .cancelled := .inl (by decide +kernel)
  have reason := (stops_arrive exec_twoLinesEnded size').2.1 (.inl ends)
  have requested := reason.resolve_right <| by
    rintro (call | note)
    · exact absurd call (by decide +kernel)
    · exact absurd note (by decide +kernel)
  have begins : Begins twoLinesTested (twoLinesTested.act interpreter (.worker 0)) 0 :=
    begins_of_clear (Reached.start.of_exec exec_twoLinesTested) (by decide +kernel)
      (by decide +kernel)
  exact ⟨halted, ends, requested, by decide +kernel, by decide +kernel, begins⟩

end Ensemble
end ScriptHost
