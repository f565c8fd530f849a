import ScriptHost.Proofs.Control.Rule
import ScriptHost.Proofs.Delivery.Grammar

/-!
# Phases of a run move forward

The worker of a run moves its phase when it begins and when it ends, and the
controller in a step of its own when it has set the token. Whatever the order
in which these come:

* `Treats.rank_le`: no step moves a phase back.
* `phases_forward`: nor does a run of the system, from any state on; what is
  over stays over, a requested stop is not overwritten, and it comes behind the
  token.
-/
namespace ScriptHost

namespace Phase

/-- The place of a phase in the order in which a run passes them. -/
def rank (p : Phase) : Nat := all.idxOf p

theorem rank_le_begin (p : Phase) : p.rank ≤ p.begin.rank := by cases p <;> decide

theorem rank_le_requestStop (p : Phase) : p.rank ≤ p.requestStop.rank := by cases p <;> decide

theorem rank_le_stopped (p : Phase) : p.rank ≤ stopped.rank := by cases p <;> decide

theorem eq_stopped_of_rank {p : Phase} (h : stopped.rank ≤ p.rank) : p = .stopped := by
  revert h
  cases p <;> decide

theorem ne_running_of_rank {p : Phase} (h : stopRequested.rank ≤ p.rank) : p ≠ .running := by
  revert h
  cases p <;> decide

end Phase

variable {ω σ : Type} {I : Interpreter ω σ}

theorem Run.Turn.rank_le {r r' : Run σ} (h : Run.Turn I r r') : r.phase.rank ≤ r'.phase.rank := by
  cases h with
  | pass _ phase _ _ => exact Nat.le_of_eq (by rw [phase])
  | begin => exact r.phase.rank_le_begin
  | test | conclude => exact Nat.le_refl _
  | halt => exact r.phase.rank_le_stopped

namespace Ensemble

variable {s s' : Ensemble ω σ} {l : Label ω} {id : Nat} {settings : Settings} {world : ω}

/-- No step moves a phase back. -/
theorem Treats.rank_le (c : Treats I s s' id) :
    (s.engine.run id).phase.rank ≤ (s'.engine.run id).phase.rank := by
  cases c with
  | turns turn => exact turn.rank_le
  | cancels run => exact Nat.le_of_eq (by rw [run])
  | requests run =>
    rw [run]
    exact (s.engine.run id).phase.rank_le_requestStop

/-- The phases of every run, in every run of the system: `s` is any state of it and `s'` any later
one, and steps of everybody are between them in any order. -/
theorem phases_forward {before after : List (Label ω)}
    (h : exec I (initial settings world) before = some s) (hid : id < s.engine.runs.size)
    (h' : exec I s after = some s') :
    (s.engine.run id).phase.rank ≤ (s'.engine.run id).phase.rank ∧
      ((s.engine.run id).phase = .stopped → (s'.engine.run id).phase = .stopped) ∧
      ((s.engine.run id).phase = .stopRequested → (s'.engine.run id).phase ≠ .running) ∧
      (s.engine.run id).phase ≠ .idle ∧
      ((s.engine.run id).phase = .stopRequested → (s.engine.run id).token = true) := by
  have reached := Reached.start.of_exec h
  have forward := (reached.later (P := fun t => _ ≤ (t.engine.run id).phase.rank) hid
    (fun c le => Nat.le_trans le c.rank_le) (Nat.le_refl _) h').2
  have steady := reached.steady hid
  refine ⟨forward, fun stopped => ?_, fun requested => ?_, steady.ne_idle, steady.token_of_requested⟩
  · exact Phase.eq_stopped_of_rank (stopped ▸ forward)
  · exact Phase.ne_running_of_rank (requested ▸ forward)

/-- A stop is requested before the worker has begun. -/
def requestedEarly : Ensemble (List Signal) (List Signal) :=
  (exec replay (initial {} []) [.start .works, .stop, .goOn, .goOn]).get (by decide +kernel)

/-- The worker has begun after it. -/
def begun : Ensemble (List Signal) (List Signal) :=
  (exec replay requestedEarly (.replicate 2 (.other (.worker 0)))).get (by decide +kernel)

theorem exec_requestedEarly :
    exec replay (initial {} []) [.start .works, .stop, .goOn, .goOn] = some requestedEarly :=
  (Option.some_get _).symm

theorem exec_begun : exec replay requestedEarly (.replicate 2 (.other (.worker 0))) = some begun :=
  (Option.some_get _).symm

/-- The worker does not overwrite the request. -/
theorem phases_forward_requestedEarly :
    (requestedEarly.engine.run 0).phase = .stopRequested ∧ (begun.engine.run 0).stage.phase = .running ∧
      (begun.engine.run 0).phase ≠ .running ∧ (requestedEarly.engine.run 0).token = true := by
  obtain ⟨_, _, kept, _, token⟩ := phases_forward exec_requestedEarly (by decide +kernel : 0 < _) exec_begun
  have requested : (requestedEarly.engine.run 0).phase = .stopRequested := by decide +kernel
  exact ⟨requested, by decide +kernel, kept requested, token requested⟩

end Ensemble
end ScriptHost
