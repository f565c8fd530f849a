import ScriptHost.Proofs.Control.Sight
import ScriptHost.Proofs.Silence.Engines

/-!
# The others and the controller go on apart

Workers and pumps look at no call, and not at the worker that the engine holds;
the receiver looks at a call only to see whether it leaves messages alone. So
their steps are the same to a state in which the controller is in another call
(`turned`).

* `step_turned`, `exec_turned`: what they do there is what they do here.
* `exec_still`: and they leave the call and the message in hand alone.
* `exec_untouched`: what the controller finds when it goes on is as it was, also
  where messages were taken.
-/
namespace ScriptHost

variable {ω σ : Type} {I : Interpreter ω σ}

/-- A step of a worker or a pump, or of the world. -/
def Label.isForeign : Label ω → Bool
  | .other _ | .dropPump _ | .outside _ => true
  | _ => false

/-- Messages are taken during this call, or no call goes on. -/
def Call.receives : Call → Bool
  | .idle | .waiting _ _ => true
  | _ => false

/-- A run is put where it is already. -/
theorem Engine.set_same {e : Engine ω σ} {id : Nat} {r : Run σ} (here : e.runs[id]? = some r) :
    e.runs.setIfInBounds id r = e.runs := by
  apply Array.ext_getElem?
  intro i
  rw [Array.getElem?_setIfInBounds]
  split
  · subst i
    rw [here, if_pos (Array.getElem?_eq_some_iff.mp here).1]
  · rfl

/-- A change that leaves a run as it is leaves the engine as it is. -/
theorem Engine.modifyRun_same {e : Engine ω σ} {id : Nat} {f : Run σ → Run σ}
    (h : f (e.run id) = e.run id) : e.modifyRun id f = e := by
  have same : e.runs.modify id f = e.runs := by
    cases hr : e.runs[id]? with
    | none => exact Ensemble.modify_of_none f hr
    | some r =>
      have here : e.run id = r := by simp [Engine.run, hr]
      rw [here] at h
      rw [Ensemble.modify_of_some f hr, h, Engine.set_same hr]
  rw [Engine.modifyRun, same]

/-- Nobody else looks at the worker that the engine holds. -/
theorem Engine.step_current (e : Engine ω σ) (current : Option Nat) (a : Actor) :
    { e with current }.step I a = { e.step I a with current } := by
  cases a with
  | worker id | pump id g => cases h : e.runs[id]? <;> simp [Engine.step, h]
  | patience id | fault id => rfl

theorem Engine.current_step (e : Engine ω σ) (a : Actor) : (e.step I a).current = e.current := by
  cases a with
  | worker id | pump id g => cases h : e.runs[id]? <;> simp [Engine.step, h]
  | patience id | fault id => rfl

namespace Ensemble

variable {s s' t u : Ensemble ω σ} {l : Label ω} {ls : List (Label ω)}

/-- The same with the controller in the call `c`, and with what `f` makes of the worker it holds. -/
def turned (s : Ensemble ω σ) (c : Call) (f : Option Nat → Option Nat) : Ensemble ω σ :=
  { s with call := c, engine.current := f s.engine.current }

/-- A step of a worker, a pump or the world is made whatever the controller does. -/
theorem step_turned (hl : l.isForeign = true) (c : Call) (f : Option Nat → Option Nat) :
    (s.turned c f).step I l = (s.step I l).map (·.turned c f) := by
  cases l with
  | other a =>
    simp only [step, Option.map_some, act, turned, Engine.step_current, Engine.current_step]
  | dropPump id =>
    by_cases gone : (s.engine.queue.slot id).abandoned = true
    · simp only [step, turned, gone, if_true, Option.map_some]
      rfl
    · simp [step, turned, gone]
  | outside w => rfl
  | _ => cases hl

theorem exec_turned (hls : ∀ l ∈ ls, l.isForeign = true) (c : Call) (f : Option Nat → Option Nat) :
    exec I (s.turned c f) ls = (exec I s ls).map (·.turned c f) := by
  induction ls generalizing s with
  | nil => rfl
  | cons l ls ih =>
    rw [exec, exec, step_turned (hls l List.mem_cons_self)]
    cases s.step I l with
    | none => rfl
    | some s₁ => exact ih fun l hl => hls l (List.mem_cons_of_mem _ hl)

theorem step_still (hl : l.isForeign = true) (h : s.step I l = some s') :
    s'.call = s.call ∧ s'.taking = s.taking := by
  cases l with
  | other a => cases h; exact ⟨rfl, rfl⟩
  | dropPump id =>
    simp only [step, Option.ite_none_right_eq_some, Option.some.injEq] at h
    obtain ⟨_, rfl⟩ := h
    exact ⟨rfl, rfl⟩
  | outside w => cases h; exact ⟨rfl, rfl⟩
  | _ => cases hl

theorem exec_still (hls : ∀ l ∈ ls, l.isForeign = true) (h : exec I s ls = some s') :
    s'.call = s.call ∧ s'.taking = s.taking := by
  induction ls generalizing s with
  | nil => cases h; exact ⟨rfl, rfl⟩
  | cons l ls ih =>
    obtain ⟨s₁, step, h⟩ := Option.bind_eq_some_iff.mp h
    obtain ⟨call, taking⟩ := step_still (hls l List.mem_cons_self) step
    rw [← call, ← taking]
    exact ih (fun l hl => hls l (List.mem_cons_of_mem _ hl)) h

/-! ## The receiver, too -/

/-- Messages are taken during a call that receives. -/
theorem step_take_eq (s : Ensemble ω σ) (h : s.call.receives = true) : s.step I .take = s.take := by
  cases hc : s.call <;> simp_all [step, Call.receives]

theorem receives_of_take (h : s.step I .take = some s') :
    s.call.receives = true ∧ s.take = some s' := by
  cases hc : s.call <;> simp_all [step, Call.receives]

/-- The controller finds the same as before. -/
structure Untouched (s s' : Ensemble ω σ) : Prop where
  call : s'.call = s.call
  current : s'.engine.current = s.engine.current
  shown : s'.engine.shown = s.engine.shown
  payload : s'.engine.payload = s.engine.payload
  leaked : s'.engine.leaked = s.engine.leaked

theorem Untouched.trans (h : Untouched s t) (h' : Untouched t u) : Untouched s u :=
  ⟨h'.call.trans h.call, h'.current.trans h.current, h'.shown.trans h.shown,
    h'.payload.trans h.payload, h'.leaked.trans h.leaked⟩

theorem take_untouched (h : s.take = some s') : Untouched s s' := by
  cases ht : s.taking with
  | resting =>
    simp only [take, ht, Option.map_eq_some_iff] at h
    obtain ⟨_, _, rfl⟩ := h
    exact ⟨rfl, rfl, rfl, rfl, rfl⟩
  | testing m =>
    simp only [take, ht] at h
    split at h
    · cases h
      exact ⟨rfl, rfl, rfl, rfl, rfl⟩
    · cases m <;> cases h <;> exact ⟨rfl, rfl, rfl, rfl, rfl⟩
  | _ =>
    simp only [take, ht, Option.some.injEq] at h
    subst h
    exact ⟨rfl, rfl, rfl, rfl, rfl⟩

/-- A step of anybody else leaves to the controller what is the controller's. -/
theorem step_untouched (hl : l.isOfCall = false) (h : s.step I l = some s') : Untouched s s' := by
  cases l with
  | take => exact take_untouched (receives_of_take h).2
  | other a =>
    cases h
    cases a with
    | worker id | pump id g =>
      cases hr : s.engine.runs[id]? <;> constructor <;> simp [act, Engine.step, hr]
    | patience id | fault id => exact ⟨rfl, rfl, rfl, rfl, rfl⟩
  | dropPump r =>
    simp only [step, Option.ite_none_right_eq_some, Option.some.injEq] at h
    obtain ⟨_, rfl⟩ := h
    exact ⟨rfl, rfl, rfl, rfl, rfl⟩
  | outside w =>
    cases h
    exact ⟨rfl, rfl, rfl, rfl, rfl⟩
  | _ => cases hl

theorem exec_untouched (hls : ∀ l ∈ ls, l.isOfCall = false) (h : exec I s ls = some t) :
    Untouched s t := by
  induction ls generalizing s with
  | nil =>
    cases h
    exact ⟨rfl, rfl, rfl, rfl, rfl⟩
  | cons l ls ih =>
    obtain ⟨own, rest⟩ := List.forall_mem_cons.mp hls
    obtain ⟨s₁, step, h⟩ := Option.bind_eq_some_iff.mp h
    exact (step_untouched own step).trans (ih rest h)

end Ensemble
end ScriptHost
