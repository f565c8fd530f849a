import ScriptHost.Proofs.Control.Rule
import ScriptHost.Proofs.Delivery.Order

/-!
# What the controller sees

A call answers with the step with which it ends (`answer?`); between the steps
the controller can ask the engine for its phase, its payload and the like, and
takes the events that are delivered. `Sight` is what it can see of one step, and
`watch` what it sees of a run of the system.

* `answer?_isSome`: a call answers when it ends, and at no other step.
* `answer?_start`, `answer?_finish`: its answer is that of the engine's function.
* `timesOut_iff`: the answer is that the worker did not end in time if and only
  if the call disowns a run.
-/
namespace ScriptHost

variable {ω σ : Type}

/-- A step of the controller that begins a call or goes on with it. -/
def Label.isOfCall : Label ω → Bool
  | .setScript _ | .setSearchDirs _ | .start _ | .stop | .shutdown | .goOn | .giveUp => true
  | _ => false

namespace Ensemble

/-- The answer of a call whose wait is over, and that launches a run or nothing. -/
def answerAfter (s : Ensemble ω σ) : Option Launch → Except Failure Unit
  | some l => (s.engine.launch l).1
  | none => .ok ()

/-- The answer of the call that ends with a step; a stop always answers that all is well. -/
def answer? (s : Ensemble ω σ) : Label ω → Option (Except Failure Unit)
  | .setScript source => some (s.engine.setScript source).1
  | .setSearchDirs dirs => some (s.engine.setSearchDirs dirs).1
  | .start l =>
    if s.engine.isRunning then some (.ok ())
    else if s.engine.current.isSome then none else some (s.answerAfter (some l))
  | .stop => if s.engine.isRunning then none else some (.ok ())
  | .shutdown => if s.engine.current.isSome then none else some (s.answerAfter none)
  | .goOn =>
    match s.call with
    | .marking _ leave => if leave && s.engine.current.isSome then none else some (.ok ())
    | .waiting _ next => some (s.answerAfter next)
    | .silencing id => some (.error (s.engine.abandon id).1)
    | _ => none
  | _ => none

/-- What the controller can see of a step and behind it. -/
structure Sight (ω : Type) where
  /-- The answer of the call that has ended, if one has. -/
  answer : Option (Except Failure Unit)
  /-- The events delivered until then, each with its run. -/
  heard : List (Nat × Event)
  /-- What would be received now. -/
  next : Option Event
  phase : Phase
  running : Bool
  leaked : Nat
  payload : Payload
  settings : Settings
  world : ω

/-- What the controller can see of the step `l` from `s` to `s'`. -/
def sight (s : Ensemble ω σ) (l : Label ω) (s' : Ensemble ω σ) : Sight ω where
  answer := s.answer? l
  heard := Note.deliveries s'.log
  next := s'.engine.queue.receive.1
  phase := s'.engine.phase
  running := s'.engine.isRunning
  leaked := s'.engine.leaked
  payload := s'.engine.payload
  settings := s'.engine.settings
  world := s'.engine.world

/-- What the controller can see while nothing happens. -/
def outlook (s : Ensemble ω σ) : Sight ω := s.sight .take s

/-- What the controller can see of a run of the system. -/
def watch (I : Interpreter ω σ) (s : Ensemble ω σ) : List (Label ω) → List (Sight ω)
  | [] => []
  | l :: ls =>
    match s.step I l with
    | some s' => s.sight l s' :: watch I s' ls
    | none => []

variable {I : Interpreter ω σ} {s s' s'' : Ensemble ω σ} {l : Label ω} {id : Nat}
  {ls ls' : List (Label ω)}

theorem watch_cons (h : s.step I l = some s') :
    watch I s (l :: ls) = s.sight l s' :: watch I s' ls := by
  rw [watch, h]

theorem watch_append (h : exec I s ls = some s') :
    watch I s (ls ++ ls') = watch I s ls ++ watch I s' ls' := by
  induction ls generalizing s with
  | nil =>
    cases h
    rfl
  | cons l ls ih =>
    obtain ⟨s₁, h₁, h₂⟩ := Option.bind_eq_some_iff.mp h
    rw [List.cons_append, watch_cons h₁, watch_cons h₁, ih h₂]
    rfl

/-! ## Answers -/

theorem await_call (s : Ensemble ω σ) (next : Option Launch) :
    (s.await next).call = .idle ↔ s.engine.current = none := by
  unfold await Engine.takeWorker
  cases s.engine.current with
  | some id => simp
  | none => cases next <;> simp [proceed, launch]

theorem afterStop_call (s : Ensemble ω σ) (leave : Bool) :
    (s.afterStop leave).call = .idle ↔ (leave = true → s.engine.current = none) := by
  cases leave <;> simp [afterStop, await_call]

theorem requestStop_call (s : Ensemble ω σ) (leave : Bool) :
    (s.requestStop leave).call = .idle ↔
      s.engine.isRunning = false ∧ (leave = true → s.engine.current = none) := by
  unfold requestStop
  cases hc : s.engine.current with
  | none => simp [afterStop_call, hc, Engine.isRunning]
  | some id => cases s.engine.isRunning <;> simp [afterStop_call, hc]

/-- A call answers with the step with which it ends. -/
theorem answer?_isSome (h : s.step I l = some s') :
    (s.answer? l).isSome = true ↔ l.isOfCall = true ∧ s'.call = .idle := by
  cases l with
  | setScript | setSearchDirs =>
    simp only [step, Option.ite_none_right_eq_some, Option.some.injEq] at h
    obtain ⟨free, rfl⟩ := h
    simp [answer?, Label.isOfCall, (isFree_iff.mp free).1]
  | start launch =>
    simp only [step, Option.ite_none_right_eq_some, Option.some.injEq] at h
    obtain ⟨free, rfl⟩ := h
    cases hr : s.engine.isRunning <;> cases hc : s.engine.current <;>
      simp [answer?, Label.isOfCall, hr, hc, (isFree_iff.mp free).1, await_call]
  | stop =>
    simp only [step, Option.ite_none_right_eq_some, Option.some.injEq] at h
    obtain ⟨_, rfl⟩ := h
    cases hr : s.engine.isRunning <;> simp [answer?, Label.isOfCall, hr, requestStop_call]
  | shutdown =>
    simp only [step, Option.ite_none_right_eq_some, Option.some.injEq] at h
    obtain ⟨_, rfl⟩ := h
    cases hc : s.engine.current <;>
      simp [answer?, Label.isOfCall, hc, requestStop_call, Engine.isRunning]
  | goOn =>
    simp only [step, Option.ite_none_right_eq_some] at h
    obtain ⟨_, h⟩ := h
    unfold goOn at h
    split at h
    · cases h
    · rename_i hc
      cases h
      simp [answer?, hc]
    · rename_i id leave hc
      cases h
      have current : (s.engine.showRequest id).current = s.engine.current := rfl
      cases leave <;> cases hc' : s.engine.current <;>
        simp [answer?, Label.isOfCall, hc, afterStop_call, current, hc']
    · rename_i id next hc
      split at h
      · cases h
      · cases h
        cases next <;> simp [answer?, Label.isOfCall, hc, proceed, launch]
    · rename_i hc
      cases h
      simp [answer?, hc]
    · rename_i hc
      cases h
      simp [answer?, Label.isOfCall, hc]
  | giveUp =>
    simp only [step] at h
    split at h
    · simp only [Option.ite_none_right_eq_some, Option.some.injEq] at h
      obtain ⟨_, rfl⟩ := h
      simp [answer?]
    · cases h
  | take | other | dropPump | outside => simp [answer?, Label.isOfCall]

/-- A start that ends at once answers as it does when it is made at one go. -/
theorem answer?_start {launch : Launch} {answer : Except Failure Unit}
    (h : s.answer? (.start launch) = some answer) : (s.engine.start launch).1 = answer := by
  simp only [answer?] at h
  unfold Engine.start
  cases hr : s.engine.isRunning with
  | true =>
    simp only [hr, if_true, Option.some.injEq] at h
    exact h
  | false =>
    cases hc : s.engine.current with
    | some id => simp [hr, hc] at h
    | none =>
      have same : { s.engine with current := none } = s.engine := by rw [← hc]
      simpa [hr, hc, Engine.finishCurrent, Engine.takeWorker, same, answerAfter] using h

/-- A wait that is over, or was given up, answers as it does when it is made at one go. -/
theorem answer?_finish (h : s.call = .waiting id none ∧ s.engine.isAlive id = false ∨
    s.call = .silencing id ∧ s.engine.isAlive id = true) :
    s.answer? .goOn = some (s.engine.finish id).1 := by
  rcases h with ⟨call, ended⟩ | ⟨call, alive⟩
  · simp [answer?, call, answerAfter, Engine.finish, ended]
  · simp [answer?, call, Engine.finish, alive]

/-- An answer says that a worker did not end in time. -/
def timesOut : Option (Except Failure Unit) → Bool
  | some (.error (.joinTimeout _)) => true
  | _ => false

theorem launch_answer (e : Engine ω σ) (launch : Launch) :
    timesOut (some (e.launch launch).1) = false := by
  cases launch <;> rfl

/-- Only a call that disowns a run says so. -/
theorem timesOut_iff : timesOut (s.answer? l) = true ↔ l = .goOn ∧ ∃ id, s.call = .silencing id := by
  have after (next : Option Launch) : timesOut (some (s.answerAfter next)) = false := by
    cases next with
    | none => rfl
    | some launch => exact launch_answer s.engine launch
  cases l with
  | setScript | setSearchDirs =>
    simp only [answer?, Engine.setScript, Engine.setSearchDirs, Engine.ensureIdle]
    split <;> rename_i h <;> split at h <;> cases h <;> simp [timesOut]
  | start launch =>
    simp only [answer?]
    split
    · simp [timesOut]
    · split
      · simp [timesOut]
      · simp [after]
  | stop =>
    simp only [answer?]
    split <;> simp [timesOut]
  | shutdown =>
    simp only [answer?]
    split
    · simp [timesOut]
    · simp [after]
  | goOn =>
    cases hc : s.call with
    | marking id leave =>
      simp only [answer?, hc]
      split <;> simp [timesOut]
    | waiting id next => simp [answer?, hc, after]
    | silencing id => simp [answer?, hc, timesOut, Engine.abandon]
    | _ => simp [answer?, hc, timesOut]
  | _ => simp [answer?, timesOut]

/-- The call that says so has disowned the run it has waited for. -/
theorem abandoned_of_timesOut (h : s.step I l = some s') (out : timesOut (s.answer? l) = true) :
    ∃ id, s.call = .silencing id ∧ s'.call = .idle ∧ s'.log = s.log ++ [.abandoned id] := by
  obtain ⟨rfl, id, call⟩ := timesOut_iff.mp out
  simp only [step, goOn, call, Option.ite_none_right_eq_some, Option.some.injEq] at h
  obtain ⟨_, rfl⟩ := h
  exact ⟨id, call, rfl, rfl⟩

end Ensemble
end ScriptHost
