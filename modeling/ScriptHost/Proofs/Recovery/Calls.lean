import ScriptHost.Proofs.Control.Redundant
import ScriptHost.Proofs.Recovery.States

/-!
# Calls behind starts that were refused

The controller finds the engine of a state with extra runs as that of the other
state, once something was launched behind them (`Same`). Until then it finds it
without a worker, where the other may hold one that has ended (`Freed`): the
first of the attempts has waited for it. So a start or a shutdown takes a step
more in the other state, and answers the same.

* `Same.step_call`, `Freed.step_call`: what a call does in both.
* `Beside.step`: every step has its like in the other state, and the answer is
  the same.
* `Beside.resembles`: what the controller can see is the same.
-/
namespace ScriptHost

variable {ω σ : Type} {I : Interpreter ω σ} {x : Extra}

/-- What the controller is in the middle of, under the number that the run has in the other
history. -/
def Call.place (x : Extra) : Call → Call
  | .idle => .idle
  | .cancelling r leave => .cancelling (x.place r) leave
  | .marking r leave => .marking (x.place r) leave
  | .waiting r next => .waiting (x.place r) next
  | .abandoning r => .abandoning (x.place r)
  | .silencing r => .silencing (x.place r)

theorem Call.receives_place (c : Call) : (c.place x).receives = c.receives := by
  cases c <;> rfl

theorem Label.place_of_call {l : Label ω} (hl : l.isOfCall = true) : l.place x = l := by
  cases l <;> first | rfl | cases hl

/-- What a start answers that comes to its launch. -/
def Launch.answer : Launch → Except Failure Unit
  | .works => .ok ()
  | .noChannel cause => .error (.channel cause)
  | .noThread cause _ _ => .error (.spawn cause)

theorem Launch.answer_eq (e : Engine ω σ) (l : Launch) : (e.launch l).1 = l.answer := by
  cases l <;> rfl

theorem Engine.setScript_kept (e : Engine ω σ) (source : ByteArray) :
    (e.setScript source).2.current = e.current ∧ (e.setScript source).2.shown = e.shown := by
  unfold Engine.setScript
  split <;> exact ⟨rfl, rfl⟩

theorem Engine.setSearchDirs_kept (e : Engine ω σ) (dirs : List String) :
    (e.setSearchDirs dirs).2.current = e.current ∧ (e.setSearchDirs dirs).2.shown = e.shown := by
  unfold Engine.setSearchDirs
  split <;> exact ⟨rfl, rfl⟩

namespace Ensemble

/-- The answers of the calls that have ended, the first first. -/
def answers (I : Interpreter ω σ) (s : Ensemble ω σ) (ls : List (Label ω)) :
    List (Except Failure Unit) := (watch I s ls).filterMap (·.answer)

variable {s s' t t' u : Ensemble ω σ} {l : Label ω} {ls ls' : List (Label ω)} {id : Nat}
  {settings : Settings} {world : ω}

theorem answers_cons (h : s.step I l = some s') :
    answers I s (l :: ls) = (s.answer? l).toList ++ answers I s' ls := by
  rw [answers, watch_cons h, List.filterMap_cons,
    show (s.sight l s').answer = s.answer? l from rfl]
  cases s.answer? l <;> rfl

theorem answer?_of_apart (s : Ensemble ω σ) (hl : l.isOfCall = false) : s.answer? l = none := by
  cases l <;> first | rfl | cases hl

/-- Nobody but the controller is answered. -/
theorem answers_apart (hls : ∀ l ∈ ls, l.isOfCall = false) : answers I s ls = [] := by
  induction ls generalizing s with
  | nil => rfl
  | cons l ls ih =>
    obtain ⟨own, rest⟩ := List.forall_mem_cons.mp hls
    cases h : s.step I l with
    | none => simp [answers, watch, h]
    | some s' => rw [answers_cons h, answer?_of_apart s own, ih rest]; rfl

/-! ## The same call in both -/

/-- The controller finds the same run in both, under its number in each. -/
structure Same (x : Extra) (s t : Ensemble ω σ) : Prop extends Added x s t where
  call : s.call = t.call.place x
  current : s.engine.current = t.engine.current.map x.place
  shown : s.engine.shown = t.engine.shown.place x

/-- A launch gives the controller the same run in both. -/
theorem Added.launch (a : s.Added x t)
    (current : s.engine.current = t.engine.current.map x.place) (l : Launch) :
    (s.launch l).Same x (t.launch l) := by
  have number := a.engine.queue.openRun.1
  refine ⟨⟨(a.engine.launch l).2, a.taking, ?_⟩, rfl, ?_, ?_⟩
  · simp only [Ensemble.launch, Note.deliveries_append, List.filter_append, List.map_append, a.heard]
    rfl
  · cases l with
    | works => simp [Ensemble.launch, Engine.launch, number]
    | noChannel => simpa [Ensemble.launch, Engine.launch, Engine.failLaunch] using current
    | noThread =>
      simp only [Ensemble.launch, Engine.launch_noThread]
      simpa [Engine.failLaunch] using current
  · cases l <;> simp [Ensemble.launch, Engine.launch, Engine.failThread, Engine.failLaunch, number, Shown.place]

namespace Same

theorem isRunning_eq (a : s.Same x t) : s.engine.isRunning = t.engine.isRunning :=
  a.engine.isRunning_eq a.current a.shown

theorem isFree (a : s.Same x t) (h : s.isFree = true) : t.isFree = true := by
  obtain ⟨idle, rest⟩ := isFree_iff.mp h
  refine isFree_iff.mpr ⟨?_, a.resting rest⟩
  have call := a.call
  rw [idle] at call
  cases ht : t.call <;> rw [ht] at call <;> first | rfl | cases call

/-- The others go on, in both or in the first alone. -/
theorem of_untouched (a : s.Same x t) (added : s'.Added x t') (own : Untouched s s')
    (own' : Untouched t t') : s'.Same x t' :=
  ⟨added, by rw [own.call, own'.call, a.call], by rw [own.current, own'.current, a.current],
    by rw [own.shown, own'.shown, a.shown]⟩

/-- The controller is in another call. -/
theorem with_call (a : s.Same x t) (c : Call) :
    Same x { s with call := c.place x } { t with call := c } :=
  ⟨⟨a.engine, a.taking, a.heard⟩, rfl, a.current, a.shown⟩

/-- The controller changes a run and is in another call. -/
theorem with_run (a : s.Same x t) (f : Run σ → Run σ) (j : Nat) (c : Call) :
    Same x { s with engine := s.engine.modifyRun (x.place j) f, call := c.place x }
      { t with engine := t.engine.modifyRun j f, call := c } :=
  ⟨⟨a.engine.modifyRun f j, a.taking, a.heard⟩, rfl, a.current, a.shown⟩

/-- The controller changes what is to be launched next. -/
theorem with_engine (a : s.Same x t) {e f : Engine ω σ} (h : e.Added x f)
    (current : e.current = f.current.map x.place) (shown : e.shown = f.shown.place x) :
    Same x { s with engine := e } { t with engine := f } :=
  ⟨⟨h, a.taking, a.heard⟩, a.call, current, shown⟩

theorem proceed (a : s.Same x t) (next : Option Launch) :
    (s.proceed next).Same x (t.proceed next) := by
  cases next with
  | some l => exact a.launch a.current l
  | none => exact a.with_call .idle

theorem await (a : s.Same x t) (next : Option Launch) : (s.await next).Same x (t.await next) := by
  have taken : Same x { s with engine := { s.engine with current := none } }
      { t with engine := { t.engine with current := none } } :=
    a.with_engine { a.engine with } rfl a.shown
  unfold Ensemble.await Engine.takeWorker
  rw [a.current]
  cases t.engine.current with
  | some j => exact taken.with_call (.waiting j next)
  | none => exact taken.proceed next

theorem afterStop (a : s.Same x t) (leave : Bool) : (s.afterStop leave).Same x (t.afterStop leave) := by
  cases leave with
  | true => exact a.await none
  | false => exact a.with_call .idle

theorem requestStop (a : s.Same x t) (leave : Bool) :
    (s.requestStop leave).Same x (t.requestStop leave) := by
  unfold Ensemble.requestStop
  rw [a.isRunning_eq, a.current]
  cases t.engine.current with
  | none => exact a.afterStop leave
  | some j =>
    dsimp only [Option.map_some]
    split
    · exact a.with_call (.cancelling j leave)
    · exact a.afterStop leave

theorem goOn (a : s.Same x t) (h : s.goOn = some s') : ∃ t', t.goOn = some t' ∧ s'.Same x t' := by
  unfold Ensemble.goOn at h ⊢
  rw [a.call] at h
  cases hc : t.call with
  | idle => simp [hc, Call.place] at h
  | cancelling j leave =>
    simp only [hc, Call.place, Option.some.injEq] at h
    subst h
    exact ⟨_, rfl, a.with_run _ j (.marking j leave)⟩
  | marking j leave =>
    simp only [hc, Call.place, Option.some.injEq] at h
    subst h
    have marked : Same x { s with engine := s.engine.showRequest (x.place j) }
        { t with engine := t.engine.showRequest j } :=
      a.with_engine (a.engine.modifyRun _ j) a.current a.shown
    exact ⟨_, rfl, marked.afterStop leave⟩
  | waiting j next =>
    simp only [hc, Call.place, a.engine.isAlive_eq] at h
    cases alive : t.engine.isAlive j with
    | true => simp [alive] at h
    | false =>
      simp only [alive, Bool.false_eq_true, if_false, Option.some.injEq] at h ⊢
      subst h
      exact ⟨_, rfl, a.proceed next⟩
  | abandoning j =>
    simp only [hc, Call.place, Option.some.injEq] at h
    subst h
    exact ⟨_, rfl, a.with_run _ j (.silencing j)⟩
  | silencing j =>
    simp only [hc, Call.place, Option.some.injEq] at h
    subst h
    refine ⟨_, rfl, ⟨a.engine.silence j, a.taking, ?_⟩, rfl, a.current, rfl⟩
    simp only [Note.deliveries_append, List.filter_append, List.map_append, a.heard]
    rfl

/-- A call answers the same. -/
theorem answer_eq (a : s.Same x t) (hl : l.isOfCall = true) : s.answer? l = t.answer? l := by
  have after (next : Option Launch) : s.answerAfter next = t.answerAfter next := by
    cases next with
    | none => rfl
    | some launch => exact (launch.answer_eq _).trans (launch.answer_eq _).symm
  have held : s.engine.current.isSome = t.engine.current.isSome := by
    rw [a.current, Option.isSome_map]
  cases l with
  | setScript source => exact congrArg some (a.engine.setScript a.isRunning_eq source).1
  | setSearchDirs dirs => exact congrArg some (a.engine.setSearchDirs a.isRunning_eq dirs).1
  | start l => simp only [answer?, a.isRunning_eq, held, after]
  | stop => simp only [answer?, a.isRunning_eq]
  | shutdown => simp only [answer?, held, after]
  | goOn =>
    simp only [answer?, a.call]
    cases t.call <;>
      simp only [Call.place, held, after, Engine.abandon, a.engine.settings]
  | giveUp => rfl
  | _ => cases hl

/-- A step of a call in the first is one in the second. -/
theorem step_call (a : s.Same x t) (hl : l.isOfCall = true) (h : s.step I l = some s') :
    ∃ t', t.step I l = some t' ∧ s'.Same x t' := by
  cases l with
  | setScript source =>
    simp only [Ensemble.step, Option.ite_none_right_eq_some, Option.some.injEq] at h
    obtain ⟨free, rfl⟩ := h
    obtain ⟨current, shown⟩ := s.engine.setScript_kept source
    obtain ⟨current', shown'⟩ := t.engine.setScript_kept source
    exact ⟨_, by simp only [Ensemble.step, a.isFree free, if_true],
      a.with_engine (a.engine.setScript a.isRunning_eq source).2 (by rw [current, current', a.current])
        (by rw [shown, shown', a.shown])⟩
  | setSearchDirs dirs =>
    simp only [Ensemble.step, Option.ite_none_right_eq_some, Option.some.injEq] at h
    obtain ⟨free, rfl⟩ := h
    obtain ⟨current, shown⟩ := s.engine.setSearchDirs_kept dirs
    obtain ⟨current', shown'⟩ := t.engine.setSearchDirs_kept dirs
    exact ⟨_, by simp only [Ensemble.step, a.isFree free, if_true],
      a.with_engine (a.engine.setSearchDirs a.isRunning_eq dirs).2 (by rw [current, current', a.current])
        (by rw [shown, shown', a.shown])⟩
  | start launch =>
    simp only [Ensemble.step, Option.ite_none_right_eq_some, Option.some.injEq] at h
    obtain ⟨free, rfl⟩ := h
    refine ⟨_, by simp only [Ensemble.step, a.isFree free, if_true]; rfl, ?_⟩
    rw [a.isRunning_eq]
    split
    · exact a
    · exact a.await (some launch)
  | stop =>
    simp only [Ensemble.step, Option.ite_none_right_eq_some, Option.some.injEq] at h
    obtain ⟨free, rfl⟩ := h
    exact ⟨_, by simp only [Ensemble.step, a.isFree free, if_true], a.requestStop false⟩
  | shutdown =>
    simp only [Ensemble.step, Option.ite_none_right_eq_some, Option.some.injEq] at h
    obtain ⟨free, rfl⟩ := h
    exact ⟨_, by simp only [Ensemble.step, a.isFree free, if_true], a.requestStop true⟩
  | goOn =>
    simp only [Ensemble.step, Option.ite_none_right_eq_some] at h
    obtain ⟨rest, h⟩ := h
    obtain ⟨t', ht, a'⟩ := a.goOn h
    exact ⟨t', by simp only [Ensemble.step, a.resting rest, if_true, ht], a'⟩
  | giveUp =>
    simp only [Ensemble.step, a.call] at h
    cases hc : t.call with
    | waiting j next =>
      simp only [hc, Call.place, Option.ite_none_right_eq_some, Option.some.injEq] at h
      obtain ⟨rest, rfl⟩ := h
      refine ⟨_, ?_, a.with_call (.abandoning j)⟩
      simp only [Ensemble.step, hc, a.resting rest, if_true]
    | _ => simp [hc, Call.place] at h
  | _ => cases hl

end Same

end Ensemble
end ScriptHost
