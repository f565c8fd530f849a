import ScriptHost.Proofs.Recovery.Calls

/-!
# What follows starts that were refused

The engine is without a worker behind a start that was refused, where it may
still hold one that has ended if no start was tried (`Freed`): the first of the
attempts has waited for that worker. So a start or a shutdown takes a step more
where none was tried, and answers the same; behind that start the controller
finds the same in both (`Same`).

* `Beside.step`: every step has its like in the other state.
* `Beside.resembles`: what can be seen between the steps is the same.
* `Beside.alongside`: so it is for as many steps as are made.
-/
namespace ScriptHost

variable {ω σ : Type} {I : Interpreter ω σ} {x : Extra}

namespace Ensemble

variable {s s' t t' : Ensemble ω σ} {l : Label ω} {ls : List (Label ω)} {id : Nat}
  {settings : Settings} {world : ω}

/-! ## Workers that have ended -/

theorem Treats.ended_of (c : Treats I s s' id) (h : (s.engine.run id).stage.isAlive = false) :
    (s'.engine.run id).stage.isAlive = false := by
  cases c with
  | turns turn =>
    refine Bool.eq_false_iff.mpr fun alive => ?_
    rw [turn.isAlive_of alive] at h
    cases h
  | cancels run | requests run => rwa [run]

/-- A worker that has ended does not come back. -/
theorem Reached.ended_kept (h : Reached I (fun _ => True) (initial settings world) s)
    (hid : id < s.engine.runs.size) (ended : s.engine.isAlive id = false)
    (run : exec I s ls = some t) : t.engine.isAlive id = false := by
  rw [isAlive_run hid] at ended
  obtain ⟨hid', ended'⟩ := h.later (P := fun t => (t.engine.run id).stage.isAlive = false) hid
    (fun c => c.ended_of) ended run
  rwa [isAlive_run hid']

theorem await_of_none (h : s.engine.current = none) (next : Option Launch) :
    s.await next = s.proceed next := by
  have same : { s with engine := { s.engine with current := none } } = s := by rw [← h]
  simp only [await, Engine.takeWorker, h, same]

theorem await_of_some (h : s.engine.current = some id) (next : Option Launch) :
    s.await next =
      { s with engine := { s.engine with current := none }, call := .waiting id next } := by
  simp only [await, Engine.takeWorker, h]

/-- A call that finds a worker which has ended waits for it, and goes on at once. -/
theorem exec_settled {next : Option Launch} (rest : s.taking = .resting)
    (current : s.engine.current = some id) (ended : s.engine.isAlive id = false)
    (first : s.step I l = some (s.await next)) (silent : s.answer? l = none) :
    exec I s [l, .goOn] = some ((s.await next).proceed next) ∧
      answers I s [l, .goOn] = [s.answerAfter next] := by
  rw [await_of_some current] at first ⊢
  generalize hw : ({ s with
    engine := { s.engine with current := none }, call := .waiting id next } : Ensemble ω σ) = w
    at first ⊢
  have waits : w.step I .goOn = some (w.proceed next) := by
    subst hw
    have ended : Engine.isAlive { s.engine with current := none } id = false := ended
    simp only [step, goOn, rest, ended, if_true, Bool.false_eq_true, if_false]
  have told : w.answer? .goOn = some (s.answerAfter next) := by
    subst hw
    simp only [answer?]
    cases next with
    | none => rfl
    | some launch => exact congrArg some ((launch.answer_eq _).trans (launch.answer_eq _).symm)
  refine ⟨by rw [exec, first, Option.bind_some, exec, waits]; rfl, ?_⟩
  rw [answers_cons first, answers_cons waits, silent, told]
  rfl

theorem answers_single (h : s.step I l = some s') : answers I s [l] = (s.answer? l).toList := by
  rw [answers_cons h]
  exact List.append_nil _

/-! ## Without a worker -/

/-- The first engine is without a worker, and that of the second, if it has one, has ended. -/
structure Freed (x : Extra) (s t : Ensemble ω σ) : Prop extends Added x s t where
  idle : s.call = .idle
  idle' : t.call = .idle
  current : s.engine.current = none
  shown : ∃ i, x.has i = true ∧ s.engine.shown = .run i
  ended : ∀ j, t.engine.current = some j → t.engine.isAlive j = false

namespace Freed

theorem still (a : s.Freed x t) : s.engine.isRunning = false := by
  simp only [Engine.isRunning, a.current]

theorem still' (a : s.Freed x t) : t.engine.isRunning = false := by
  unfold Engine.isRunning
  cases hc : t.engine.current with
  | none => rfl
  | some j => simp only [a.ended j hc, Bool.false_and]

theorem isFree (a : s.Freed x t) (h : s.isFree = true) : t.isFree = true :=
  isFree_iff.mpr ⟨a.idle', a.resting (isFree_iff.mp h).2⟩

theorem phase_eq (a : s.Freed x t) : s.engine.phase = .stopped := by
  obtain ⟨i, hi, shown⟩ := a.shown
  obtain ⟨r, here, void⟩ := a.engine.void i hi
  simp only [Engine.phase, shown, here, Option.map_some, Option.getD_some, void.phase]

/-- The others go on, in both or in the first alone. -/
theorem of_untouched (a : s.Freed x t)
    (reached : Reached I (fun _ => True) (initial settings world) t) (added : s'.Added x t')
    (own : Untouched s s') (own' : Untouched t t') (run : exec I t ls = some t') :
    s'.Freed x t' := by
  refine ⟨added, own.call.trans a.idle, own'.call.trans a.idle', own.current.trans a.current,
    by rw [own.shown]; exact a.shown, fun j hj => ?_⟩
  rw [own'.current] at hj
  exact reached.ended_kept (reached.held a.idle' hj).1 (a.ended j hj) run

/-- The controller changes the payload. -/
theorem with_payload (a : s.Freed x t) (g : Payload → Payload) :
    Freed x { s with engine := { s.engine with payload := g s.engine.payload } }
      { t with engine := { t.engine with payload := g t.engine.payload } } :=
  ⟨⟨a.engine.setPayload g, a.taking, a.heard⟩, a.idle, a.idle', a.current, a.shown, a.ended⟩

/-- The worker of the second is waited for. -/
theorem settle (a : s.Freed x t) (c : Call) :
    s.Added x { t with engine := { t.engine with current := none }, call := c } :=
  ⟨{ a.engine with }, a.taking, a.heard⟩

end Freed

/-! ## One step -/

/-- The controller finds the same in both, or the first without a worker. -/
def Beside (x : Extra) (s t : Ensemble ω σ) : Prop := s.Same x t ∨ s.Freed x t

/-- Steps of the second stand for the step `l` of the first: the answers are the same, and so is
what the controller finds behind it. -/
structure Matches (I : Interpreter ω σ) (x : Extra) (s : Ensemble ω σ) (l : Label ω)
    (s' t : Ensemble ω σ) (ls : List (Label ω)) (t' : Ensemble ω σ) : Prop where
  mirrors : l.Mirrors x ls
  run : exec I t ls = some t'
  answers : answers I t ls = (s.answer? l).toList
  beside : s'.Beside x t'

theorem matches_once (hl : l.isOfCall = true) (step : t.step I l = some t')
    (answer : s.answer? l = t.answer? l) (beside : s'.Beside x t') :
    Matches I x s l s' t [l] t' := by
  refine ⟨?_, by simp [exec, step], by rw [answers_single step, answer], beside⟩
  have same := Label.Mirrors.same (x := x) l
  rwa [Label.place_of_call hl] at same

theorem Same.matches (a : s.Same x t) (hl : l.isOfCall = true) (h : s.step I l = some s') :
    ∃ ls t', Matches I x s l s' t ls t' := by
  obtain ⟨t', step, a'⟩ := a.step_call hl h
  exact ⟨[l], t', matches_once hl step (a.answer_eq hl) (.inl a')⟩

namespace Freed

/-- A start behind the attempts; without them it may find a worker, which has ended. -/
theorem matches_start (a : s.Freed x t) (launch : Launch) (h : s.step I (.start launch) = some s') :
    ∃ ls t', Matches I x s (.start launch) s' t ls t' := by
  simp only [step, a.still, Bool.false_eq_true, if_false, await_of_none a.current,
    Option.ite_none_right_eq_some, Option.some.injEq] at h
  obtain ⟨free, rfl⟩ := h
  have free' := a.isFree free
  have answer : s.answer? (.start launch) = some (t.answerAfter (some launch)) := by
    simp only [answer?, a.still, a.current, Option.isSome_none, Bool.false_eq_true, if_false]
    exact congrArg some ((launch.answer_eq _).trans (launch.answer_eq _).symm)
  have first : t.step I (.start launch) = some (t.await (some launch)) := by
    simp only [step, free', a.still', if_true, Bool.false_eq_true, if_false]
  cases hc : t.engine.current with
  | none =>
    rw [await_of_none hc] at first
    refine ⟨_, _, matches_once rfl first ?_ (.inl (a.toAdded.launch ?_ launch))⟩
    · rw [answer]
      simp only [answer?, a.still', hc, Option.isSome_none, Bool.false_eq_true, if_false]
    · rw [a.current, hc, Option.map_none]
  | some j =>
    have silent : t.answer? (.start launch) = none := by
      simp only [answer?, a.still', hc, Option.isSome_some, Bool.false_eq_true, if_false, if_true]
    obtain ⟨run, answers⟩ :=
      exec_settled (isFree_iff.mp free').2 hc (a.ended j hc) first silent
    rw [await_of_some hc] at run
    refine ⟨_, _, .start launch, run, by rw [answers, answer, Option.toList_some], .inl ?_⟩
    exact (a.settle _).launch (by rw [a.current]; rfl) launch

/-- A shutdown behind the attempts does nothing; without them it may find that worker. -/
theorem matches_shutdown (a : s.Freed x t) (h : s.step I .shutdown = some s') :
    ∃ ls t', Matches I x s .shutdown s' t ls t' := by
  have nothing : s.requestStop true = { s with call := .idle } := by
    simp only [requestStop, a.current, afterStop, if_true, await_of_none, proceed]
  simp only [step, nothing, Option.ite_none_right_eq_some, Option.some.injEq] at h
  obtain ⟨free, rfl⟩ := h
  have free' := a.isFree free
  have answer : s.answer? .shutdown = some (.ok ()) := by
    simp only [answer?, a.current, Option.isSome_none, Bool.false_eq_true, if_false]
    rfl
  have first : t.step I .shutdown = some (t.await none) := by
    simp only [step, free', if_true, requestStop, a.still', Bool.false_eq_true, if_false, afterStop]
    cases t.engine.current <;> rfl
  -- a worker that the second state holds is gone behind it, and nothing else is changed
  have freed {c : Option Nat} (hc : c = none ∨ c = t.engine.current) :
      Freed x { s with call := .idle }
        { t with engine := { t.engine with current := c }, call := .idle } := by
    refine ⟨⟨{ a.engine with }, a.taking, a.heard⟩, rfl, rfl, a.current, a.shown, fun j hj => ?_⟩
    rcases hc with rfl | rfl
    · cases hj
    · exact a.ended j hj
  cases hc : t.engine.current with
  | none =>
    rw [await_of_none hc] at first
    refine ⟨_, _, matches_once rfl first ?_ (.inr (freed (.inr rfl)))⟩
    rw [answer]
    simp only [answer?, hc, Option.isSome_none, Bool.false_eq_true, if_false]
    rfl
  | some j =>
    have silent : t.answer? .shutdown = none := by
      simp only [answer?, hc, Option.isSome_some, if_true]
    obtain ⟨run, answers⟩ :=
      exec_settled (isFree_iff.mp free').2 hc (a.ended j hc) first silent
    rw [await_of_some hc] at run
    exact ⟨_, _, .shutdown, run, by rw [answers, answer, Option.toList_some]; rfl,
      .inr (freed (.inl rfl))⟩

/-- A step of a call behind the attempts. -/
theorem matches_call (a : s.Freed x t) (hl : l.isOfCall = true) (h : s.step I l = some s') :
    ∃ ls t', Matches I x s l s' t ls t' := by
  have running : s.engine.isRunning = t.engine.isRunning := a.still.trans a.still'.symm
  cases l with
  | start launch => exact a.matches_start launch h
  | shutdown => exact a.matches_shutdown h
  | setScript source =>
    simp only [step, Engine.setScript, Engine.ensureIdle, a.still, Bool.false_eq_true, if_false,
      Option.ite_none_right_eq_some, Option.some.injEq] at h
    obtain ⟨free, rfl⟩ := h
    refine ⟨_, _, matches_once rfl ?_ ?_ (.inr (a.with_payload fun p => { p with source }))⟩
    · simp only [step, Engine.setScript, Engine.ensureIdle, a.still', a.isFree free,
        Bool.false_eq_true, if_false, if_true]
    · exact congrArg some (a.engine.setScript running source).1
  | setSearchDirs dirs =>
    simp only [step, Engine.setSearchDirs, Engine.ensureIdle, a.still, Bool.false_eq_true, if_false,
      Option.ite_none_right_eq_some, Option.some.injEq] at h
    obtain ⟨free, rfl⟩ := h
    refine ⟨_, _, matches_once rfl ?_ ?_
      (.inr (a.with_payload fun p => { p with searchDirs := dirs }))⟩
    · simp only [step, Engine.setSearchDirs, Engine.ensureIdle, a.still', a.isFree free,
        Bool.false_eq_true, if_false, if_true]
    · exact congrArg some (a.engine.setSearchDirs running dirs).1
  | stop =>
    have free : s.isFree = true := by
      simp only [step, Option.ite_none_right_eq_some] at h
      exact h.1
    obtain rfl : s = s' := Option.some.inj ((step_stop_still a.still free).symm.trans h)
    exact ⟨_, _, matches_once rfl (step_stop_still a.still' (a.isFree free))
      (by simp only [answer?, running]) (.inr a)⟩
  | goOn => simp [step, goOn, a.idle] at h
  | giveUp => simp [step, a.idle] at h
  | _ => cases hl

end Freed

/-- A step in the first state, whoever makes it. -/
theorem Beside.step (a : s.Beside x t)
    (reached : Reached I (fun _ => True) (initial settings world) t) (h : s.step I l = some s') :
    ∃ ls t', Matches I x s l s' t ls t' := by
  cases hl : l.isOfCall with
  | true => exact a.elim (fun a => a.matches hl h) fun a => a.matches_call hl h
  | false =>
    have added : s.Added x t := a.elim (·.toAdded) (·.toAdded)
    have receives : s.call.receives = true → t.call.receives = true := by
      rcases a with a | a
      · rw [a.call, Call.receives_place]
        exact id
      · rw [a.idle']
        exact fun _ => rfl
    obtain ⟨ls, t', mirrors, apart, run, added'⟩ := added.step_apart hl receives h
    have own := step_untouched hl h
    have own' := exec_untouched apart run
    refine ⟨ls, t', mirrors, run, by rw [answers_apart apart, answer?_of_apart s hl]; rfl, ?_⟩
    exact a.imp (·.of_untouched added' own own') (·.of_untouched reached added' own own' run)

/-! ## Many steps -/

/-- What can be seen in the first state is what can be seen in the second, but for the messages of
the extra runs; and the engine has stopped where in the second nothing may ever have been started. -/
structure Resembles (x : Extra) (s t : Ensemble ω σ) : Prop where
  call : s.call = t.call.place x
  payload : s.engine.payload = t.engine.payload
  settings : s.engine.settings = t.engine.settings
  leaked : s.engine.leaked = t.engine.leaked
  world : s.engine.world = t.engine.world
  running : s.engine.isRunning = t.engine.isRunning
  phase : s.engine.phase = t.engine.phase ∨ s.engine.phase = .stopped ∧ t.engine.phase = .idle
  runs : ∀ j, s.engine.runs[x.place j]? = t.engine.runs[j]?
  heard : (Note.deliveries s.log).filter (!x.has ·.1) =
    (Note.deliveries t.log).map fun d => (x.place d.1, d.2)
  pending : s.pending.filter (!x.has ·.run) = t.pending.map (·.place x)

/-- Where nothing is running, nothing was started, or the last run has stopped. -/
theorem Reached.phase_of_still (h : Reached I (fun _ => True) (initial settings world) s)
    (idle : s.call = .idle) (still : s.engine.isRunning = false) :
    s.engine.phase = .idle ∨ s.engine.phase = .stopped := by
  cases hc : s.engine.current with
  | none => exact h.phase_of_free ((holder_of_call rfl idle).trans hc)
  | some id => exact .inr ((h.held idle hc).2.trans (h.stopped_of_still idle hc still))

theorem Beside.resembles (a : s.Beside x t)
    (reached : Reached I (fun _ => True) (initial settings world) t) : s.Resembles x t := by
  have added : s.Added x t := a.elim (·.toAdded) (·.toAdded)
  have seen : s.call = t.call.place x ∧ s.engine.isRunning = t.engine.isRunning ∧
      (s.engine.phase = t.engine.phase ∨ s.engine.phase = .stopped ∧ t.engine.phase = .idle) := by
    rcases a with a | a
    · exact ⟨a.call, a.isRunning_eq, .inl (a.engine.phase_eq a.shown)⟩
    · refine ⟨by rw [a.idle, a.idle', Call.place], a.still.trans a.still'.symm, ?_⟩
      rw [a.phase_eq]
      exact (reached.phase_of_still a.idle' a.still').elim (fun p => .inr ⟨rfl, p⟩)
        fun p => .inl p.symm
  exact ⟨seen.1, added.engine.payload, added.engine.settings, added.engine.leaked,
    added.engine.world, seen.2.1, seen.2.2, added.engine.runs, added.heard, added.pending_eq⟩

/-- Two runs of the system side by side: steps of the second stand for each step of the first, the
calls that end with them are answered the same, and whatever can be seen between them is the same. -/
inductive Alongside (I : Interpreter ω σ) (x : Extra) :
    Ensemble ω σ → List (Label ω) → Ensemble ω σ → List (List (Label ω)) → Prop where
  | done {s t : Ensemble ω σ} (same : s.Resembles x t) : Alongside I x s [] t []
  | step {s s' t t' : Ensemble ω σ} {l : Label ω} {ls ls' : List (Label ω)}
    {rest : List (List (Label ω))} (same : s.Resembles x t) (step : s.step I l = some s')
    (mirrors : l.Mirrors x ls') (run : exec I t ls' = some t')
    (answers : answers I t ls' = (s.answer? l).toList) (next : Alongside I x s' ls t' rest) :
    Alongside I x s (l :: ls) t (ls' :: rest)

/-- Whatever is done in the first state can be done in the second, with the same to be seen. -/
theorem Beside.alongside (a : s.Beside x t)
    (reached : Reached I (fun _ => True) (initial settings world) t) (h : exec I s ls = some s') :
    ∃ mirrored, Alongside I x s ls t mirrored := by
  induction ls generalizing s t with
  | nil => exact ⟨[], .done (a.resembles reached)⟩
  | cons l ls ih =>
    obtain ⟨s₁, step, h⟩ := Option.bind_eq_some_iff.mp h
    obtain ⟨ls', t₁, m⟩ := a.step reached step
    obtain ⟨rest, next⟩ := ih m.beside (reached.of_exec m.run) h
    exact ⟨ls' :: rest, .step (a.resembles reached) step m.mirrors m.run m.answers next⟩

end Ensemble
end ScriptHost
