import ScriptHost.Proofs.Control.Redundant
import ScriptHost.Proofs.Delivery.Remainder
import ScriptHost.Proofs.Silence.Unseen

/-!
# What a restart leaves to be heard

What the run before still had queued is to come before the notice of a restart. A
worker moves its phase to the end and announces its stop with two steps, and from
the first of them on no run is running. A restart that falls between the two waits
for nobody: it takes what is queued, shows its notice and launches. That stop is
left, and nothing but that.

* `Restarts`: what a restart does up to its notice, in any order with the steps of
  the others.
* `restart_drains`: nothing of a run that was found running, or that had announced
  its stop, is heard behind the notice. A stop that was not announced is on its way
  before another run is launched.
-/
namespace ScriptHost

variable {ω σ : Type} {I : Interpreter ω σ} {id : Nat} {o : Outcome}

/-- A worker that is about to announce its stop stays so until it has. -/
theorem RunMove.leaving {l : Label ω} {r r' : Run σ} {k k' : Slot} {ms : List Message}
    {ns : List Note} (h : RunMove id l r k r' k' ms ns) (leaving : r.stage = .leaving o) :
    r'.stage = .leaving o ∨ r'.stage.isMute = true := by
  cases h with
  | inner stage _ _ _ h =>
    rw [leaving] at h
    cases h
    exact .inl rfl
  | leave => exact .inr rfl
  | look | forward | finish | fault => exact .inl leaving
  | abort =>
    unfold Run.abortPump
    split <;> exact .inl leaving
  | announce h | store _ _ h | mark _ h | push _ h | write _ _ _ h | report _ _ _ h
  | finalize _ _ _ _ h | close _ h
  | expire _ h =>
    rw [leaving] at h
    cases h

theorem View.Step.leaving {last : Option UInt32} {l : Label ω} {v v' : View σ}
    (h : Step id last l v v') (hv : v.run.stage = .leaving o ∨ v.run.stage.isMute = true) :
    v'.run.stage = .leaving o ∨ v'.run.stage.isMute = true := by
  cases h with
  | run move => exact hv.elim move.leaving fun mute => .inr (move.isMute_of mute)
  | _ => exact hv

namespace Ensemble

variable {s t u : Ensemble ω σ} {l : Label ω} {ls aside wait before later : List (Label ω)}
  {settings : Settings} {world : ω}

/-! ## A restart -/

/-- Messages are taken one after the other, the others going on meanwhile, until none is found. -/
structure Drains (I : Interpreter ω σ) (s : Ensemble ω σ) (ls : List (Label ω))
    (t : Ensemble ω σ) : Prop where
  run : exec I s ls = some t
  own : ∀ l ∈ ls, l = .take ∨ l.isForeign = true
  dry : t.take = none

/-- What a restart does before its notice, with steps of the others between its own: a run that is
found running is shut down, even if it is over by then, and waited for, whether or not it is given up
in the end, and then all messages are taken. -/
inductive Restarts (I : Interpreter ω σ) (s : Ensemble ω σ) :
    List (Label ω) → Ensemble ω σ → Prop where
  | still {ls : List (Label ω)} {t : Ensemble ω σ} (free : s.isFree = true)
    (still : s.engine.isRunning = false) (drains : s.Drains I ls t) : Restarts I s ls t
  | running {aside wait ls : List (Label ω)} {r u t : Ensemble ω σ}
    (running : s.engine.isRunning = true) (first : exec I s aside = some r)
    (others : ∀ l ∈ aside, l.isForeign = true) (shut : exec I r (.shutdown :: wait) = some u)
    (own : ∀ l ∈ wait, l = .goOn ∨ l = .giveUp ∨ l.isForeign = true) (settled : u.call = .idle)
    (drains : u.Drains I ls t) : Restarts I s (aside ++ .shutdown :: (wait ++ ls)) t

theorem Drains.untouched (h : s.Drains I ls t) : Untouched s t := by
  refine exec_untouched (fun l hl => ?_) h.run
  rcases h.own l hl with rfl | foreign
  · rfl
  · cases l <;> first | rfl | cases foreign

/-- Where the queue is empty, the receiver finds nothing. -/
theorem take_of_empty (rest : s.taking = .resting) (empty : s.engine.queue.toList = []) :
    s.take = none := by
  cases hp : s.engine.queue.pop? with
  | none => simp [take, rest, hp]
  | some x =>
    rw [(Queue.pop?_some hp).1] at empty
    cases empty

/-- Where the receiver finds nothing, everything was taken. -/
theorem pending_of_take (h : s.take = none) : s.pending = [] := by
  have rest : s.taking = .resting := by
    refine Decidable.byContradiction fun hand => ?_
    obtain ⟨_, taken, -⟩ := take_left hand
    cases h.symm.trans taken
  rw [pending, rest]
  cases hq : s.engine.queue.toList with
  | nil => rfl
  | cons m ms =>
    obtain ⟨q, pop, -⟩ := Queue.pop?_of_toList hq
    simp [take, rest, pop] at h

/-! ## The worker is taken out -/

/-- A shutdown goes on and has not taken the worker out, or none is held and none is to be
launched. -/
def Quits (s : Ensemble ω σ) : Prop :=
  (∃ j, s.call = .cancelling j true ∨ s.call = .marking j true) ∨
    s.engine.current = none ∧ ∀ j launch, s.call ≠ .waiting j (some launch)

theorem Quits.bare (h : s.Quits)
    (apart : ∀ j, s.call ≠ .cancelling j true ∧ s.call ≠ .marking j true) :
    s.engine.current = none ∧ ∀ j launch, s.call ≠ .waiting j (some launch) := by
  refine h.resolve_left ?_
  rintro ⟨j, cancelling | marking⟩
  · exact (apart j).1 cancelling
  · exact (apart j).2 marking

theorem Conduct.quits {s' : Ensemble ω σ} (c : Conduct I s l s') (h : s.Quits)
    (own : l = .goOn ∨ l = .giveUp ∨ l.isForeign = true) : s'.Quits := by
  have alone {next : Label ω} (hl : l = next) (other : next ≠ .goOn) (other' : next ≠ .giveUp)
      (apart : next.isForeign = false) : False := by
    subst hl
    rcases own with own | own | own
    · exact other own
    · exact other' own
    · rw [apart] at own
      cases own
  cases c with
  | aside _ _ call current | work _ _ _ _ _ _ _ call current =>
    rw [Quits, call, current]
    exact h
  | request j leave hl => cases leave <;> exact (alone hl nofun nofun rfl).elim
  | cancel j leave _ call =>
    cases leave with
    | true => exact .inl ⟨j, .inr rfl⟩
    | false => exact .inr ⟨(h.bare fun _ => by simp [call]).1, nofun⟩
  | leave j _ call => exact .inr ⟨rfl, nofun⟩
  | await j next hl free current =>
    cases current.symm.trans (h.bare fun _ => by simp [free]).1
  | launch launch due =>
    rcases due with ⟨hl, -⟩ | ⟨j, -, call, -⟩
    · exact (alone hl nofun nofun rfl).elim
    · exact absurd call ((h.bare fun _ => by simp [call]).2 j launch)
  | mark j _ call | settle j _ call | giveUp j _ _ call | forsake j _ call | silence j _ call =>
    exact .inr ⟨(h.bare fun _ => by simp [call]).1, nofun⟩

theorem Reached.exec_quits (h : Reached I (fun _ => True) (initial settings world) s)
    (quits : s.Quits) (own : ∀ l ∈ ls, l = .goOn ∨ l = .giveUp ∨ l.isForeign = true)
    (hu : exec I s ls = some u) : u.Quits := by
  induction ls generalizing s with
  | nil =>
    cases hu
    exact quits
  | cons l ls ih =>
    obtain ⟨s₁, step, hu⟩ := Option.bind_eq_some_iff.mp hu
    exact ih (h.step trivial step) ((h.ruled.conduct step).quits quits (own l List.mem_cons_self))
      (fun l hl => own l (List.mem_cons_of_mem _ hl)) hu

/-- A shutdown stops the run that is running, and else takes the worker out at once, if one is held. -/
theorem requestStop_quits (s : Ensemble ω σ) : (s.requestStop true).Quits := by
  cases current : s.engine.current with
  | none =>
    refine .inr ?_
    simp [requestStop, current, afterStop, await, Engine.takeWorker, proceed]
  | some j =>
    cases running : s.engine.isRunning with
    | true => exact .inl ⟨j, .inl (by simp [requestStop, current, running])⟩
    | false =>
      refine .inr ?_
      simp [requestStop, current, running, afterStop, await, Engine.takeWorker]

/-- When a shutdown is over, no worker is held. -/
theorem Reached.current_of_shutdown (h : Reached I (fun _ => True) (initial settings world) s)
    (shut : exec I s (.shutdown :: wait) = some u)
    (own : ∀ l ∈ wait, l = .goOn ∨ l = .giveUp ∨ l.isForeign = true) (settled : u.call = .idle) :
    u.engine.current = none := by
  obtain ⟨s₁, first, rest⟩ := Option.bind_eq_some_iff.mp shut
  have begun : s₁.Quits := by
    simp only [Ensemble.step, Option.ite_none_right_eq_some, Option.some.injEq] at first
    obtain ⟨free, rfl⟩ := first
    exact s.requestStop_quits
  rcases (h.step trivial first).exec_quits begun own rest with ⟨_, busy | busy⟩ | ⟨none, -⟩
  · cases settled.symm.trans busy
  · cases settled.symm.trans busy
  · exact none

/-! ## The worker of the run before -/

theorem Restarts.idle (h : s.Restarts I ls t) : t.call = .idle := by
  cases h with
  | still free _ drains => exact drains.untouched.call.trans (isFree_iff.mp free).1
  | running _ _ _ _ _ settled drains => exact drains.untouched.call.trans settled

theorem Restarts.exec (h : s.Restarts I ls t) : Ensemble.exec I s ls = some t := by
  cases h with
  | still _ _ drains => exact drains.run
  | running _ first _ shut _ _ drains =>
    rw [exec_append, first, Option.bind_some, ← List.cons_append, exec_append, shut]
    exact drains.run

theorem Restarts.pending (h : s.Restarts I ls t) : t.pending = [] := by
  cases h with
  | still _ _ drains | running _ _ _ _ _ _ drains => exact pending_of_take drains.dry

/-- A worker that is alive behind a restart is held, and had shown its end when the restart began. -/
theorem Reached.restarts_alive (h : Reached I (fun _ => True) (initial settings world) s)
    (restarts : s.Restarts I ls t) (kept : .abandoned id ∉ t.log)
    (alive : t.engine.isAlive id = true) :
    s.engine.isRunning = false ∧ s.engine.current = some id ∧ s.call = .idle := by
  have reached := h.of_exec restarts.exec
  have current : t.engine.current = some id := by
    refine (reached.alive_cases restarts.idle alive).resolve_right fun gone => kept ?_
    exact (reached.abandoned id).mp gone
  cases restarts with
  | still free still drains =>
    exact ⟨still, drains.untouched.current.symm.trans current, (isFree_iff.mp free).1⟩
  | running _ first _ shut own settled drains =>
    have none := (h.of_exec first).current_of_shutdown shut own settled
    rw [← drains.untouched.current, current] at none
    cases none

/-- A run that is over has a worker that is, or that says its stop next. -/
theorem leaving_of_stopped {r : Run σ} {marking parted : Prop} (steady : r.Steady marking parted)
    (stopped : r.phase = .stopped) : r.stage.isMute = true ∨ ∃ o, r.stage = .leaving o := by
  have past : r.stage.phase = .stopped := by
    rcases steady.phase with same | ⟨requested, -⟩
    · exact same.symm.trans stopped
    · cases stopped.symm.trans requested
  cases hs : r.stage <;> rw [hs] at past <;> first | exact .inl rfl | exact .inr ⟨_, rfl⟩ | cases past

/-- Where the queue is found empty, the worker of a run has said everything, or is about to announce
its stop, as it was when the restart began. -/
theorem Reached.restarts_stage (h : Reached I (fun _ => True) (initial settings world) s)
    (restarts : s.Restarts I ls t) (hid : id < t.engine.runs.size) (kept : .abandoned id ∉ t.log) :
    (t.engine.run id).stage.isMute = true ∨
      s.engine.isRunning = false ∧ s.engine.current = some id ∧
        ∃ o, (s.engine.run id).stage = .leaving o ∧ (t.engine.run id).stage = .leaving o := by
  cases alive : t.engine.isAlive id with
  | false =>
    rw [isAlive_run hid] at alive
    exact .inl (Stage.isMute_of_ended alive)
  | true =>
    obtain ⟨still, current, idle⟩ := h.restarts_alive restarts kept alive
    have hid' := (h.held idle current).1
    have stopped := h.stopped_of_still idle current still
    rcases leaving_of_stopped (h.steady hid') stopped with mute | ⟨o, leaving⟩
    · exact .inl (h.later (P := fun t => (t.engine.run id).stage.isMute = true) hid'
        (fun c => c.isMute_of) mute restarts.exec).2
    · have later : (t.engine.run id).stage = .leaving o ∨ (t.engine.run id).stage.isMute = true :=
        h.view_later (P := fun v => v.run.stage = .leaving o ∨ v.run.stage.isMute = true) hid'
          View.Step.leaving (.inl leaving) restarts.exec
      exact later.symm.imp_right fun leaving' => ⟨still, current, o, leaving, leaving'⟩

/-! ## What is heard behind the notice -/

/-- What is heard of a run comes to what was heard of it when the queue was found empty, and the
stop that its worker had not announced by then. -/
theorem restarts_amounts (h : exec I (initial settings world) before = some s)
    (restarts : s.Restarts I ls t) (patient : ∀ l ∈ before ++ ls, l ≠ .other (.patience id))
    (hid : id < t.engine.runs.size) (kept : .abandoned id ∉ t.log) (hu : exec I t later = some u) :
    (u.view id).Amounts (t.heard id ++ (t.engine.run id).stage.unsaid) := by
  have reached := Reached.start.of_exec h
  have led : exec I (initial settings world) (before ++ ls) = some t := by
    rw [exec_append, h]
    exact restarts.exec
  have past : (t.engine.run id).stage.isPast = true := by
    rcases reached.restarts_stage restarts hid kept with mute | ⟨-, -, o, -, leaving⟩
    · exact (Stage.unsaid_of_mute mute).1
    · rw [leaving]
      rfl
  have amounts := (reached_of_exec .start led patient).amounts hid (fun _ hl => hl) past
    restarts.pending
  exact (reached.of_exec restarts.exec).view_later (P := fun v => v.Amounts _) hid
    (fun step hv => hv.step step) amounts hu

/-- So no more of it is heard. -/
theorem restarts_heard (h : exec I (initial settings world) before = some s)
    (restarts : s.Restarts I ls t) (patient : ∀ l ∈ before ++ ls, l ≠ .other (.patience id))
    (hid : id < t.engine.runs.size) (kept : .abandoned id ∉ t.log) (hu : exec I t later = some u) :
    ∃ new, new <+: (t.engine.run id).stage.unsaid ∧ u.heard id = t.heard id ++ new := by
  have amounts := restarts_amounts h restarts patient hid kept hu
  obtain ⟨ns, log⟩ := ((Reached.start.of_exec h).of_exec restarts.exec).log_grows hu
    fun _ _ => trivial
  have grown : u.heard id = t.heard id ++ Note.heard (ns.filter (·.run = id)) := by
    rw [Ensemble.heard, notes, log, List.filter_append, Note.heard_append]
    rfl
  have heard : u.heard id <+: t.heard id ++ (t.engine.run id).stage.unsaid := amounts.heard
  rw [grown, List.prefix_append_right_inj] at heard
  exact ⟨_, heard, grown⟩

/-- A worker that is about to announce its stop was so when the restart began, and was not waited
for. -/
theorem Reached.restarts_leaving (h : Reached I (fun _ => True) (initial settings world) s)
    (restarts : s.Restarts I ls t) (hid : id < t.engine.runs.size) (kept : .abandoned id ∉ t.log)
    (leaving : (t.engine.run id).stage = .leaving o) :
    (s.engine.isRunning = false ∧ s.engine.current = some id ∧
      (s.engine.run id).stage = .leaving o) ∧ .stopped o ∉ t.heard id := by
  refine ⟨?_, fun told => ?_⟩
  · rcases h.restarts_stage restarts hid kept with mute | ⟨still, current, o', before, after⟩
    · rw [leaving] at mute
      cases mute
    · cases leaving.symm.trans after
      exact ⟨still, current, before⟩
  · have mute := ((h.of_exec restarts.exec).announced hid (List.mem_append_left _ told)).1
    rw [leaving] at mute
    cases mute

/-- **What a restart leaves to be heard.** Let the controller restart at any moment of any run of the
system, the others going on between its steps in any order, and let the patience of a worker not end.
Nothing more is heard of its run behind the notice if a run was found running, so that it was waited
for, if the run was disowned, or if its worker is not about to announce its stop when the queue is
found empty. If it is, then it was so already when the controller asked whether a run was running, and
the answer was no. Then its stop is not heard before the notice, is all that is heard of it behind the
notice, is on its way before another run is launched, and is heard before the start of that run. -/
theorem restart_drains (h : exec I (initial settings world) before = some s)
    (restarts : s.Restarts I ls t) (patient : ∀ l ∈ before ++ ls, l ≠ .other (.patience id))
    (hid : id < t.engine.runs.size) (hu : exec I t later = some u) :
    (s.engine.isRunning = true ∨ .abandoned id ∈ t.log ∨
        (∀ o, (t.engine.run id).stage ≠ .leaving o) → u.heard id = t.heard id) ∧
    ∀ o, (t.engine.run id).stage = .leaving o → .abandoned id ∉ t.log →
      ((s.engine.isRunning = false ∧ s.engine.current = some id ∧
        (s.engine.run id).stage = .leaving o) ∧ .stopped o ∉ t.heard id) ∧
      (u.heard id = t.heard id ∨ u.heard id = t.heard id ++ [.stopped o]) ∧
      (.abandoned id ∉ u.log →
        (t.engine.runs.size < u.engine.runs.size →
          (u.view id).trail = t.heard id ++ [.stopped o]) ∧
        ∀ next, id < next → .started ∈ u.heard next →
          u.heard id = t.heard id ++ [.stopped o]) := by
  have reached := Reached.start.of_exec h
  have reached' := reached.of_exec restarts.exec
  have reached'' := reached'.of_exec hu
  refine ⟨fun found => ?_, fun o leaving kept => ?_⟩
  · by_cases kept : .abandoned id ∈ t.log
    · exact reached'.heard_eq kept hu
    obtain ⟨new, rest, heard⟩ := restarts_heard h restarts patient hid kept hu
    have mute : (t.engine.run id).stage.isMute = true := by
      rcases reached.restarts_stage restarts hid kept with mute | ⟨still, -, o, -, leaving⟩
      · exact mute
      · rcases found with running | gone | settled
        · cases still.symm.trans running
        · exact absurd gone kept
        · exact absurd leaving (settled o)
    rw [(Stage.unsaid_of_mute mute).2, List.prefix_nil] at rest
    rw [heard, rest, List.append_nil]
  · have unsaid : (t.engine.run id).stage.unsaid = [.stopped o] := by
      rw [leaving]
      rfl
    have amounts := restarts_amounts h restarts patient hid kept hu
    obtain ⟨new, rest, heard⟩ := restarts_heard h restarts patient hid kept hu
    rw [unsaid] at amounts rest
    have either : u.heard id = t.heard id ∨ u.heard id = t.heard id ++ [.stopped o] := by
      rcases List.prefix_cons_iff.mp rest with rfl | ⟨more, rfl, none⟩
      · exact .inl (heard.trans (List.append_nil _))
      · rw [List.prefix_nil.mp none] at heard
        exact .inr heard
    refine ⟨reached.restarts_leaving restarts hid kept leaving, either, fun kept' =>
      ⟨fun more => reached''.trail_of_amounts amounts (by omega) kept', fun next behind started => ?_⟩⟩
    exact either.resolve_left (reached''.stop_of_started amounts behind started kept')

/-- A run up to where its worker is about to announce its stop. -/
def workToEnd : List (Label (List Signal)) :=
  let work (n : Nat) : List (Label (List Signal)) := .replicate n (.other (.worker 0))
  [.start .works] ++ work 5 ++ [.other (.pump 0 (.upTo 1)), .other (.pump 0 .nothing)] ++ work 2

/-- The state behind it. -/
def stopDue : Ensemble (List Signal) (List Signal) :=
  (exec replay (initial {} [.ended none]) workToEnd).get (by decide +kernel)

/-- All that is queued is taken. -/
def emptied : Ensemble (List Signal) (List Signal) :=
  (exec replay stopDue (.replicate 2 .take)).get (by decide +kernel)

/-- The next run is launched when the worker has ended, and begins; then two events are taken. -/
def startNext : List (Label (List Signal)) :=
  [.start .works, .other (.worker 0), .other (.worker 0), .goOn, .other (.worker 1)] ++
    .replicate 4 .take

/-- The state behind it. -/
def nextBegun : Ensemble (List Signal) (List Signal) :=
  (exec replay emptied startNext).get (by decide +kernel)

/-- The worker of a run that was found running goes on until it is about to announce its stop. -/
def workToStop : List (Label (List Signal)) :=
  let work (n : Nat) : List (Label (List Signal)) := .replicate n (.other (.worker 0))
  work 9 ++ [.other (.pump 0 (.upTo 1)), .other (.pump 0 .nothing)] ++ work 2

/-- The state behind it. -/
def overtaken : Ensemble (List Signal) (List Signal) :=
  (exec replay launched workToStop).get (by decide +kernel)

/-- It is waited for. -/
def awaitEnd : List (Label (List Signal)) := .replicate 2 (.other (.worker 0)) ++ [.goOn]

/-- It was shut down. -/
def shutDown : Ensemble (List Signal) (List Signal) :=
  (exec replay overtaken (.shutdown :: awaitEnd)).get (by decide +kernel)

/-- All that is queued is taken. -/
def shutDownEmptied : Ensemble (List Signal) (List Signal) :=
  (exec replay shutDown (.replicate 9 .take)).get (by decide +kernel)

/-- Of a run that was found running all is heard before the notice, even if none is running any more
when the shutdown begins; the stop of one that was found between its end and its stop comes behind the
notice, and before the start of the next. -/
theorem restart_drains_succeeded :
    (launched.engine.isRunning = true ∧ overtaken.engine.isRunning = false ∧
      shutDownEmptied.heard 0 = [.started, .currentLine 3, .stopped .finished] ∧
      ∀ later u, exec replay shutDownEmptied later = some u → u.heard 0 = shutDownEmptied.heard 0) ∧
    stopDue.engine.isRunning = false ∧ emptied.heard 0 = [.started] ∧
      nextBegun.heard 0 = [.started, .stopped .finished] := by
  have size : 0 < shutDownEmptied.engine.runs.size ∧ 0 < emptied.engine.runs.size := by decide +kernel
  have takes (n : Nat) : ∀ l ∈ List.replicate n (Label.take (ω := List Signal)),
      l = .take ∨ l.isForeign = true := fun l hl => .inl (List.mem_replicate.mp hl).2
  refine ⟨⟨by decide +kernel, by decide +kernel, by decide +kernel, fun later u hu => ?_⟩,
    by decide +kernel, by decide +kernel, ?_⟩
  · have others : ∀ l ∈ workToStop, l.isForeign = true := by
      simp [workToStop, Label.isForeign, or_imp, forall_and]
    have own : ∀ l ∈ awaitEnd, l = .goOn ∨ l = .giveUp ∨ l.isForeign = true := by
      simp [awaitEnd, Label.isForeign, or_imp, forall_and]
    have restarts : launched.Restarts replay
        (workToStop ++ .shutdown :: (awaitEnd ++ .replicate 9 .take)) shutDownEmptied :=
      .running (by decide +kernel) (Option.some_get _).symm others (Option.some_get _).symm own
        (by decide +kernel) ⟨(Option.some_get _).symm, takes 9, by decide +kernel⟩
    refine (restart_drains exec_launched restarts ?_ size.1 hu).1 (.inl (by decide +kernel))
    simp [workToStop, awaitEnd, or_imp, forall_and]
  · have restarts : stopDue.Restarts replay (.replicate 2 .take) emptied :=
      .still (by decide +kernel) (by decide +kernel)
        ⟨(Option.some_get _).symm, takes 2, by decide +kernel⟩
    have leaving : (emptied.engine.run 0).stage = .leaving .finished := rfl
    have run : exec replay (initial {} [.ended none]) workToEnd = some stopDue :=
      (Option.some_get _).symm
    have hu : exec replay emptied startNext = some nextBegun := (Option.some_get _).symm
    have patient : ∀ l ∈ workToEnd ++ .replicate 2 .take, l ≠ .other (.patience 0) := by
      simp [workToEnd, or_imp, forall_and]
    have heard := (((restart_drains run restarts patient size.2 hu).2 _ leaving
      (by decide +kernel)).2.2 (by decide +kernel)).2 1 (by decide) (by decide +kernel)
    exact heard.trans (by decide +kernel)

end Ensemble
end ScriptHost
