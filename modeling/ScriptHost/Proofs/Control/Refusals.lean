import ScriptHost.Proofs.Control.Idle
import ScriptHost.Proofs.Ensemble.Settings

/-!
# Starts that fail

A launch that the system refuses leaves a run of which there is nothing but one
message, that it has stopped. A start can fail in one more way: the worker of
the run before does not end in time. Then nothing is launched, and nothing is
told of the attempt.

* `View.Refused`: all there ever is of a run that was refused.
* `Reached.refused`: every run that was refused is so.
* `Reached.refusal_of_stopped`: and nothing else is told to have failed to start.
* `failed_start`: how a start fails, and what is told of it.
-/
namespace ScriptHost

variable {ω σ : Type} {I : Interpreter ω σ}

/-! ## A run that was refused -/

/-- There is no worker and no pump, so nothing moves but what the controller does to the run. -/
theorem RunMove.of_absent {id : Nat} {l : Label ω} {r r' : Run σ} {k k' : Slot} {ms : List Message}
    {ns : List Note} (h : RunMove id l r k r' k' ms ns) (stage : r.stage = .absent)
    (pump : r.pump = .ended) : r'.stage = .absent ∧ r'.pump = .ended ∧ ms = [] := by
  cases h with
  | inner x phase token tripped inner =>
    rw [stage] at inner
    cases inner
    exact ⟨rfl, pump, rfl⟩
  | look _ h | forward _ h | finish h | fault h =>
    rw [pump] at h
    cases h
  | abort =>
    have same : r.abortPump = r := by
      unfold Run.abortPump
      rw [pump]
    rw [same]
    exact ⟨stage, pump, rfl⟩
  | announce h | store _ _ h | mark _ h | push _ h | write _ _ _ h | report _ _ _ h
  | finalize _ _ _ _ h | close _ h
  | leave _ h | expire _ h =>
    rw [stage] at h
    cases h

namespace View

variable {id : Nat} {last : Option UInt32} {l : Label ω} {v v' : View σ} {o : Outcome}

/-- The run never came to be, and one message is all there is of it: that it has stopped. -/
structure Refused (o : Outcome) (v : View σ) : Prop where
  stage : v.run.stage = .absent
  pump : v.run.pump = .ended
  trail : v.trail = [.stopped o]
  kept : v.slot.abandoned = false

theorem Refused.step (hv : v.Refused o) (h : Step id last l v v')
    (kept : v'.slot.abandoned = false) : v'.Refused o := by
  rcases h.retold with ⟨r, k, ms, ns, move, rfl⟩ | ⟨run, gone | ⟨_, _, retold, _⟩⟩
  · obtain ⟨stage, pump, rfl⟩ := move.of_absent hv.stage hv.pump
    exact ⟨stage, pump, by simpa using (trail_run v move).trans (by simp [hv.trail]), kept⟩
  · rw [gone.1] at kept
    cases kept
  · have told : v'.trail = [.stopped o] := by
      rw [hv.trail] at retold
      generalize v'.trail = told at retold
      generalize he : ([.stopped o] : List Event) = es at retold
      cases retold with
      | same => rfl
      | line xs ys | drop xs ys =>
        have mem : Event.currentLine 0 ∈ [Event.stopped o] := by rw [he]; simp
        simp at mem
    exact ⟨by rw [run, hv.stage], by rw [run, hv.pump], told, kept⟩

theorem refused_fresh {launch : Launch} {r : Run σ} (gives : launch.Gives r)
    (ho : launch.refusal? = some o) : (View.fresh id launch r).Refused o := by
  cases gives with
  | works => cases ho
  | fails => exact ⟨rfl, rfl, by simp [View.trail, pending, fresh, ho, Taking.messages,
      Message.outline], rfl⟩

end View

namespace Ensemble

variable {s s' t u : Ensemble ω σ} {l : Label ω} {ls : List (Label ω)} {id : Nat}
  {settings : Settings} {world : ω} {ok : Label ω → Prop} {o : Outcome} {launch : Launch}
  {f : Failure}

/-- A run was refused, and the controller does not hold it. -/
structure Refused (s : Ensemble ω σ) (id : Nat) (o : Outcome) : Prop where
  launched : id < s.engine.runs.size
  loose : s.holder ≠ some id
  view : (s.view id).Refused o

/-- A run that the controller does not hold is not held later, and not disowned. -/
theorem Step.loose (hs : s.Sound) (h : s.Step s' l) (hid : id < s.engine.runs.size)
    (loose : s.holder ≠ some id) : s'.holder ≠ some id ∧
      (s'.engine.queue.slot id).abandoned = (s.engine.queue.slot id).abandoned := by
  cases h with
  | aside runs queue taking log keeps =>
    exact ⟨fun held => loose (keeps.of_some held), by rw [queue]⟩
  | run j r r' ms ns here runs queue move taking log keeps =>
    exact ⟨fun held => loose (keeps.of_some held), (alive_of_move here runs queue move id).2⟩
  | silence j call call' current runs queue rest taking log =>
    have held : s.holder = some j := by simp [holder, call, Call.held?]
    have other : id ≠ j := by
      rintro rfl
      exact loose held
    refine ⟨?_, by rw [queue, Queue.abandon, Queue.slot_modifySlot_ne _ _ other]⟩
    rw [holder_of_call rfl call', current, hs.held (by simp [call, Call.held?])]
    exact (Option.some_ne_none id).symm
  | launch launch r gives idle runs slots toList lastLine receiving call current taking log =>
    refine ⟨?_, by rw [slot_of_push slots]⟩
    rw [holder_of_call rfl call, current]
    split
    · exact fun held => Nat.ne_of_gt hid (Option.some.inj held)
    · exact (Option.some_ne_none id).symm
  | take ns runs current call receive log =>
    refine ⟨?_, receive.abandoned id⟩
    rwa [holder, call, current, ← holder]

theorem Refused.step (h : s.Refused id o) (hs : s.Sound)
    (le : s.engine.runs.size ≤ s'.engine.runs.size) (step : s.Step s' l) : s'.Refused id o := by
  obtain ⟨loose, kept⟩ := step.loose hs h.launched h.loose
  exact ⟨Nat.lt_of_lt_of_le h.launched le, loose,
    h.view.step (step.view hs h.launched) (kept.trans h.view.kept)⟩

theorem Refused.exec (h : s.Refused id o)
    (reached : Reached I (fun _ => True) (initial settings world) s)
    (hs : Ensemble.exec I s ls = some t) : t.Refused id o := by
  refine exec_induction (P := fun _ t => t.Refused id o) h ?_ hs
  intro ls t l t' ht refused step
  have reached := reached.of_exec ht
  exact refused.step reached.sound ((reached.ruled.conduct step).size_le reached.sound)
    (step_cases reached.sound step)

/-- A launch that is refused leaves a run that was refused. -/
theorem Step.refused (hs : s.Sound) (h : s.Step s' l)
    (launched : s'.log = s.log ++ [.launched s.engine.runs.size launch])
    (size : s'.engine.runs.size = s.engine.runs.size + 1) (ho : launch.refusal? = some o) :
    s'.Refused s.engine.runs.size o := by
  have hid : s.engine.runs.size < s'.engine.runs.size := by omega
  obtain ⟨launch', r, gives, view⟩ := h.fresh hs (Nat.le_refl _) hid
  have notes : s.log.filter (·.run = s.engine.runs.size) = [] :=
    filter_run_lt hs.log (Nat.le_refl _)
  have same : launch' = launch := by
    have := congrArg View.notes view
    simp only [Ensemble.view, View.fresh, launched, List.filter_append, notes] at this
    simpa [eq_comm] using this
  have free : s'.holder = none := by
    cases h with
    | aside runs | silence _ _ _ _ runs | take _ runs =>
      rw [runs] at size
      omega
    | run _ _ _ _ _ _ runs =>
      simp only [runs, Array.size_setIfInBounds] at size
      omega
    | launch launch' r _ _ _ _ _ _ _ call current _ log =>
      obtain rfl : launch' = launch := by simpa [log] using launched
      rw [holder_of_call rfl call, current, if_neg (by simp [ho])]
  subst same
  exact ⟨hid, by simp [free], view ▸ View.refused_fresh gives ho⟩

/-- Every run that was refused has been told to have stopped, and nothing else of it ever is. -/
theorem Reached.refused (h : Reached I ok (initial settings world) s)
    (hl : (Note.launches s.log)[id]? = some launch) (ho : launch.refusal? = some o) :
    s.Refused id o := by
  induction h with
  | start => cases hl
  | @step s s' l h _ hs ih =>
    have step := step_cases h.sound hs
    have le := (h.ruled.conduct hs).size_le h.sound
    obtain ⟨ns, adds⟩ := step.adds h.sound
    rw [adds.log, Note.launches_append] at hl
    by_cases hid : id < (Note.launches s.log).length
    · rw [List.getElem?_append_left hid] at hl
      exact (ih hl).step h.sound le step
    · rcases adds.launched with ⟨_, none⟩ | ⟨launch', size, rfl⟩
      · rw [none, List.append_nil, List.getElem?_eq_none (Nat.not_lt.mp hid)] at hl
        cases hl
      · have one : Note.launches [.launched s.engine.runs.size launch'] = [launch'] := rfl
        rw [one, List.getElem?_append_right (Nat.not_lt.mp hid)] at hl
        obtain ⟨at_end, rfl⟩ : id - (Note.launches s.log).length = 0 ∧ launch' = launch := by
          simpa [List.getElem?_singleton] using hl
        obtain rfl : id = s.engine.runs.size := by
          have := h.launches.1
          omega
        exact step.refused h.sound adds.log size ho

/-- Only a run that was refused is told to have failed to start. -/
theorem Reached.refusal_of_stopped (h : Reached I ok (initial settings world) s)
    (hid : id < s.engine.runs.size) (ho : .stopped o ∈ (s.view id).trail)
    (failure : o.ofScript = false) :
    ∃ launch, (Note.launches s.log)[id]? = some launch ∧ launch.refusal? = some o := by
  have told : ∃ launch, .launched id launch ∈ (s.view id).notes ∧
      ∀ o, .stopped o ∈ (s.view id).trail → o.ofScript = true ∨ launch.refusal? = some o := by
    refine h.view_of (P := fun v => ∃ launch, .launched id launch ∈ v.notes ∧
      ∀ o, .stopped o ∈ v.trail → o.ofScript = true ∨ launch.refusal? = some o) ?_ ?_ hid
    · intro launch r gives
      refine ⟨launch, List.mem_cons_self, fun o ho => .inr ?_⟩
      cases hl : launch.refusal? <;>
        simp_all [View.trail, View.pending, View.fresh, Taking.messages, Message.outline]
    · rintro s l v' reached hid _ ⟨launch, hm, told⟩ step
      refine ⟨launch, step.notes_mem hm, fun o ho => ?_⟩
      rcases step.stopped_mem ho with before | ⟨leaving, _⟩
      · exact told o before
      · obtain ⟨_, _, ends⟩ := reached.told false hid (by simp)
        exact .inl (ends.ofScript o (by rw [leaving]; rfl))
  obtain ⟨launch, hm, told⟩ := told
  refine ⟨launch, h.launches.2 id launch (List.mem_filter.mp hm).1, ?_⟩
  exact (told o ho).resolve_left (by simp [failure])

/-! ## How a start fails -/

/-- No launch is taken back. -/
theorem Reached.launches_kept (h : Reached I (fun _ => True) (initial settings world) s)
    (hs : Ensemble.exec I s ls = some t) : Note.launches s.log <+: Note.launches t.log := by
  refine exec_induction (P := fun _ t => Note.launches s.log <+: Note.launches t.log)
    (List.prefix_refl _) ?_ hs
  intro ls t l t' ht before step
  have reached := h.of_exec ht
  obtain ⟨ns, adds⟩ := (step_cases reached.sound step).adds reached.sound
  rw [adds.log, Note.launches_append]
  exact before.trans (List.prefix_append _ _)

/-- A start that fails was refused its launch, or the worker before it has not ended in time. -/
theorem start_fails (reached : Reached I (fun _ => True) (initial settings world) s)
    (failed : s.Answers I (.start launch) (.error f) u) :
    (s.answerAfter (some launch) = .error f ∧
      Note.launches u.log = Note.launches s.log ++ [launch]) ∨
    f = .joinTimeout s.engine.settings.joinTimeout ∧ Note.launches u.log = Note.launches s.log ∧
      ∃ id, id + 1 = s.engine.runs.size ∧ .abandoned id ∈ u.log := by
  obtain ⟨before, l, t, rest, split, run, silent, final, told⟩ := failed
  have reached' := reached.of_exec run
  have launched (t : Ensemble ω σ) (refused : t.answerAfter (some launch) = .error f)
      (same : Note.launches t.log = Note.launches s.log) :
      s.answerAfter (some launch) = .error f ∧
        Note.launches (t.launch launch).log = Note.launches s.log ++ [launch] := by
    refine ⟨?_, by simp only [Ensemble.launch, Note.launches_append, same]; rfl⟩
    cases launch <;> exact refused
  cases before with
  | nil =>
    obtain ⟨rfl, rfl⟩ : Label.start launch = l ∧ rest = [] := by simpa using split
    cases run
    cases still : s.engine.isRunning with
    | true => simp [answer?, still] at told
    | false =>
      cases hc : s.engine.current with
      | some id => simp [answer?, still, hc] at told
      | none =>
        have same : { s with engine := { s.engine with current := none } } = s := by rw [← hc]
        simp only [step, still, Bool.false_eq_true, if_false, Option.ite_none_right_eq_some,
          Option.some.injEq, await, Engine.takeWorker, hc, same, proceed] at final
        obtain ⟨_, rfl⟩ := final
        simp only [answer?, still, hc, Bool.false_eq_true, if_false, Option.isSome_none,
          Option.some.injEq] at told
        exact .inl (launched s told rfl)
  | cons first before =>
    obtain ⟨rfl, rfl⟩ : Label.start launch = first ∧ rest = before ++ [l] := by simpa using split
    obtain ⟨id, last, still⟩ : ∃ id, id + 1 = s.engine.runs.size ∧ s.engine.isRunning = false := by
      obtain ⟨s₁, first, _⟩ := Option.bind_eq_some_iff.mp run
      have silent := (Option.or_eq_none_iff.mp ((reply_cons first).symm.trans silent)).1
      simp only [step, Option.ite_none_right_eq_some] at first
      cases still : s.engine.isRunning with
      | true => simp [answer?, still] at silent
      | false =>
        cases hc : s.engine.current with
        | none => simp [answer?, still, hc] at silent
        | some id =>
          have held := (holder_of_call rfl (isFree_iff.mp first.1).1).trans hc
          exact ⟨id, reached.sound.holder id held, rfl⟩
    have waits := waiting_of_start reached last still run silent
    have same : Note.launches t.log = Note.launches s.log := by
      refine ((reached.launches_kept run).eq_of_length ?_).symm
      rw [reached.launches.1, reached'.launches.1, ← last, waits.last]
    cases l with
    | goOn =>
      simp only [step, Option.ite_none_right_eq_some] at final
      obtain ⟨_, final⟩ := final
      rcases waits.call with call | ⟨call | call, _⟩
      · simp only [goOn, call, Option.ite_none_left_eq_some, Option.some.injEq, proceed] at final
        obtain ⟨_, rfl⟩ := final
        simp only [answer?, call, Option.some.injEq] at told
        exact .inl (launched t told same)
      · simp [answer?, call] at told
      · simp only [goOn, call, Option.some.injEq] at final
        subst final
        simp only [answer?, call, Engine.abandon, Option.some.injEq, Except.error.injEq] at told
        refine .inr ⟨?_, ?_, id, last, by simp⟩
        · rw [← told, exec_settings run]
        · rw [Note.launches_append, same]
          exact List.append_nil _
    | setScript | setSearchDirs | start | stop | shutdown => simp [step, waits.not_free] at final
    | giveUp | take | other | dropPump | outside => cases told

/-- **How a start fails, and what is told of it.** Either its launch was refused: then it has made a
run, and one message is all there ever is of that run, queued or delivered, that it has stopped for
the reason of the refusal. Or the worker of the run before has not ended in time: then that run is
disowned, nothing was launched, and nothing is told of the attempt; for whatever is told to have
failed to start is, at any time, a run whose own launch was refused. -/
theorem failed_start {before : List (Label ω)}
    (h : exec I (initial settings world) before = some s)
    (failed : s.Answers I (.start launch) (.error f) u) :
    ((∃ o, launch.refusal? = some o ∧ s.answerAfter (some launch) = .error f ∧
        Note.launches u.log = Note.launches s.log ++ [launch] ∧
        ∀ later t, exec I u later = some t → (t.view s.engine.runs.size).trail = [.stopped o]) ∨
      f = .joinTimeout s.engine.settings.joinTimeout ∧ Note.launches u.log = Note.launches s.log ∧
        ∃ id, id + 1 = s.engine.runs.size ∧ .abandoned id ∈ u.log) ∧
    ∀ later t, exec I u later = some t → ∀ id o, id < t.engine.runs.size → o.ofScript = false →
      .stopped o ∈ (t.view id).trail →
      ∃ launch, (Note.launches t.log)[id]? = some launch ∧ launch.refusal? = some o := by
  have reached := Reached.start.of_exec h
  have reached' : Reached I (fun _ => True) (initial settings world) u := by
    obtain ⟨_, _, _, _, _, run, _, final, _⟩ := failed
    exact (reached.of_exec run).step trivial final
  refine ⟨?_, fun later t ht id o hid failure ho =>
    (reached'.of_exec ht).refusal_of_stopped hid ho failure⟩
  rcases start_fails reached failed with ⟨refused, launches⟩ | out
  · obtain ⟨o, ho⟩ : ∃ o, launch.refusal? = some o := by
      cases launch with
      | works => cases refused
      | noChannel | noThread => exact ⟨_, rfl⟩
    have own : (Note.launches u.log)[s.engine.runs.size]? = some launch := by
      rw [launches, ← reached.launches.1]
      simp
    exact .inl ⟨o, ho, refused, launches, fun later t ht =>
      ((reached'.refused own ho).exec reached' ht).view.trail⟩
  · exact .inr out

/-- The worker of the run before has announced its stop and does not end; the start is given up. -/
def giveUpStart : List (Label (List Signal)) := [.start .works, .giveUp, .goOn]

/-- The state in which the run before is disowned next. -/
def disowning : Ensemble (List Signal) (List Signal) :=
  (exec replay stopTaken giveUpStart).get (by decide +kernel)

/-- The start has failed. -/
def unjoined : Ensemble (List Signal) (List Signal) :=
  (disowning.step replay .goOn).get (by decide +kernel)

theorem exec_giveUpStart : exec replay stopTaken giveUpStart = some disowning := (Option.some_get _).symm

theorem unjoined_answers :
    stopTaken.Answers replay (.start .works)
      (.error (.joinTimeout stopTaken.engine.settings.joinTimeout)) unjoined :=
  ⟨giveUpStart, .goOn, disowning, [.giveUp, .goOn, .goOn], rfl, exec_giveUpStart,
    Option.isNone_iff_eq_none.mp (by decide +kernel), (Option.some_get _).symm, rfl⟩

/-- Another start behind it finds no thread. -/
def threadless : Ensemble (List Signal) (List Signal) :=
  unjoined.launch (.noThread .brokenPipe)

theorem threadless_answers :
    unjoined.Answers replay (.start (.noThread .brokenPipe)) (.error (.spawn .brokenPipe))
      threadless :=
  ⟨[], _, unjoined, [], rfl, rfl, rfl, rfl, rfl⟩

/-- Of the first attempt nothing is told; of the second, that it has stopped. -/
theorem failed_start_unjoined :
    stopTaken.Answers replay (.start .works)
        (.error (.joinTimeout stopTaken.engine.settings.joinTimeout)) unjoined ∧
      Note.launches unjoined.log = Note.launches stopTaken.log ∧
      unjoined.Answers replay (.start (.noThread .brokenPipe)) (.error (.spawn .brokenPipe))
        threadless ∧
      (threadless.view 1).trail = [.stopped .spawnFailure] := by
  have first := failed_start exec_runToStop unjoined_answers
  have reach : exec replay (initial {} [.ended none]) (runToStop ++ (giveUpStart ++ [.goOn])) =
      some unjoined := by
    rw [exec_append, exec_runToStop, Option.bind_some]
    exact exec_snoc exec_giveUpStart (Option.some_get _).symm
  have second := failed_start reach threadless_answers
  refine ⟨unjoined_answers, ?_, threadless_answers, ?_⟩
  · rcases first.1 with ⟨_, refused, _⟩ | ⟨_, launches, _⟩
    · cases refused
    · exact launches
  · rcases second.1 with ⟨o, refused, _, _, told⟩ | ⟨out, _⟩
    · cases refused
      exact told [] threadless rfl
    · cases out

/-- A start that fails need not be announced: here it answers with an error, and the controller was
not told and will not be that a run has failed to start. -/
theorem failed_start_unannounced :
    ¬ ∀ before (s u : Ensemble (List Signal) (List Signal)) launch f,
      exec replay (initial {} [.ended none]) before = some s →
      s.Answers replay (.start launch) (.error f) u →
      ∃ o, o.ofScript = false ∧
        .stopped o ∈ (Note.deliveries u.log).map (·.2) ++ u.pending.map Message.outline := by
  intro announced
  obtain ⟨o, failure, told⟩ :=
    announced runToStop stopTaken unjoined .works _ exec_runToStop unjoined_answers
  have all : (Note.deliveries unjoined.log).map (·.2) ++ unjoined.pending.map Message.outline =
      [.started, .stopped .finished] := by decide +kernel
  rw [all] at told
  obtain rfl : o = .finished := by simpa using told
  cases failure

end Ensemble
end ScriptHost
