import ScriptHost.Proofs.Control.Census
import ScriptHost.Proofs.Silence.States

/-!
# What a disowned run still does is not seen

Take any run of the system from a state in which a run is disowned, and leave
out the steps of the worker and the pump of that run, and the steps in which the
receiver takes a message of it. What is left is a run of the system, and the
controller sees the same of it. But a script that is disowned still works in the
world that it shares with the scripts behind it, and they can come across its
traces (`disowned_traced`). So where it changes the world, the change stays: the
world then changes by itself.

* `Omits`: the run with the steps left out, and what is seen of both.
* `Alike.step`: a step of the one is a step of the other, or it is left out.
* `disowned_unseen`: so it is for as many steps as are made. Of a script that
  leaves the world alone nothing stays at all.
-/
namespace ScriptHost

variable {ω σ : Type} {I : Interpreter ω σ} {id : Nat}

/-- The run whose worker or pump goes on, or is dropped. -/
def Label.run? : Label ω → Option Nat
  | .other a => some a.run
  | .dropPump r => some r
  | _ => none

namespace Ensemble

variable {s s' t t' : Ensemble ω σ} {l : Label ω} {ls ls' : List (Label ω)} {settings : Settings}
  {world : ω}

/-! ## One step -/

/-- A call answers the same. -/
theorem Alike.answer_eq (a : Alike id s t) (al : s.Aloof id) (l : Label ω) :
    t.answer? l = s.answer? l := by
  have running := a.isRunning_eq al
  have launches (l : Launch) : (t.engine.launch l).1 = (s.engine.launch l).1 := by
    cases l <;> rfl
  have after (next : Option Launch) : t.answerAfter next = s.answerAfter next := by
    cases next with
    | none => rfl
    | some l => exact launches l
  cases l with
  | setScript source => exact congrArg some (a.engine.setScript running source).1.symm
  | setSearchDirs dirs => exact congrArg some (a.engine.setSearchDirs running dirs).1.symm
  | start l => simp only [answer?, running, a.engine.current, after]
  | stop => simp only [answer?, running]
  | shutdown => simp only [answer?, a.engine.current, after]
  | goOn =>
    simp only [answer?, ← a.call, a.engine.current, after, Engine.abandon, a.engine.settings]
  | _ => rfl

/-- A step of the first state, done by somebody else, is done in the second as well. -/
def DoneAlike (I : Interpreter ω σ) (id : Nat) (l : Label ω) (s s' t : Ensemble ω σ) : Prop :=
  l.run? ≠ some id ∧ ∃ t', t.step I l = some t' ∧ Alike id s' t' ∧ t.answer? l = s.answer? l

/-- A step of the first state is one of the second; or it is one of the disowned run, of which the
second keeps what it makes of the world; or a message is taken that the second does not have. -/
theorem Alike.step (a : Alike id s t) (al : s.Aloof id) (h : s.step I l = some s') :
    DoneAlike I id l s s' t ∨
      l.run? = some id ∧ Alike id s' { t with engine.world := s'.engine.world } ∨
      l = .take ∧ Alike id s' t := by
  have kept (other : l.run? = none) {t' : Ensemble ω σ} (ht : t.step I l = some t')
      (a' : Alike id s' t') : DoneAlike I id l s s' t :=
    ⟨by rw [other]; nofun, t', ht, a', a.answer_eq al l⟩
  cases l with
  | setScript source =>
    simp only [Ensemble.step, Option.ite_none_right_eq_some, Option.some.injEq] at h
    obtain ⟨free, rfl⟩ := h
    exact .inl (kept rfl (by simp only [Ensemble.step, a.isFree free, if_true])
      (a.set_engine (a.engine.setScript (a.isRunning_eq al) source).2))
  | setSearchDirs dirs =>
    simp only [Ensemble.step, Option.ite_none_right_eq_some, Option.some.injEq] at h
    obtain ⟨free, rfl⟩ := h
    exact .inl (kept rfl (by simp only [Ensemble.step, a.isFree free, if_true])
      (a.set_engine (a.engine.setSearchDirs (a.isRunning_eq al) dirs).2))
  | start launch =>
    simp only [Ensemble.step, Option.ite_none_right_eq_some, Option.some.injEq] at h
    obtain ⟨free, rfl⟩ := h
    refine .inl (kept rfl (by simp only [Ensemble.step, a.isFree free, if_true]; rfl) ?_)
    rw [← a.isRunning_eq al]
    split
    · exact a
    · exact a.await al.slot (some launch)
  | stop =>
    simp only [Ensemble.step, Option.ite_none_right_eq_some, Option.some.injEq] at h
    obtain ⟨free, rfl⟩ := h
    exact .inl (kept rfl (by simp only [Ensemble.step, a.isFree free, if_true])
      (a.requestStop al false))
  | shutdown =>
    simp only [Ensemble.step, Option.ite_none_right_eq_some, Option.some.injEq] at h
    obtain ⟨free, rfl⟩ := h
    exact .inl (kept rfl (by simp only [Ensemble.step, a.isFree free, if_true])
      (a.requestStop al true))
  | goOn =>
    simp only [Ensemble.step, Option.ite_none_right_eq_some] at h
    obtain ⟨rest, h⟩ := h
    obtain ⟨t', ht, a'⟩ := a.goOn al h
    exact .inl (kept rfl (by simp only [Ensemble.step, a.resting rest, if_true, ht]) a')
  | giveUp =>
    simp only [Ensemble.step] at h
    split at h
    · rename_i j next hc
      simp only [Option.ite_none_right_eq_some, Option.some.injEq] at h
      obtain ⟨rest, rfl⟩ := h
      refine .inl (kept rfl ?_ (a.with_call _))
      simp only [Ensemble.step, ← a.call, hc, a.resting rest, if_true]
    · cases h
  | take =>
    have receives : s.take = some s' ∧ t.step I .take = t.take := by
      cases hc : s.call with
      | idle | waiting => simpa [Ensemble.step, ← a.call, hc] using h
      | _ => simp [Ensemble.step, hc] at h
    rcases a.take al receives.1 with ⟨t', ht, a'⟩ | a'
    · exact .inl (kept rfl (receives.2.trans ht) a')
    · exact .inr (.inr ⟨rfl, a'⟩)
  | other x =>
    cases h
    by_cases hx : x.run = id
    · exact .inr (.inl ⟨congrArg some hx, a.act_own al hx⟩)
    · exact .inl ⟨by simpa [Label.run?] using hx, _, rfl, a.act hx, a.answer_eq al _⟩
  | dropPump j =>
    simp only [Ensemble.step, Option.ite_none_right_eq_some, Option.some.injEq] at h
    obtain ⟨gone, rfl⟩ := h
    by_cases hj : j = id
    · subst hj
      refine .inr (.inl ⟨rfl, ?_, a.call, a.taking, a.heard⟩)
      exact { a.engine.modifyRun_own _ with world := rfl }
    · rw [a.engine.queue.slot j hj] at gone
      refine .inl ⟨by simpa [Label.run?] using hj, _, ?_, a.set_engine (a.engine.modifyRun _ j),
        a.answer_eq al _⟩
      simp only [Ensemble.step, gone, if_true]
      rfl
  | outside w =>
    cases h
    exact .inl (kept rfl rfl (a.set_engine { a.engine with world := rfl }))

/-- What is seen of the two steps is the same, as the states behind them are alike. -/
theorem Alike.sight_eq {l' : Label ω} (a : Alike id s' t') (al : s'.Aloof id)
    (answer : t.answer? l' = s.answer? l) : t.sight l' t' = s.sight l s' := by
  simp only [sight, answer, a.heard, a.engine.queue.receive, a.engine.phase_eq al.shown,
    a.isRunning_eq al, a.engine.leaked, a.engine.payload, a.engine.settings, a.engine.world]

/-- A worker, a pump and the receiver answer no call. -/
theorem answer?_eq_none (s : Ensemble ω σ) (h : l.run? = some id ∨ l = .take) : s.answer? l = none := by
  rcases h with own | rfl
  · cases l with
    | other | dropPump => rfl
    | _ => cases own
  · rfl

/-! ## Many steps -/

variable {ok : Label ω → Prop}

theorem Reached.aloof (h : Reached I ok (initial settings world) s) (gone : .abandoned id ∈ s.log) :
    s.Aloof id :=
  aloof_of_gone h.sound h.ruled (Note.mem_partings.mpr gone) ((h.abandoned id).mpr gone)

/-- A state is like itself once the run is disowned. -/
theorem Reached.alike (h : Reached I ok (initial settings world) s) (gone : .abandoned id ∈ s.log) :
    Alike id s s := by
  have abandoned := (h.abandoned id).mpr gone
  exact ⟨⟨rfl, rfl, rfl, rfl, rfl, rfl, rfl, fun _ _ => rfl,
    ⟨⟨fun _ _ => rfl, rfl, abandoned, abandoned, rfl⟩, rfl, .refl _⟩⟩, rfl, .inl rfl, rfl⟩

theorem Reached.abandoned_kept (h : Reached I ok (initial settings world) s)
    (hs : s.step I l = some s') (gone : .abandoned id ∈ s.log) : .abandoned id ∈ s'.log := by
  obtain ⟨ns, adds⟩ := (step_cases h.sound hs).adds h.sound
  rw [adds.log]
  exact List.mem_append_left _ gone

/-- The run `ls'` from `t` is the run `ls` from `s` without steps of the run `id`. -/
inductive Omits (I : Interpreter ω σ) (id : Nat) :
    Ensemble ω σ → Ensemble ω σ → List (Label ω) → List (Label ω) → Prop where
  | nil {s t : Ensemble ω σ} : Omits I id s t [] []
  /-- What somebody else does is done, and the same is seen of it. -/
  | kept {s s' t t' : Ensemble ω σ} {l : Label ω} {ls ls' : List (Label ω)}
    (other : l.run? ≠ some id) (hs : s.step I l = some s') (ht : t.step I l = some t')
    (seen : t.sight l t' = s.sight l s') (rest : Omits I id s' t' ls ls') :
    Omits I id s t (l :: ls) (l :: ls')
  /-- A step of the run, or the taking of a message, is left out, and nothing is seen of it. -/
  | omitted {s s' t : Ensemble ω σ} {l : Label ω} {ls ls' : List (Label ω)}
    (own : l.run? = some id ∨ l = .take) (hs : s.step I l = some s')
    (unseen : s.sight l s' = s.outlook) (rest : Omits I id s' t ls ls') :
    Omits I id s t (l :: ls) ls'
  /-- The script of the run changes the world, which now changes by itself. -/
  | traced {s s' t t' : Ensemble ω σ} {l : Label ω} {ls ls' : List (Label ω)}
    (own : l.run? = some id) (hs : s.step I l = some s')
    (changes : s'.engine.world ≠ s.engine.world)
    (ht : t.step I (.outside s'.engine.world) = some t')
    (seen : t.sight (.outside s'.engine.world) t' = s.sight l s') (rest : Omits I id s' t' ls ls') :
    Omits I id s t (l :: ls) (.outside s'.engine.world :: ls')

/-- The script of the run `id` leaves the world alone. -/
def LeavesAlone (I : Interpreter ω σ) (id : Nat) (s : Ensemble ω σ) (ls : List (Label ω)) : Prop :=
  ∀ before l after u u', ls = before ++ l :: after → l.run? = some id → exec I s before = some u →
    u.step I l = some u' → u'.engine.world = u.engine.world

/-- So it does if no script of the interpreter changes the world. -/
theorem leavesAlone_of_work (still : ∀ p w, (I.work p w).2 = w) (s : Ensemble ω σ)
    (ls : List (Label ω)) : LeavesAlone I id s ls := by
  have worker (j : Nat) (x : Run.Shared ω σ) : (Run.workerStep I j x).world = x.world := by
    obtain ⟨r, q, w⟩ := x
    cases hr : r.stage with
    | executing p =>
      simp only [Run.workerStep, Run.execute, hr]
      cases I.signal p with
      | working | waiting => exact still p w
      | line n | write bytes => dsimp only; split <;> rfl
      | ended failure => rfl
    | finalizing p o =>
      simp only [Run.workerStep, Run.finalize, hr]
      cases I.signal p with
      | working | waiting => exact still p w
      | write bytes => dsimp only; split <;> rfl
      | _ => rfl
    | _ => simp only [Run.workerStep, hr]
  intro before l after u u' _ own _ step
  cases l with
  | other a =>
    cases step
    cases a with
    | worker j =>
      simp only [act, Engine.step]
      split
      · exact worker j _
      · rfl
    | pump j g =>
      simp only [act, Engine.step]
      split <;> rfl
    | patience j | fault j => rfl
  | dropPump j =>
    simp only [Ensemble.step, Option.ite_none_right_eq_some, Option.some.injEq] at step
    obtain ⟨_, rfl⟩ := step
    rfl
  | _ => cases own

namespace Omits

/-- Nothing of the run is left. -/
theorem run?_ne (o : Omits I id s t ls ls') : ∀ l ∈ ls', l.run? ≠ some id := by
  induction o with
  | nil => exact fun l hl => absurd hl List.not_mem_nil
  | kept other _ _ _ _ ih =>
    intro l hl
    rcases List.mem_cons.mp hl with rfl | hl
    · exact other
    · exact ih l hl
  | omitted _ _ _ _ ih => exact ih
  | traced _ _ _ _ _ _ ih =>
    intro l hl
    rcases List.mem_cons.mp hl with rfl | hl
    · exact nofun
    · exact ih l hl

/-- Where the script leaves the world alone, steps are only left out. -/
theorem sublist (o : Omits I id s t ls ls') (alone : LeavesAlone I id s ls) : ls'.Sublist ls := by
  have later {s s' : Ensemble ω σ} {l : Label ω} {ls : List (Label ω)} (hs : s.step I l = some s')
      (alone : LeavesAlone I id s (l :: ls)) : LeavesAlone I id s' ls :=
    fun before l' after u u' split own hu step =>
      alone (l :: before) l' after u u' (by rw [split, List.cons_append]) own
        (by rw [exec, hs, Option.bind_some, hu]) step
  induction o with
  | nil => exact List.Sublist.refl _
  | kept _ hs _ _ _ ih => exact (ih (later hs alone)).cons_cons _
  | omitted _ hs _ _ ih => exact (ih (later hs alone)).cons _
  | traced own hs changes => exact absurd (alone [] _ _ _ _ rfl own rfl hs) changes

end Omits

/-- Whatever is done from one of two states that are alike, is done from the other without the
disowned run. -/
theorem Reached.follow (reached : Reached I (fun _ => True) (initial settings world) s)
    (gone : .abandoned id ∈ s.log) (a : Alike id s t) (h : exec I s ls = some s') :
    ∃ ls' t', exec I t ls' = some t' ∧ Omits I id s t ls ls' ∧ Alike id s' t' := by
  induction ls generalizing s t with
  | nil =>
    cases h
    exact ⟨[], t, rfl, .nil, a⟩
  | cons l ls ih =>
    obtain ⟨s₁, step, h⟩ := Option.bind_eq_some_iff.mp h
    have aloof := reached.aloof gone
    have reached₁ := reached.step trivial step
    have gone₁ := reached.abandoned_kept step gone
    have aloof₁ := reached₁.aloof gone₁
    have omits (own : l.run? = some id ∨ l = .take) (a₁ : Alike id s₁ t) :
        ∃ ls' t', exec I t ls' = some t' ∧ Omits I id s t (l :: ls) ls' ∧ Alike id s' t' := by
      obtain ⟨ls', t', h', rest, a'⟩ := ih reached₁ gone₁ a₁ h
      have ahead : t.outlook = s.sight l s₁ := a₁.sight_eq aloof₁ (s.answer?_eq_none own).symm
      have here : t.outlook = s.outlook := a.sight_eq aloof rfl
      have unseen : s.sight l s₁ = s.outlook := ahead.symm.trans here
      exact ⟨ls', t', h', .omitted own step unseen rest, a'⟩
    rcases a.step aloof step with ⟨other, t₁, step', a₁, answer⟩ | ⟨own, a₁⟩ | ⟨taken, a₁⟩
    · obtain ⟨ls', t', h', rest, a'⟩ := ih reached₁ gone₁ a₁ h
      refine ⟨l :: ls', t', ?_, .kept other step step' (a₁.sight_eq aloof₁ answer) rest, a'⟩
      rw [exec, step', Option.bind_some, h']
    · by_cases same : s₁.engine.world = s.engine.world
      · refine omits (.inl own) ?_
        rwa [same, a.engine.world] at a₁
      · obtain ⟨ls', t', h', rest, a'⟩ := ih reached₁ gone₁ a₁ h
        exact ⟨.outside s₁.engine.world :: ls', t', h', .traced own step same rfl
          (a₁.sight_eq aloof₁ (s.answer?_eq_none (.inl own)).symm) rest, a'⟩
    · exact omits (.inr taken) a₁

/-- Nothing more is heard of a disowned run. -/
theorem Reached.heard_eq (reached : Reached I (fun _ => True) (initial settings world) s)
    (gone : .abandoned id ∈ s.log) (h : exec I s ls = some s') : s'.heard id = s.heard id := by
  have kept : .abandoned id ∈ s'.log ∧ s'.heard id = s.heard id := by
    refine exec_induction (P := fun _ t => .abandoned id ∈ t.log ∧ t.heard id = s.heard id)
      ⟨gone, rfl⟩ ?_ h
    intro ls t l t' ht ⟨gone, heard⟩ step
    have reached := reached.of_exec ht
    obtain ⟨ns, adds⟩ := (step_cases reached.sound step).adds reached.sound
    refine ⟨reached.abandoned_kept step gone, ?_⟩
    have silent : Note.heard (ns.filter (·.run = id)) = [] := by
      refine List.filterMap_eq_nil_iff.mpr fun n hn => ?_
      obtain ⟨mem, own⟩ := List.mem_filter.mp hn
      cases n with
      | delivered r e =>
        obtain rfl : r = id := of_decide_eq_true own
        have kept := adds.delivered r e mem
        rw [(reached.abandoned r).mpr gone] at kept
        cases kept
      | _ => rfl
    rw [← heard, Ensemble.heard, notes, adds.log, List.filter_append, Note.heard_append, silent,
      List.append_nil]
    rfl
  exact kept.2

/-- **What a disowned run still does is not seen**, but for the traces that its script leaves in the
world. Whatever is done from a state in which the run `id` is disowned is done as well while its
worker and its pump stand still; the controller sees the same of every step that is left, and
nothing of those that are left out; every other run goes the same way. Where the script changes the
world, the change is still made, and where it leaves the world alone, steps are left out and none is
put in their place. And nothing more is heard of the run, whether it was sent before or after. -/
theorem disowned_unseen {before : List (Label ω)}
    (h : exec I (initial settings world) before = some s) (gone : .abandoned id ∈ s.log)
    (h' : exec I s ls = some s') :
    (∃ ls' t, exec I s ls' = some t ∧ (∀ l ∈ ls', l.run? ≠ some id) ∧ Omits I id s s ls ls' ∧
      (LeavesAlone I id s ls → ls'.Sublist ls) ∧ ∀ j ≠ id, t.engine.run j = s'.engine.run j) ∧
    s'.heard id = s.heard id := by
  have reached := Reached.start.of_exec h
  obtain ⟨ls', t, h₂, o, a⟩ := reached.follow gone (reached.alike gone) h'
  exact ⟨⟨ls', t, h₂, o.run?_ne, o, o.sublist, fun j hj => (a.engine.run_eq hj).symm⟩,
    reached.heard_eq gone h'⟩

/-- The worker of a disowned run wakes up, and that of the run behind it begins. -/
def bothWork : List (Label (List Signal)) :=
  [.other (.worker 0), .other (.worker 1), .other (.worker 0)] ++ .replicate 4 .take

/-- The state behind it. -/
def afterBothWork : Ensemble (List Signal) (List Signal) :=
  (exec replay afterRelaunch bothWork).get (by decide +kernel)

theorem exec_bothWork : exec replay afterRelaunch bothWork = some afterBothWork := (Option.some_get _).symm

/-- Its report is passed over, and that of the run behind it is heard. Its script leaves the world
alone, and nothing is put in the place of its steps. -/
theorem disowned_unseen_bothWork :
    (∃ ls' t, exec replay afterRelaunch ls' = some t ∧ (∀ l ∈ ls', l.run? ≠ some 0) ∧
      Omits replay 0 afterRelaunch afterRelaunch bothWork ls' ∧ ls'.Sublist bothWork ∧
      t.engine.run 1 = afterBothWork.engine.run 1) ∧
    afterBothWork.heard 0 = [] ∧ afterBothWork.heard 1 = [.started] := by
  have gone : .abandoned 0 ∈ afterRelaunch.log := by decide +kernel
  obtain ⟨⟨ls', t, exec, still, omits, sublist, runs⟩, heard⟩ :=
    disowned_unseen exec_relaunch gone exec_bothWork
  have alone : LeavesAlone replay 0 afterRelaunch bothWork := leavesAlone_of_work (fun _ _ => rfl) _ _
  refine ⟨⟨ls', t, exec, still, omits, sublist alone, runs 1 (by decide)⟩, heard.trans ?_, ?_⟩ <;>
    decide +kernel

/-! ## Traces in the world -/

/-- An interpreter whose scripts leave a mark in the world, and fail where they find one. -/
def marking : Interpreter Bool (Option (Option String)) where
  launch _ _ _ := none
  signal
    | none => .working
    | some failure => .ended failure
  work s marked := (s <|> some (if marked then some "marked" else none), true)
  answerLine s _ := s
  answerWrite s _ := s
  close _ := some none

/-- A run is given up whose script is about to work. -/
def givenUp : List (Label Bool) :=
  .start .works :: .replicate 2 (.other (.worker 0)) ++
    [.take, .take, .shutdown, .goOn, .goOn, .giveUp, .goOn, .goOn]

/-- Nothing of it is in the queue, and it sends nothing any more. -/
def unmarked : Ensemble Bool (Option (Option String)) :=
  (exec marking (initial {} false) givenUp).get (by decide +kernel)

/-- Its script works, and another run of the script is launched and ends. -/
def markedRun : List (Label Bool) :=
  .other (.worker 0) :: .start .works :: .replicate 7 (.other (.worker 1)) ++
    .other (.pump 1 (.upTo 7)) :: .replicate 4 (.other (.pump 1 .nothing)) ++
    .replicate 4 (.other (.worker 1)) ++ .replicate 4 .take

/-- **A disowned run leaves traces in the world.** The run behind it comes across its mark and fails.
If the worker of the disowned run stands still, it finishes. -/
theorem disowned_traced :
    exec marking (initial {} false) givenUp = some unmarked ∧ .abandoned 0 ∈ unmarked.log ∧
      unmarked.engine.queue.toList = [] ∧ unmarked.taking = .resting ∧
      (exec marking unmarked markedRun).map (·.heard 1) = some [.started, .output "marked\n"] ∧
      (exec marking unmarked (markedRun.filter (·.run? ≠ some 0))).map (·.heard 1) =
        some [.started, .stopped .finished] := by
  refine ⟨(Option.some_get _).symm, ?_, ?_, ?_, ?_, ?_⟩ <;> decide +kernel

end Ensemble
end ScriptHost
