import ScriptHost.Proofs.Control.Rule
import ScriptHost.Proofs.Delivery.Grammar

/-!
# Requests for a stop arrive, and at their run

The token of a run is made with it and never taken back. The controller sets it
when it requests a stop of the run, or gives the run up; the worker reads it at
each line, and what it has read there decides between the outcomes.

* `Requested`: a stop was requested while a run was the running one.
* `Ends`: a run ends with an outcome.
* `stops_of_request`: a request has the token of its run set.
* `stopped_of_testing`: with the token set, a line is answered with a stop, and
  then the run ends cancelled.
* `requested_of_ends`: no other run is cancelled but one that is given up.
-/
namespace ScriptHost

variable {ω σ : Type} {I : Interpreter ω σ}

theorem Stage.verdict_of_outcome {x : Stage σ} {o : Outcome} (h : x.outcome? = some o) :
    x.verdict? = some (decide (o = .cancelled)) := by
  cases x <;> cases h <;> rfl

theorem Launch.Gives.token_eq {launch : Launch} {r : Run σ} (h : launch.Gives r) :
    r.token = false := by
  cases h <;> rfl

namespace Run.Turn

variable {r r' : Run σ}

/-- The script is stopped only where a line is tested. -/
theorem tripped_eq (h : Turn I r r') (hr : ∀ x, r.stage ≠ .testing x) : r'.tripped = r.tripped := by
  cases h with
  | pass _ _ _ tripped => exact tripped
  | test x h => exact absurd h (hr x)
  | _ => rfl

theorem tripped_of (h : Turn I r r') (hr : r.tripped = true) : r'.tripped = true := by
  cases h with
  | pass _ _ _ tripped => rw [tripped, hr]
  | test x h => simp [hr]
  | _ => exact hr

end Run.Turn

/-- A stop is announced by a worker that leaves. -/
theorem View.Step.stopped_mem {id : Nat} {last : Option UInt32} {l : Label ω} {v v' : View σ}
    {o : Outcome} (h : View.Step id last l v v') (ho : .stopped o ∈ v'.trail) :
    .stopped o ∈ v.trail ∨ v.run.stage = .leaving o ∧ v'.run.stage = .ending := by
  cases h with
  | run h =>
    rw [trail_run _ h, List.mem_append] at ho
    refine ho.imp_right fun ho => ?_
    cases h with
    | leave o' stage =>
      obtain rfl : o = o' := by simpa [Message.outline] using ho
      exact ⟨stage, rfl⟩
    | _ => simp [Message.outline] at ho
  | silence => exact .inl (by simpa [View.trail, pending] using ho)
  | dequeue h hq => exact .inl (by simpa [View.trail, pending, h, hq, Taking.messages] using ho)
  | drop h =>
    refine .inl ?_
    simp only [View.trail, pending, h, Taking.messages, List.nil_append, List.mem_append] at ho ⊢
    exact ho.imp_right fun ho => by simp [ho]
  | deliver h =>
    exact .inl (by simpa [View.trail, pending, h, Taking.messages, Message.outline] using ho)
  | turn h | clear h | load h =>
    exact .inl (by simpa [View.trail, pending, h, Taking.messages, Message.outline] using ho)
  | same h | tell h =>
    refine .inl ?_
    simpa [View.trail, pending, h, Taking.messages, Message.outline] using ho

/-- The outcome of a launch that fails. -/
theorem View.fresh_stopped {id : Nat} {launch : Launch} {r : Run σ} {o : Outcome}
    (gives : launch.Gives r) (ho : .stopped o ∈ (View.fresh id launch r).trail) :
    r.stage.isMute = true ∧ decide (o = .cancelled) = r.tripped := by
  have refused : launch.refusal? = some o := by
    cases hr : launch.refusal? <;>
      simp_all [View.trail, View.pending, View.fresh, Taking.messages, Message.outline]
  cases gives with
  | works => cases refused
  | fails =>
    refine ⟨rfl, ?_⟩
    cases launch <;> cases refused <;> rfl

namespace Ensemble

variable {s s' : Ensemble ω σ} {l : Label ω} {id : Nat} {settings : Settings} {world : ω}
  {ok : Label ω → Prop} {o : Outcome}

/-! ## What a run ends with -/

/-- A run ends with an outcome: its worker has settled on it, or has announced it. -/
def Ends (s : Ensemble ω σ) (id : Nat) (o : Outcome) : Prop :=
  (s.engine.run id).stage.outcome? = some o ∨ .stopped o ∈ (s.view id).trail

theorem Treats.tripped_eq (c : Treats I s s' id)
    (h : ∀ x, (s.engine.run id).stage ≠ .testing x) :
    (s'.engine.run id).tripped = (s.engine.run id).tripped := by
  cases c with
  | turns turn => exact turn.tripped_eq h
  | cancels run | requests run => rw [run]

theorem Treats.tripped_of (c : Treats I s s' id) (h : (s.engine.run id).tripped = true) :
    (s'.engine.run id).tripped = true := by
  cases c with
  | turns turn => exact turn.tripped_of h
  | cancels run | requests run => rw [run, h]

theorem Treats.isMute_of (c : Treats I s s' id) (h : (s.engine.run id).stage.isMute = true) :
    (s'.engine.run id).stage.isMute = true := by
  cases c with
  | turns turn => exact turn.isMute_of h
  | cancels run | requests run => rwa [run]

/-- An announced outcome is the one of a worker that has said everything. -/
theorem Reached.announced (h : Reached I ok (initial settings world) s)
    (hid : id < s.engine.runs.size) (ho : .stopped o ∈ (s.view id).trail) :
    (s.engine.run id).stage.isMute = true ∧
      decide (o = .cancelled) = (s.engine.run id).tripped := by
  induction h with
  | start => cases hid
  | @step s s' l h hl hs ih =>
    have step := step_cases h.sound hs
    by_cases hid' : id < s.engine.runs.size
    · have treats := (h.ruled.conduct hs).treats hid'
      rcases (step.view h.sound hid').stopped_mem ho with before | ⟨leaving, ending⟩
      · -- its worker has said everything, and the verdict on its script is not changed any more
        obtain ⟨mute, verdict⟩ := ih hid' before
        have same := treats.tripped_eq fun x hx => by rw [hx] at mute; cases mute
        exact ⟨treats.isMute_of mute, verdict.trans same.symm⟩
      · have leaving : (s.engine.run id).stage = .leaving o := leaving
        have ending : (s'.engine.run id).stage = .ending := ending
        refine ⟨by rw [ending]; rfl, ?_⟩
        rw [treats.tripped_eq fun x hx => by rw [hx] at leaving; cases leaving]
        exact (h.steady hid').verdict _ (by rw [leaving]; rfl)
    · obtain ⟨launch, r, gives, view⟩ := step.fresh h.sound (by omega) hid
      have run : s'.engine.run id = r := congrArg View.run view
      rw [view] at ho
      rw [run]
      exact View.fresh_stopped gives ho

/-- The outcome tells whether the script was stopped at a line. -/
theorem Reached.ends (h : Reached I ok (initial settings world) s)
    (hid : id < s.engine.runs.size) (ho : s.Ends id o) :
    decide (o = .cancelled) = (s.engine.run id).tripped := by
  rcases ho with ho | ho
  · exact (h.steady hid).verdict _ (Stage.verdict_of_outcome ho)
  · exact (h.announced hid ho).2

/-! ## The token -/

theorem Treats.token_of (c : Treats I s s' id) (h : (s.engine.run id).token = true) :
    (s'.engine.run id).token = true := by
  cases c with
  | turns turn => rw [turn.token_eq, h]
  | cancels run => rw [run]
  | requests run => rw [run, h]

/-- The token of a run is set, or the call is at setting it. -/
def Urgent (s : Ensemble ω σ) (id : Nat) : Prop :=
  (s.engine.run id).token = true ∨ ∃ leave, s.call = .cancelling id leave

theorem Treats.urgent (c : Treats I s s' id) (h : s.Urgent id) : s'.Urgent id := by
  rcases h with token | ⟨leave, call⟩
  · exact .inl (c.token_of token)
  · cases c with
    | turns _ cancelling => exact .inr ⟨leave, cancelling leave call⟩
    | cancels run => exact .inl (by rw [run])
    | requests _ _ call' =>
      rw [call] at call'
      cases call'

/-- A stop or a shutdown was called for while the run was the running one. -/
def Requested (I : Interpreter ω σ) (s₀ : Ensemble ω σ) (ls : List (Label ω)) (id : Nat) : Prop :=
  ∃ before request after s, ls = before ++ request :: after ∧
    (request = .stop ∨ request = .shutdown) ∧ exec I s₀ before = some s ∧
    s.engine.current = some id ∧ s.engine.isRunning = true

theorem Requested.snoc {s₀ : Ensemble ω σ} {ls : List (Label ω)} (h : Requested I s₀ ls id)
    (l : Label ω) : Requested I s₀ (ls ++ [l]) id := by
  obtain ⟨before, request, after, s, rfl, call, hs, current, running⟩ := h
  exact ⟨before, request, after ++ [l], s, by simp, call, hs, current, running⟩

/-- A call that is at setting the token, or has set it, was called for. -/
theorem requested_of_call {ls : List (Label ω)}
    (h : exec I (initial settings world) ls = some s) :
    ∀ id leave, s.call = .cancelling id leave ∨ s.call = .marking id leave →
      Requested I (initial settings world) ls id := by
  refine exec_induction (P := fun ls s => ∀ id leave,
    s.call = .cancelling id leave ∨ s.call = .marking id leave →
      Requested I (initial settings world) ls id) ?_ ?_ h
  · rintro id leave (hc | hc) <;> cases hc
  · intro ls s l s' hs ih step id leave hc
    have reached := Reached.start.of_exec hs
    have before (hc : s.call = .cancelling id leave ∨ s.call = .marking id leave) :
        Requested I (initial settings world) (ls ++ [l]) id := (ih id leave hc).snoc l
    cases reached.ruled.conduct step with
    | aside _ _ call | work _ _ _ _ _ _ _ call =>
      rw [call] at hc
      exact before hc
    | request j leave' hl free current running =>
      have hj : j = id := by
        rcases hc with hc | hc <;> cases hc
        rfl
      subst hj
      refine ⟨ls, l, [], s, rfl, ?_, hs, current, running⟩
      rw [hl]
      cases leave'
      · exact .inl rfl
      · exact .inr rfl
    | cancel j leave' _ call =>
      rcases hc with hc | hc <;> cases hc
      exact before (.inl call)
    | mark | leave | await | settle | launch | giveUp | forsake | silence =>
      rcases hc with hc | hc <;> cases hc

/-- A run is given up: its wait is over, and it is disowned or just about to be. -/
def GivenUp (s : Ensemble ω σ) (id : Nat) : Prop :=
  s.call = .silencing id ∨ .abandoned id ∈ s.log

theorem givenUp_iff : s.GivenUp id ↔ s.call = .silencing id ∨ id ∈ Note.partings s.log := by
  rw [GivenUp, Note.mem_partings]

/-- No token is set for any other reason. -/
theorem requested_of_token {ls : List (Label ω)}
    (h : exec I (initial settings world) ls = some s) (hid : id < s.engine.runs.size)
    (token : (s.engine.run id).token = true) :
    Requested I (initial settings world) ls id ∨ s.GivenUp id := by
  revert hid token
  refine exec_induction (P := fun ls s => id < s.engine.runs.size →
    (s.engine.run id).token = true →
      Requested I (initial settings world) ls id ∨ s.GivenUp id) (fun hid => by cases hid) ?_ h
  intro ls s l s' hs ih step hid token
  have reached := Reached.start.of_exec hs
  have c := reached.ruled.conduct step
  by_cases hid' : id < s.engine.runs.size
  · have before (token : (s.engine.run id).token = true)
        (parted : s.call = .silencing id ∨ id ∈ Note.partings s.log →
          s'.call = .silencing id ∨ id ∈ Note.partings s'.log) :
        Requested I (initial settings world) (ls ++ [l]) id ∨ s'.GivenUp id :=
      (ih hid' token).imp (·.snoc l) fun up => givenUp_iff.mpr (parted (givenUp_iff.mp up))
    cases c.treats hid' with
    | turns turn _ _ parted => exact before (turn.token_eq ▸ token) parted
    | cancels run about =>
      rcases about with ⟨leave, call, _⟩ | ⟨_, call'⟩
      · exact .inl ((requested_of_call hs id leave (.inl call)).snoc l)
      · exact .inr (.inl call')
    | requests run _ _ _ parted =>
      rw [run] at token
      exact before token parted
  · obtain ⟨_, launch, gives⟩ := c.fresh reached.sound hid' hid
    rw [gives.token_eq] at token
    cases token

/-! ## Requests -/

/-- The test of a line whose run has its token set. -/
theorem act_testing {x : σ} (hid : id < s.engine.runs.size)
    (hx : (s.engine.run id).stage = .testing x) (token : (s.engine.run id).token = true) :
    ((s.act I (.worker id)).engine.run id).stage = .executing (I.answerLine x true) ∧
      ((s.act I (.worker id)).engine.run id).tripped = true := by
  have here : s.engine.runs[id]? = some (s.engine.run id) := by simp [Engine.run, hid]
  have runs : (s.act I (.worker id)).engine.runs = s.engine.runs.setIfInBounds id
      (Run.workerStep I id ⟨s.engine.run id, s.engine.queue, s.engine.world⟩).run := by
    simp [act, Engine.step, here]
  rw [run_set hid runs, if_pos rfl]
  simp [Run.workerStep, hx, token]

/-- A line that is tested while the token is set is answered with a stop, and then the run ends
cancelled, whatever the script makes of the answer. -/
theorem stopped_of_testing {x : σ} (h : Reached I (fun _ => True) (initial settings world) s)
    (hid : id < s.engine.runs.size) (token : (s.engine.run id).token = true)
    (hx : (s.engine.run id).stage = .testing x) :
    ((s.act I (.worker id)).engine.run id).stage = .executing (I.answerLine x true) ∧
      ∀ rest u o, exec I (s.act I (.worker id)) rest = some u → u.Ends id o → o = .cancelled := by
  obtain ⟨stage, tripped⟩ := act_testing (I := I) hid hx token
  have step : s.step I (.other (.worker id)) = some (s.act I (.worker id)) := rfl
  refine ⟨stage, fun rest u o hu ho => ?_⟩
  have reached := h.step trivial step
  have hid' := Nat.lt_of_lt_of_le hid ((h.ruled.conduct step).size_le h.sound)
  obtain ⟨hidu, trippedu⟩ := reached.later (P := fun t => (t.engine.run id).tripped = true) hid'
    (fun c => c.tripped_of) tripped hu
  have verdict := (reached.of_exec hu).ends hidu ho
  rw [trippedu] at verdict
  exact of_decide_eq_true verdict

/-- A stop that is called for while a run is the running one is at setting its token. -/
theorem urgent_of_request {request : Label ω} (call : request = .stop ∨ request = .shutdown)
    (current : s.engine.current = some id) (running : s.engine.isRunning = true)
    (h : s.step I request = some s') : s'.Urgent id := by
  have asked (leave : Bool) : (s.requestStop leave).call = .cancelling id leave := by
    simp [requestStop, current, running]
  rcases call with rfl | rfl
  · simp only [step, Option.ite_none_right_eq_some, Option.some.injEq] at h
    obtain ⟨_, rfl⟩ := h
    exact .inr ⟨false, asked false⟩
  · simp only [step, Option.ite_none_right_eq_some, Option.some.injEq] at h
    obtain ⟨_, rfl⟩ := h
    exact .inr ⟨true, asked true⟩

/-- A stop or a shutdown called for while a run is the running one stops it once the token is set, and
in particular once the call is over. -/
theorem stops_of_request {request : Label ω} {between : List (Label ω)} {t : Ensemble ω σ}
    (h : Reached I (fun _ => True) (initial settings world) s) (hid : id < s.engine.runs.size)
    (call : request = .stop ∨ request = .shutdown) (current : s.engine.current = some id)
    (running : s.engine.isRunning = true) (ht : exec I s (request :: between) = some t)
    (past : ∀ leave, t.call ≠ .cancelling id leave) :
    Reached I (fun _ => True) (initial settings world) t ∧ id < t.engine.runs.size ∧
      (t.engine.run id).token = true := by
  obtain ⟨s₁, step, ht'⟩ := Option.bind_eq_some_iff.mp ht
  have reached₁ := h.step trivial step
  have hid₁ := Nat.lt_of_lt_of_le hid ((h.ruled.conduct step).size_le h.sound)
  obtain ⟨hidt, urgent⟩ := reached₁.later (P := fun t => t.Urgent id) hid₁
    (fun c => c.urgent) (urgent_of_request call current running step) ht'
  refine ⟨reached₁.of_exec ht', hidt, ?_⟩
  rcases urgent with token | ⟨leave, hc⟩
  · exact token
  · exact absurd hc (past leave)

/-- A run is cancelled only if a stop was requested of it, or it was given up. -/
theorem requested_of_ends {ls : List (Label ω)} (h : exec I (initial settings world) ls = some s)
    (hid : id < s.engine.runs.size) (ends : s.Ends id .cancelled) :
    Requested I (initial settings world) ls id ∨ s.GivenUp id := by
  have reached := Reached.start.of_exec h
  exact requested_of_token h hid ((reached.steady hid).tripped (reached.ends hid ends).symm)

/-- A token that is set stays so. -/
theorem Reached.token_of {later : List (Label ω)} {t : Ensemble ω σ}
    (h : Reached I (fun _ => True) (initial settings world) s) (hid : id < s.engine.runs.size)
    (token : (s.engine.run id).token = true) (ht : exec I s later = some t) :
    (t.engine.run id).token = true :=
  (h.later (P := fun t => (t.engine.run id).token = true) hid (fun c => c.token_of) token ht).2

/-- A run was launched, and its worker has not begun. -/
def launched : Ensemble (List Signal) (List Signal) :=
  (exec replay (initial {} [.line 3, .ended none]) [.start .works]).get (by decide +kernel)

/-- A stop was requested of it. -/
def asked : Ensemble (List Signal) (List Signal) :=
  (exec replay launched [.stop, .goOn, .goOn]).get (by decide +kernel)

theorem exec_launched :
    exec replay (initial {} [.line 3, .ended none]) [.start .works] = some launched :=
  (Option.some_get _).symm

theorem exec_asked : exec replay launched [.stop, .goOn, .goOn] = some asked :=
  (Option.some_get _).symm

end Ensemble
end ScriptHost
