import Mathlib.Data.Finset.Card
import Mathlib.Data.Finset.Option
import Mathlib.Data.Finset.Range
import ScriptHost.Proofs.Control.Sight
import ScriptHost.Proofs.Delivery.Grammar

/-!
# The engine between its calls

Whatever calls were made, in whatever way they ended and whatever the workers did
meanwhile: when no call goes on, `between_calls` holds of the engine.

* A worker that has not ended is held, or its run was abandoned; so there is at
  most one more of them than there are abandoned runs.
* The abandoned runs are counted, and each of them made one call say that a
  worker did not end in time.
* The phase is idle until the first start, is over when no worker is held, and
  tells of a running run whether its token is set.
-/
namespace ScriptHost.Ensemble

variable {ω σ : Type} {I : Interpreter ω σ} {s s' : Ensemble ω σ} {l : Label ω} {id : Nat}
  {ls : List (Label ω)} {settings : Settings} {world : ω} {ok : Label ω → Prop}

/-- The runs whose worker has not ended. -/
def living (s : Ensemble ω σ) : Finset Nat :=
  (Finset.range s.engine.runs.size).filter (s.engine.isAlive ·)

/-- The runs that were abandoned. -/
def disowned (s : Ensemble ω σ) : Finset Nat :=
  (Finset.range s.engine.runs.size).filter fun id => (s.engine.queue.slot id).abandoned

/-! ## Counting -/

/-- A step adds to the count what its answer says. -/
theorem Conduct.leaked_eq (c : Conduct I s l s') :
    s'.engine.leaked = s.engine.leaked + if timesOut (s.answer? l) = true then 1 else 0 := by
  have quiet (leaked : s'.engine.leaked = s.engine.leaked)
      (other : ¬(l = .goOn ∧ ∃ id, s.call = .silencing id)) :
      s'.engine.leaked = s.engine.leaked + if timesOut (s.answer? l) = true then 1 else 0 := by
    rw [if_neg (mt timesOut_iff.mp other), leaked, Nat.add_zero]
  cases c with
  | aside hl _ _ _ _ leaked => exact quiet leaked (hl ·.1)
  | work _ _ _ hl _ _ _ _ _ _ leaked => exact quiet leaked (hl ·.1)
  | request _ _ _ free | await _ _ _ free => exact quiet rfl (by simp [free])
  | cancel _ _ _ call | mark _ _ call | leave _ _ call | settle _ _ call | giveUp _ _ _ call
  | forsake _ _ call => exact quiet rfl (by simp [call])
  | launch launch due =>
    refine quiet (by cases launch <;> rfl) ?_
    rcases due with ⟨_, call, _⟩ | ⟨_, _, call, _⟩ <;> simp [call]
  | silence id hl call => rw [if_pos (timesOut_iff.mpr ⟨hl, id, call⟩)]; rfl

theorem leaked_eq_countP (h : exec I (initial settings world) ls = some s) :
    s.engine.leaked =
      (watch I (initial settings world) ls).countP (fun sight => timesOut sight.answer) := by
  refine exec_induction (P := fun ls s => s.engine.leaked =
    (watch I (initial settings world) ls).countP fun sight => timesOut sight.answer) rfl ?_ h
  intro ls s l s' hs ih step
  have reached := Reached.start.of_exec hs
  rw [(reached.ruled.conduct step).leaked_eq, ih, watch_append hs, watch_cons step, watch,
    List.countP_append, List.countP_singleton]
  rfl

theorem Reached.leaked_eq_card (h : Reached I ok (initial settings world) s) :
    s.engine.leaked = s.disowned.card := by
  rw [h.ruled.leaked, ← List.toFinset_card_of_nodup h.ruled.nodup]
  congr 1
  ext id
  rw [List.mem_toFinset, Note.mem_partings, disowned, Finset.mem_filter, Finset.mem_range,
    h.abandoned]
  exact ⟨fun hp => ⟨h.sound.log _ hp, hp⟩, fun hp => hp.2⟩

/-! ## Starts -/

/-- A start leaves a run behind, or has found one. -/
theorem size_of_start {launch : Launch} (hs : s.Sound)
    (le : s.engine.runs.size ≤ s'.engine.runs.size) (h : s.step I (.start launch) = some s') :
    0 < s'.engine.runs.size := by
  simp only [step, Option.ite_none_right_eq_some, Option.some.injEq] at h
  obtain ⟨free, h⟩ := h
  cases hc : s.engine.current with
  | some id =>
    have holder : s.holder = some id := (holder_of_call rfl (isFree_iff.mp free).1).trans hc
    have := hs.holder id holder
    omega
  | none =>
    have launched : s' = s.launch launch := by
      have same : { s with engine := { s.engine with current := none } } = s := by rw [← hc]
      simpa [Engine.isRunning, await, Engine.takeWorker, proceed, hc, same] using h.symm
    rw [launched, (launch_shows launch hs hc).2.1]
    exact Nat.succ_pos _

/-- There are runs if and only if one was started. -/
theorem started_iff (h : exec I (initial settings world) ls = some s) :
    0 < s.engine.runs.size ↔ ∃ launch, .start launch ∈ ls := by
  refine exec_induction (P := fun ls s => 0 < s.engine.runs.size ↔ ∃ launch, .start launch ∈ ls)
    (by simp [initial]) ?_ h
  intro ls s l s' hs ih step
  have reached := Reached.start.of_exec hs
  have c := reached.ruled.conduct step
  constructor
  · intro size
    rcases c.size with same | ⟨launch, due, rfl⟩
    · obtain ⟨launch, hl⟩ := ih.mp (same ▸ size)
      exact ⟨launch, List.mem_append_left _ hl⟩
    · rcases due with ⟨rfl, _⟩ | ⟨id, _, call, _⟩
      · exact ⟨launch, by simp⟩
      · have size := reached.sound.holder id (by simp [holder, call, Call.held?])
        obtain ⟨launch, hl⟩ := ih.mp (by omega)
        exact ⟨launch, List.mem_append_left _ hl⟩
  · rintro ⟨launch, hl⟩
    rcases List.mem_append.mp hl with hl | hl
    · exact Nat.lt_of_lt_of_le (ih.mpr ⟨launch, hl⟩) (c.size_le reached.sound)
    · obtain rfl : .start launch = l := by simpa using hl
      exact size_of_start reached.sound (c.size_le reached.sound) step

/-! ## Between calls -/

/-- The phase that is shown of a run. -/
theorem phase_of_shown (hs : s.engine.shown = .run id) (hid : id < s.engine.runs.size) :
    s.engine.phase = (s.engine.run id).phase := by
  simp [Engine.phase, hs, Engine.run, hid]

/-- Between calls, the run whose worker the engine holds is the one whose phase is shown. -/
theorem Reached.held (h : Reached I ok (initial settings world) s) (idle : s.call = .idle)
    (current : s.engine.current = some id) :
    id < s.engine.runs.size ∧ s.engine.phase = (s.engine.run id).phase := by
  have held : s.holder = some id := (holder_of_call rfl idle).trans current
  have hid : id < s.engine.runs.size := by
    have := h.sound.holder id held
    omega
  exact ⟨hid, phase_of_shown (h.ruled.shows id held) hid⟩

theorem Reached.phase_idle (h : Reached I ok (initial settings world) s) :
    s.engine.phase = .idle ↔ s.engine.runs.size = 0 := by
  rw [← h.ruled.nothing]
  cases hs : s.engine.shown with
  | run id =>
    have hid : id < s.engine.runs.size := by
      have := (h.ruled.shown id hs).1
      omega
    rw [phase_of_shown hs hid]
    exact ⟨fun idle => absurd idle (h.steady hid).ne_idle, nofun⟩
  | _ => simp [Engine.phase, hs]

/-- Without a worker nothing goes on. -/
theorem Reached.phase_of_free (h : Reached I ok (initial settings world) s)
    (free : s.holder = none) : s.engine.phase = .idle ∨ s.engine.phase = .stopped := by
  cases hs : s.engine.shown with
  | nothing => exact .inl (by simp [Engine.phase, hs])
  | run id =>
    obtain ⟨last, _, settled⟩ := h.ruled.shown id hs
    have hid : id < s.engine.runs.size := by omega
    refine .inr ?_
    rw [phase_of_shown hs hid]
    refine (h.steady hid).stopped_of_ended ?_
    rw [← isAlive_run hid]
    rcases settled with held | ended
    · rw [free] at held
      cases held
    · exact ended
  | _ => exact .inr (by simp [Engine.phase, hs])

/-- A running run between calls. -/
theorem Reached.running (h : Reached I ok (initial settings world) s) (idle : s.call = .idle)
    (running : s.engine.isRunning = true) :
    (s.engine.phase = .starting ∨ s.engine.phase = .running ∨ s.engine.phase = .stopRequested) ∧
      ∃ id, s.engine.current = some id ∧
        (s.engine.phase = .stopRequested ↔ (s.engine.run id).token = true) := by
  unfold Engine.isRunning at running
  cases hc : s.engine.current with
  | none =>
    rw [hc] at running
    cases running
  | some id =>
    rw [hc] at running
    obtain ⟨_, alive⟩ := Bool.and_eq_true_iff.mp running
    have alive : s.engine.phase ≠ .stopped := of_decide_eq_true alive
    have held : s.holder = some id := (holder_of_call rfl idle).trans hc
    have hid : id < s.engine.runs.size := by
      have := h.sound.holder id held
      omega
    have steady := h.steady hid
    rw [phase_of_shown (h.ruled.shows id held) hid] at alive ⊢
    refine ⟨?_, id, rfl, steady.token_of_requested, fun token => ?_⟩
    · rcases steady.phase_cases with p | p | ⟨p, _⟩ | p
      · exact .inl p
      · exact .inr (.inl p)
      · exact .inr (.inr p)
      · exact absurd p alive
    · rcases steady.token token with p | p | ⟨_, call⟩ | call | parted
      · exact p
      · exact absurd p alive
      · rw [idle] at call
        cases call
      · rw [idle] at call
        cases call
      · exact absurd parted (h.ruled.kept id held)

theorem Reached.alive_cases (h : Reached I ok (initial settings world) s) (idle : s.call = .idle)
    (alive : s.engine.isAlive id = true) :
    s.engine.current = some id ∨ (s.engine.queue.slot id).abandoned = true := by
  cases ha : (s.engine.queue.slot id).abandoned with
  | true => exact .inr rfl
  | false => exact .inl ((holder_of_call rfl idle).symm.trans (h.sound.alive id alive ha))

theorem Reached.living_card (h : Reached I ok (initial settings world) s) (idle : s.call = .idle) :
    s.living.card ≤ s.disowned.card + 1 := by
  have covered : s.living ⊆ s.disowned ∪ s.engine.current.toFinset := by
    intro id hid
    obtain ⟨size, alive⟩ := Finset.mem_filter.mp hid
    rcases h.alive_cases idle alive with current | abandoned
    · exact Finset.mem_union_right _ (by simp [current])
    · exact Finset.mem_union_left _ (Finset.mem_filter.mpr ⟨size, abandoned⟩)
  have one : s.engine.current.toFinset.card ≤ 1 := by
    cases s.engine.current <;> simp
  calc s.living.card
      ≤ (s.disowned ∪ s.engine.current.toFinset).card := Finset.card_le_card covered
    _ ≤ s.disowned.card + s.engine.current.toFinset.card := Finset.card_union_le _ _
    _ ≤ s.disowned.card + 1 := Nat.add_le_add_left one _

/-- What holds of the engine when no call goes on. -/
theorem between_calls (h : exec I (initial settings world) ls = some s) (idle : s.call = .idle) :
    (∀ id, s.engine.isAlive id = true →
      s.engine.current = some id ∨ (s.engine.queue.slot id).abandoned = true) ∧
    s.living.card ≤ s.engine.leaked + 1 ∧
    s.engine.leaked = s.disowned.card ∧
    s.engine.leaked =
      (watch I (initial settings world) ls).countP (fun sight => timesOut sight.answer) ∧
    (s.engine.current = none → s.engine.phase = .idle ∨ s.engine.phase = .stopped) ∧
    (s.engine.phase = .idle ↔ ∀ launch, .start launch ∉ ls) ∧
    (s.engine.isRunning = true →
      (s.engine.phase = .starting ∨ s.engine.phase = .running ∨ s.engine.phase = .stopRequested) ∧
      ∃ id, s.engine.current = some id ∧
        (s.engine.phase = .stopRequested ↔ (s.engine.run id).token = true)) := by
  have reached := Reached.start.of_exec h
  refine ⟨fun _ => reached.alive_cases idle, ?_, reached.leaked_eq_card, leaked_eq_countP h,
    fun none => reached.phase_of_free ((holder_of_call rfl idle).trans none), ?_,
    reached.running idle⟩
  · rw [reached.leaked_eq_card]
    exact reached.living_card idle
  · rw [reached.phase_idle, ← not_exists, ← started_iff h, Nat.pos_iff_ne_zero, not_not]

/-- A run is given up before its worker has begun, and another is launched. -/
def relaunch : List (Label (List Signal)) :=
  [.start .works, .shutdown, .goOn, .goOn, .giveUp, .goOn, .goOn, .start .works]

/-- The state behind it. -/
def afterRelaunch : Ensemble (List Signal) (List Signal) :=
  (exec replay (initial {} [.line 3, .ended none]) relaunch).get (by decide +kernel)

theorem exec_relaunch :
    exec replay (initial {} [.line 3, .ended none]) relaunch = some afterRelaunch :=
  (Option.some_get _).symm

/-- Both workers are alive, and one call has told of the first. -/
theorem between_calls_relaunch :
    afterRelaunch.call = .idle ∧ afterRelaunch.living = {0, 1} ∧ afterRelaunch.disowned.card = 1 ∧
      (watch replay (initial {} [.line 3, .ended none]) relaunch).countP
        (fun sight => timesOut sight.answer) = 1 ∧
      afterRelaunch.engine.phase ≠ .idle := by
  have idle : afterRelaunch.call = .idle := by decide +kernel
  have leaked : afterRelaunch.engine.leaked = 1 := by decide +kernel
  obtain ⟨_, _, card, count, _, never, _⟩ := between_calls exec_relaunch idle
  refine ⟨idle, by decide +kernel, card ▸ leaked, count ▸ leaked, fun none => ?_⟩
  exact never.mp none .works List.mem_cons_self

end ScriptHost.Ensemble
