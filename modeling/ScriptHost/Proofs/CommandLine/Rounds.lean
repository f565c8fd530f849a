import ScriptHost.Proofs.CommandLine.Course

/-!
# The program's own course

The program lets everybody go on in rounds, and deals with what has come of each.
For a command with one run, that is one of the courses that its run can take.

* `Attended.round_eq`: a round is a step of the worker and steps of its pump.
* `Course.advance`: so the program keeps to a course.
-/
namespace ScriptHost

open Script (World)

variable {σ : Type} {I : Interpreter World σ} {P : Scenario World}

namespace Engine

variable {ω : Type} {J : Interpreter ω σ} {e : Engine ω σ}

/-- A pump goes on in one step or in two. -/
theorem turnPump_cases (e : Engine ω σ) (id : Nat) :
    ∃ gs : List Grant, e.turnPump J id = gs.foldl (fun e g => e.step J (.pump id g)) e := by
  unfold turnPump
  dsimp only
  split
  · exact ⟨[_, _], rfl⟩
  · exact ⟨[_], rfl⟩

/-- Where there is one run, a round is a turn of its worker and one of its pump. -/
theorem round_of_single (single : e.runs.size = 1) (patient : e.settings.drainTimeout.nanos ≠ 0) :
    e.round J = (e.step J (.worker 0)).turnPump J 0 := by
  have settings := step_settings (J := J) e (.worker 0)
  unfold round
  rw [single]
  simp only [Nat.fold, turnWorker, settings, patient, if_false]

end Engine

/-- What is logged of a step depends on little of the run. -/
theorem Log.ofStep_congr {left : Stage Unit} {r r' : Run σ} (payload : r'.payload = r.payload)
    (reading : ∀ text, left = .reporting () text → r'.channel.reading = r.channel.reading) :
    Log.ofStep left r' = Log.ofStep left r := by
  cases left with
  | reporting _ text => simp only [Log.ofStep, reading text rfl]
  | _ => simp only [Log.ofStep, payload]

namespace CommandLine
namespace Job

variable {j j₀ j' : Job σ} {s : Ensemble World σ} {mode : Console.Mode}
  {filter : Log.Filter} {now : Instant}

/-- The pump goes on, with what the system lets it see. -/
def pumps (I : Interpreter World σ) (j : Job σ) (gs : List Grant) : Job σ :=
  gs.foldl (fun j g => j.act I (.pump 0 g)) j

theorem pumps_eq (gs : List Grant) : j.pumps I gs =
    { j with engine := gs.foldl (fun e g => e.step I (.pump 0 g)) j.engine } := by
  induction gs generalizing j with
  | nil => rfl
  | cons g gs ih => exact ih

/-- Writing to the log does not look at the engine. -/
theorem logs_engine (rs : List Log.Record) (j : Job σ) (e : Engine World σ) :
    rs.foldl log { j with engine := e } = { rs.foldl log j with engine := e } := by
  induction rs generalizing j with
  | nil => rfl
  | cons r rs ih =>
    have one : log { j with engine := e } r = { j.log r with engine := e } := by
      unfold log
      dsimp only
      split <;> rfl
    rw [List.foldl_cons, one, ih]
    rfl

namespace Attended

variable (h : j.Attended P I mode filter s) (going : j.ending? = none)
include h going

/-- What the pump does keeps the script of the run, and how far its worker is. -/
theorem pumps (gs : List Grant) : ∃ s', (j.pumps I gs).Attended P I mode filter s' ∧
    (s'.engine.run 0).payload = (s.engine.run 0).payload ∧
    (s'.engine.run 0).stage.isOpen = (s.engine.run 0).stage.isOpen := by
  induction gs generalizing j s with
  | nil => exact ⟨s, h, rfl, rfl⟩
  | cons g gs ih =>
    have smooth : Ensemble.Smooth (.other (.pump 0 g) : Label World) := ⟨nofun, nofun⟩
    obtain ⟨s', attended, payload, stage⟩ := ih (h.act going smooth) going
    have meddles := (Ensemble.step_shared (I := I) (l := .other (.pump 0 g)) h.solo.there rfl).resolve_left
      fun own => by cases own.1
    refine ⟨s', attended, payload.trans meddles.script.1, stage.trans ?_⟩
    rcases meddles.stage with same | ⟨o, draining, stopping⟩
    · rw [same]
    · rw [draining, stopping]
      rfl

omit going in
theorem single : ∃ r, j.engine.runs = #[r] ∧ s.engine.run 0 = r := by
  obtain ⟨r, hr⟩ := Array.size_eq_one_iff.mp (h.engine ▸ h.solo.size)
  exact ⟨r, hr, by simp [Engine.run, h.engine, hr]⟩

theorem act_going {a : Actor} (smooth : Ensemble.Smooth (.other a : Label World)) :
    (j.act I a).ending? = none := by
  have same : (j.act I a).task = j.task :=
    congrArg (·.task) (shows_logs { j with engine := j.engine.step I a } (h.light smooth)).same
  rw [ending?, same]
  exact going

/-- A round is a step of the worker and steps of its pump. -/
theorem round_eq : ∃ gs, j.round I = (j.act I (.worker 0)).pumps I gs := by
  have smooth : Ensemble.Smooth (.other (.worker 0) : Label World) := ⟨nofun, nofun⟩
  have acted := h.act going smooth
  have going' := h.act_going going smooth
  obtain ⟨gs, turn⟩ := (j.engine.step I (.worker 0)).turnPump_cases (J := I) 0
  obtain ⟨s₂, pumped, payload, stage⟩ := acted.pumps going' gs
  obtain ⟨r, before, here⟩ := h.single
  obtain ⟨r₁, between, here₁⟩ := acted.single
  obtain ⟨r₂, behind, here₂⟩ := pumped.single
  have engine₁ : (j.act I (.worker 0)).engine = j.engine.step I (.worker 0) := by
    rw [← acted.engine, ← h.engine]
    rfl
  have round : j.engine.round I = gs.foldl (fun e g => e.step I (.pump 0 g)) (j.engine.step I (.worker 0)) :=
    (Engine.round_of_single (by rw [before]; rfl) h.patient).trans turn
  rw [pumps_eq, engine₁, ← round] at behind
  dsimp only at behind
  rw [engine₁] at between
  refine ⟨gs, ?_⟩
  -- the log hears the same behind the turn of the pump
  have hears : Log.ofStep (Log.shape r.stage) r₂ = Log.ofStep (Log.shape r.stage) r₁ := by
    refine Log.ofStep_congr (by rw [← here₁, ← here₂, payload]) fun text shape => ?_
    obtain ⟨x, reporting⟩ := Log.reporting_of_shape shape
    obtain ⟨isOpen, reading⟩ := h.solo.reading_reported (by rw [here, reporting]) smooth
    rw [here₁] at reading
    rw [reading, ← here₂]
    exact pumped.solo.reading (stage.trans isOpen)
  have records : recordsOf I j.engine (.worker 0) = Log.ofStep (Log.shape r.stage) r₁ := by
    simp [recordsOf, before, between]
  rw [pumps_eq, engine₁, ← round, Job.act, records, ← logs_engine, ← hears]
  unfold Job.round
  simp [before, behind]

end Attended

theorem Course.pumps (hc : Course P I j₀ j) (going : j.ending? = none) (gs : List Grant) :
    Course P I j₀ (j.pumps I gs) := by
  induction gs generalizing j with
  | nil => exact hc
  | cons g gs ih => exact ih (hc.act going (.pump 0 g) ⟨nofun, nofun⟩) going

/-- What the program does in a round: everybody goes on, and it deals with what has come. -/
theorem advance_eq (going : j.ending? = none) : j.advance I now = (j.round I).attend I now := by
  unfold advance
  cases ht : j.task with
  | ended e => exact absurd ht (going_iff.mp going e)
  | _ => rfl

/-- **The program keeps to a course.** -/
theorem Course.advance (hc : Course P I j₀ j) (discreet : P.Discreet I) (begun : j₀.Attended P I mode filter s)
    (now : Instant) : Course P I j₀ (j.advance I now) := by
  cases going : j.ending? with
  | some e =>
    have same : j.advance I now = j := by
      unfold ending? at going
      unfold Job.advance
      split at going
      · rfl
      · cases going
    rwa [same]
  | none =>
    obtain ⟨s', attended⟩ := (hc.attended discreet begun).resolve_right fun lost => lost.ended going
    obtain ⟨gs, round⟩ := attended.round_eq going
    have smooth : Ensemble.Smooth (.other (.worker 0) : Label World) := ⟨nofun, nofun⟩
    have acted := attended.act_going going smooth
    rw [advance_eq going, round]
    refine .attend ((hc.act going (.worker 0) smooth).pumps acted gs) ?_ now
    rw [pumps_eq]
    exact acted

/-- However many rounds it lets pass. -/
theorem Course.rounds (hc : Course P I j₀ j) (discreet : P.Discreet I) (begun : j₀.Attended P I mode filter s)
    (nows : List Instant) : Course P I j₀ (nows.foldl (Job.advance I) j) := by
  induction nows generalizing j with
  | nil => exact hc
  | cons now nows ih => exact ih (hc.advance discreet begun now)

/-! ## Any other course -/

/-- A worker or a pump goes on, or the command deals with what has come, unless it has ended. -/
def go? (I : Interpreter World σ) (j : Job σ) (x : Actor ⊕ Instant) : Option (Job σ) :=
  if j.ending?.isSome then none
  else match x with
    | .inl (.worker id) => some (j.act I (.worker id))
    | .inl (.pump id g) => some (j.act I (.pump id g))
    | .inl _ => none
    | .inr now => some (j.attend I now)

theorem Course.of_go {ls : List (Actor ⊕ Instant)} (hc : Course P I j₀ j)
    (h : ls.foldlM (go? I) j = some j') : Course P I j₀ j' := by
  induction ls generalizing j with
  | nil =>
    cases h
    exact hc
  | cons x ls ih =>
    obtain ⟨j₁, first, rest⟩ := Option.bind_eq_some_iff.mp h
    refine ih ?_ rest
    unfold go? at first
    split at first
    · cases first
    · rename_i going
      have going : j.ending? = none := by simpa using going
      split at first <;> cases first
      · exact hc.act going _ ⟨nofun, nofun⟩
      · exact hc.act going _ ⟨nofun, nofun⟩
      · exact hc.attend going _

end Job
end CommandLine
end ScriptHost
