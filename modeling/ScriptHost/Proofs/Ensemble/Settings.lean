import ScriptHost.Proofs.Ensemble

/-!
# Settings are for good

An engine has its settings from the beginning, and nobody changes them
(`exec_settings`).
-/
namespace ScriptHost.Ensemble

variable {ω σ : Type} {I : Interpreter ω σ} {s s' t : Ensemble ω σ} {l : Label ω}
  {ls : List (Label ω)}

theorem launch_settings (s : Ensemble ω σ) (launch : Launch) :
    (s.launch launch).engine.settings = s.engine.settings := by
  cases launch <;> rfl

theorem await_settings (s : Ensemble ω σ) (next : Option Launch) :
    (s.await next).engine.settings = s.engine.settings := by
  unfold await Engine.takeWorker
  cases s.engine.current with
  | some id => rfl
  | none =>
    cases next with
    | some launch => exact launch_settings _ launch
    | none => rfl

theorem afterStop_settings (s : Ensemble ω σ) (leave : Bool) :
    (s.afterStop leave).engine.settings = s.engine.settings := by
  cases leave with
  | true => exact s.await_settings none
  | false => rfl

theorem requestStop_settings (s : Ensemble ω σ) (leave : Bool) :
    (s.requestStop leave).engine.settings = s.engine.settings := by
  unfold requestStop
  split
  · split
    · rfl
    · exact s.afterStop_settings leave
  · exact s.afterStop_settings leave

theorem goOn_settings (h : s.goOn = some s') : s'.engine.settings = s.engine.settings := by
  unfold goOn at h
  split at h
  · cases h
  · cases h
    rfl
  · rename_i id leave _
    cases h
    exact afterStop_settings { s with engine := s.engine.showRequest id } leave
  · rename_i id next _
    split at h
    · cases h
    · cases h
      cases next with
      | some launch => exact s.launch_settings launch
      | none => rfl
  · cases h
    rfl
  · cases h
    rfl

theorem take_settings (h : s.take = some s') : s'.engine.settings = s.engine.settings := by
  unfold take at h
  dsimp only at h
  split at h
  · obtain ⟨_, _, rfl⟩ := Option.map_eq_some_iff.mp h
    rfl
  · split at h
    · cases h
      rfl
    · split at h <;> cases h <;> rfl
  · cases h
    rfl
  · cases h
    rfl
  · cases h
    rfl

/-- Nobody changes the settings. -/
theorem step_settings (h : s.step I l = some s') : s'.engine.settings = s.engine.settings := by
  cases l with
  | setScript | setSearchDirs =>
    simp only [step, Option.ite_none_right_eq_some, Option.some.injEq] at h
    obtain ⟨_, rfl⟩ := h
    simp only [Engine.setScript, Engine.setSearchDirs]
    split <;> rfl
  | start launch =>
    simp only [step, Option.ite_none_right_eq_some, Option.some.injEq] at h
    obtain ⟨_, rfl⟩ := h
    split
    · rfl
    · exact s.await_settings (some launch)
  | stop | shutdown =>
    simp only [step, Option.ite_none_right_eq_some, Option.some.injEq] at h
    obtain ⟨_, rfl⟩ := h
    exact s.requestStop_settings _
  | goOn =>
    simp only [step, Option.ite_none_right_eq_some] at h
    exact goOn_settings h.2
  | giveUp =>
    simp only [step] at h
    split at h
    · simp only [Option.ite_none_right_eq_some, Option.some.injEq] at h
      obtain ⟨_, rfl⟩ := h
      rfl
    · cases h
  | take =>
    simp only [step] at h
    split at h
    · exact take_settings h
    · exact take_settings h
    · cases h
  | other a =>
    cases h
    cases a with
    | worker id | pump id g => cases hr : s.engine.runs[id]? <;> simp [act, Engine.step, hr]
    | patience id | fault id => rfl
  | dropPump id =>
    simp only [step, Option.ite_none_right_eq_some, Option.some.injEq] at h
    obtain ⟨_, rfl⟩ := h
    rfl
  | outside w =>
    cases h
    rfl

theorem exec_settings (h : exec I s ls = some t) :
    t.engine.settings = s.engine.settings :=
  exec_induction (P := fun _ t => t.engine.settings = s.engine.settings) rfl
    (fun _ same step => (step_settings step).trans same) h

end ScriptHost.Ensemble
