import ScriptHost.Proofs.Control.Conduct
import ScriptHost.Proofs.Ensemble.View

/-!
# What a step is to one run

A step lets a run take a turn of its own or leaves it alone, or the controller
sets its token, or moves its phase (`Treats`). `Conduct.treats` shows that there
is nothing else.
-/
namespace ScriptHost

variable {ω σ : Type}

namespace Ensemble

variable {I : Interpreter ω σ} {s s' : Ensemble ω σ} {l : Label ω} {id : Nat}

/-! ## Looking at a changed run -/

theorem run_of_some {r : Run σ} (h : s.engine.runs[id]? = some r) : s.engine.run id = r := by
  simp [Engine.run, h]

theorem run_set {e e' : Engine ω σ} {j : Nat} {r : Run σ} (hj : j < e.runs.size)
    (runs : e'.runs = e.runs.setIfInBounds j r) (id : Nat) :
    e'.run id = if id = j then r else e.run id := by
  rw [Engine.run, runs, Array.getElem?_setIfInBounds]
  by_cases h : id = j
  · simp [h, hj]
  · simp [h, Ne.symm h, Engine.run]

theorem run_modifyRun {e : Engine ω σ} (f : Run σ → Run σ) (j : Nat) (hid : id < e.runs.size) :
    (e.modifyRun j f).run id = if id = j then f (e.run id) else e.run id := by
  rw [Engine.run, Engine.modifyRun, Array.getElem?_modify]
  by_cases h : id = j
  · subst h
    simp [hid, Engine.run]
  · simp [h, Ne.symm h, Engine.run]

theorem run_cancel (e : Engine ω σ) (j : Nat) (hid : id < e.runs.size) :
    (e.cancel j).run id = if id = j then { e.run id with token := true } else e.run id :=
  run_modifyRun _ j hid

theorem run_showRequest (e : Engine ω σ) (j : Nat) (hid : id < e.runs.size) :
    (e.showRequest j).run id =
      if id = j then { e.run id with phase := (e.run id).phase.requestStop } else e.run id :=
  run_modifyRun _ j hid

theorem run_launch (launch : Launch) (hid : id < s.engine.runs.size) :
    (s.launch launch).engine.run id = s.engine.run id := by
  cases launch with
  | noThread cause turns late =>
    simp [Ensemble.launch, Engine.launch_noThread, Engine.failLaunch, Engine.run,
      Array.getElem?_push, Nat.ne_of_lt hid]
  | _ =>
    simp [Ensemble.launch, Engine.launch, Engine.failLaunch, Engine.run, Array.getElem?_push,
      Nat.ne_of_lt hid]

theorem isAlive_modifyRun (e : Engine ω σ) {f : Run σ → Run σ} (hf : ∀ r, (f r).stage = r.stage)
    (j id : Nat) : (e.modifyRun j f).isAlive id = e.isAlive id := by
  simp only [Engine.isAlive, Engine.modifyRun, Array.getElem?_modify]
  by_cases h : j = id
  · rw [if_pos h]
    cases e.runs[id]? with
    | none => rfl
    | some r => exact congrArg Stage.isAlive (hf r)
  · rw [if_neg h]

theorem isAlive_cancel (e : Engine ω σ) (j id : Nat) :
    (e.cancel j).isAlive id = e.isAlive id := by
  unfold Engine.cancel
  exact isAlive_modifyRun e (by intro r; rfl) j id

theorem isAlive_showRequest (e : Engine ω σ) (j id : Nat) :
    (e.showRequest j).isAlive id = e.isAlive id := by
  unfold Engine.showRequest
  exact isAlive_modifyRun e (by intro r; rfl) j id

theorem isAlive_of_turn {r r' : Run σ} {j : Nat} (here : s.engine.runs[j]? = some r)
    (turn : Run.Turn I r r') (runs : s'.engine.runs = s.engine.runs.setIfInBounds j r')
    (ha : s'.engine.isAlive id = true) : s.engine.isAlive id = true := by
  rw [isAlive_eq, runs, Array.getElem?_setIfInBounds] at ha
  rw [isAlive_eq]
  by_cases h : j = id
  · subst h
    have hj := (Array.getElem?_eq_some_iff.mp here).1
    rw [here]
    exact turn.isAlive_of (by simpa [hj] using ha)
  · rwa [if_neg h] at ha

theorem isAlive_run (hid : id < s.engine.runs.size) :
    s.engine.isAlive id = (s.engine.run id).stage.isAlive := by
  simp [isAlive_eq, Engine.run, hid]

/-! ## One run -/

/-- What a step of the system is to a run that was launched before. -/
inductive Treats (I : Interpreter ω σ) (s s' : Ensemble ω σ) (id : Nat) : Prop where
  /-- The run takes a turn or stays as it is, and the controller is about it as before. -/
  | turns (turn : Run.Turn I (s.engine.run id) (s'.engine.run id))
    (cancelling : ∀ leave, s.call = .cancelling id leave → s'.call = .cancelling id leave)
    (marking : (∃ leave, s.call = .marking id leave) ↔ ∃ leave, s'.call = .marking id leave)
    (parted : s.call = .silencing id ∨ id ∈ Note.partings s.log →
      s'.call = .silencing id ∨ id ∈ Note.partings s'.log)
  | cancels (run : s'.engine.run id = { s.engine.run id with token := true })
    (about : (∃ leave, s.call = .cancelling id leave ∧ s'.call = .marking id leave) ∨
      s.call = .abandoning id ∧ s'.call = .silencing id)
  | requests
    (run : s'.engine.run id =
      { s.engine.run id with phase := (s.engine.run id).phase.requestStop })
    (leave : Bool) (call : s.call = .marking id leave)
    (call' : ∀ leave, s'.call ≠ .marking id leave)
    (parted : s.call = .silencing id ∨ id ∈ Note.partings s.log →
      s'.call = .silencing id ∨ id ∈ Note.partings s'.log)

/-- The run stays as it is, and the controller is as before, or not about it before and after. -/
theorem treats_of_same (run : s'.engine.run id = s.engine.run id)
    (cancelling : ∀ leave, s.call = .cancelling id leave → s'.call = .cancelling id leave)
    (marking : (∃ leave, s.call = .marking id leave) ↔ ∃ leave, s'.call = .marking id leave)
    (parted : s.call = .silencing id ∨ id ∈ Note.partings s.log →
      s'.call = .silencing id ∨ id ∈ Note.partings s'.log) : Treats I s s' id :=
  .turns (run ▸ .refl _) cancelling marking parted

/-- Nothing else is done to a run. -/
theorem Conduct.treats (c : Conduct I s l s') (hid : id < s.engine.runs.size) :
    Treats I s s' id := by
  cases c with
  | aside _ runs call _ _ _ partings =>
    exact treats_of_same (run_eq runs id) (by simp [call]) (by simp [call])
      (by simp [call, partings])
  | work j r r' _ here turn runs call _ _ _ partings =>
    refine .turns ?_ (by simp [call]) (by simp [call]) (by simp [call, partings])
    rw [run_set (Array.getElem?_eq_some_iff.mp here).1 runs id]
    split
    · rename_i hij
      rw [hij, run_of_some here]
      exact turn
    · exact .refl _
  | request j leave _ free =>
    exact treats_of_same rfl (by simp [free]) (by simp [free]) (by simp [free])
  | cancel j leave _ call =>
    have run := run_cancel s.engine j hid
    by_cases hij : id = j
    · subst hij
      exact .cancels (run.trans (if_pos rfl)) (.inl ⟨leave, call, rfl⟩)
    · exact treats_of_same (run.trans (if_neg hij)) (by simp [call, Ne.symm hij])
        (by simp [call, Ne.symm hij]) (by simp [call])
  | mark j _ call | leave j _ call =>
    have run := run_showRequest s.engine j hid
    by_cases hij : id = j
    · subst hij
      exact .requests (run.trans (if_pos rfl)) _ call nofun (by simp [call])
    · exact treats_of_same (run.trans (if_neg hij)) (by simp [call]) (by simp [call, Ne.symm hij])
        (by simp [call])
  | await j next _ free =>
    exact treats_of_same rfl (by simp [free]) (by simp [free]) (by simp [free])
  | settle j _ call | giveUp j next _ call =>
    exact treats_of_same rfl (by simp [call]) (by simp [call]) (by simp [call])
  | launch launch due =>
    have free : s.call = .idle ∨ ∃ j next, s.call = .waiting j next := by
      rcases due with ⟨_, call, _⟩ | ⟨j, _, call, _⟩
      · exact .inl call
      · exact .inr ⟨j, _, call⟩
    refine treats_of_same (run_launch launch hid) ?_ ?_ ?_ <;>
      rcases free with call | ⟨j, next, call⟩ <;>
        simp [call, Ensemble.launch, Note.partings, Note.parting?]
  | forsake j _ call =>
    have run := run_cancel s.engine j hid
    by_cases hij : id = j
    · subst hij
      exact .cancels (run.trans (if_pos rfl)) (.inr ⟨call, rfl⟩)
    · exact treats_of_same (run.trans (if_neg hij)) (by simp [call]) (by simp [call])
        (by simpa [call] using Or.inr)
  | silence j _ call =>
    refine treats_of_same rfl (by simp [call]) (by simp [call]) fun hp => .inr ?_
    rw [Note.partings_append]
    rcases hp with hp | hp
    · rw [call] at hp
      cases hp
      exact List.mem_append_right _ List.mem_cons_self
    · exact List.mem_append_left _ hp

end Ensemble
end ScriptHost
