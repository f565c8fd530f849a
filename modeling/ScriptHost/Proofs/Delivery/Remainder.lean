import ScriptHost.Proofs.Delivery.Leftover
import ScriptHost.Proofs.Delivery.Lines

/-!
# What is still to be heard of a run

A worker that is done with waiting for its output to be taken has nothing left to
say but its stop. Once its pump has ended and no line is on its way, it is clear
what will have been heard of the run in the end: what was heard, what is on its
way, and that stop (`View.account`).

* `Amounts.step`: nothing that happens adds to it.
* `Reached.amounts`: so it is where all that the run has sent was taken, if the
  patience of its worker did not end.
* `Reached.trail_of_amounts`, `Reached.stop_of_started`: that stop is on its way
  when another run is launched, and is heard before what that run says.
-/
namespace ScriptHost

/-- The stop that the worker has settled on and not announced. -/
def Stage.unsaid {σ : Type} (x : Stage σ) : List Event := (x.outcome?.map Event.stopped).toList

variable {ω σ : Type} {id : Nat} {last : Option UInt32} {l : Label ω} {v v' : View σ}
  {r r' : Run σ} {k k' : Slot} {ms : List Message} {ns : List Note} {es : List Event}

theorem Stage.unsaid_of_mute {x : Stage σ} (h : x.isMute = true) :
    x.isPast = true ∧ x.unsaid = [] := by
  cases x <;> first | exact ⟨rfl, rfl⟩ | cases h

/-- A worker past waiting stays so, and its stop is still to be announced. -/
theorem Stage.Inner.unsaid {d : Drained} {x y : Stage σ} (h : Stage.Inner d x y)
    (past : x.isPast = true) : y.isPast = true ∧ y.unsaid = x.unsaid := by
  cases h with
  | rest => exact ⟨past, rfl⟩
  | past | cease => exact ⟨rfl, rfl⟩
  | _ => cases past

/-- Behind the end of its pump a worker past waiting sends its stop, and nothing else is sent. -/
theorem RunMove.unsaid (h : RunMove id l r k r' k' ms ns) (past : r.stage.isPast = true)
    (pump : r.pump = .ended) :
    (r'.stage.isPast = true ∧ r'.pump = .ended) ∧ (∀ m ∈ ms, m.isMarker = false) ∧
      ms.map Message.outline ++ r'.stage.unsaid = r.stage.unsaid := by
  cases h with
  | inner stage _ _ _ h =>
    obtain ⟨past', same⟩ := h.unsaid past
    exact ⟨⟨past', pump⟩, nofun, same⟩
  | leave o h =>
    refine ⟨⟨rfl, pump⟩, by simp [Message.isMarker], ?_⟩
    rw [h]
    rfl
  | announce h | store _ _ h | mark _ h | push _ h | write _ _ _ h | report _ _ _ h | finalize _ _ _ _ h
  | close _ h | expire _ h =>
    rw [h] at past
    cases past
  | look _ h | forward _ h | finish h | fault h =>
    rw [h] at pump
    cases pump
  | abort =>
    have same : r.abortPump = r := by simp [Run.abortPump, pump]
    rw [same]
    exact ⟨⟨past, pump⟩, nofun, rfl⟩

namespace View

/-- What was heard of the run, what is on its way, and the stop that is still to be announced. -/
def account (v : View σ) : List Event := v.trail ++ v.run.stage.unsaid

/-- What is heard of the run comes to `es` in the end, unless it is disowned before. -/
structure Amounts (v : View σ) (es : List Event) : Prop where
  past : v.run.stage.isPast = true
  pump : v.run.pump = .ended
  unmarked : ∀ m ∈ v.pending, m.isMarker = false
  heard : Note.heard v.notes <+: es
  account : v.slot.abandoned = false → v.account = es

theorem Amounts.run (hv : v.Amounts es) (h : RunMove id l v.run v.slot r' k' ms ns) :
    (⟨r', k', v.hand, v.queued ++ ms, v.notes ++ ns⟩ : View σ).Amounts es := by
  obtain ⟨⟨past, pump⟩, unmarked, rest⟩ := h.unsaid hv.past hv.pump
  refine ⟨past, pump, fun m hm => ?_, by simpa [h.heard] using hv.heard, fun kept => ?_⟩
  · rw [pending, ← List.append_assoc, List.mem_append] at hm
    exact hm.elim (hv.unmarked m) (unmarked m)
  · rw [View.account, trail_run v h, List.append_assoc, rest]
    exact hv.account (h.abandoned_eq ▸ kept)

/-- Nothing that happens adds to it. -/
theorem Amounts.step (hv : v.Amounts es) (h : Step id last l v v') : v'.Amounts es := by
  -- no marker is in hand
  have unlined {t : Taking} (hand : v.hand = t) (line : t.messages = [.line id]) : False := by
    have := hv.unmarked (.line id) (List.mem_append_left _ (by simp [hand, line]))
    cases this
  cases h with
  | run h => exact hv.run h
  | silence => exact ⟨hv.past, hv.pump, hv.unmarked, by simpa using hv.heard, nofun⟩
  | @dequeue m rest h hq =>
    have same : pending (⟨v.run, v.slot, .testing m, rest, v.notes⟩ : View σ) = v.pending := by
      simp [pending, h, hq, Taking.messages]
    refine ⟨hv.past, hv.pump, same ▸ hv.unmarked, hv.heard, fun kept => ?_⟩
    rw [← hv.account kept, View.account, View.account, View.trail, View.trail, same]
  | drop h ha =>
    refine ⟨hv.past, hv.pump, fun m hm => hv.unmarked m (List.mem_append_right _ hm), hv.heard,
      fun kept => ?_⟩
    cases ha.symm.trans kept
  | @deliver e h ha =>
    have account : View.account ⟨v.run, v.slot, .resting, v.queued, v.notes ++ [.delivered id e]⟩ =
        es := by
      rw [← hv.account ha]
      simp [View.account, View.trail, pending, h, Taking.messages, Message.outline]
    refine ⟨hv.past, hv.pump, fun m hm => hv.unmarked m (List.mem_append_right _ hm), ?_,
      fun _ => account⟩
    rw [← account, View.account, View.trail, List.append_assoc]
    exact List.prefix_append _ _
  | turn h | clear h | load h | same h | tell h => exact (unlined h rfl).elim

end View

namespace Ensemble

variable {I : Interpreter ω σ} {s u : Ensemble ω σ} {ls : List (Label ω)} {settings : Settings}
  {world : ω} {ok : Label ω → Prop}

/-- Where all that a run has sent was taken, and its worker is past waiting, its stop is all that is
still to come. -/
theorem Reached.amounts (h : Reached I ok (initial settings world) s)
    (hid : id < s.engine.runs.size) (patient : ∀ l, ok l → l ≠ .other (.patience id))
    (past : (s.engine.run id).stage.isPast = true) (taken : s.pending = []) :
    (s.view id).Amounts (s.heard id ++ (s.engine.run id).stage.unsaid) := by
  have none : (s.view id).pending = [] := by
    rw [view_pending, taken]
    rfl
  refine ⟨past, (h.calm hid patient).past past, by rw [none]; nofun, List.prefix_append _ _,
    fun _ => ?_⟩
  rw [View.account, View.trail, none, List.map_nil, List.append_nil]
  rfl

/-- What every step keeps of a run holds of it ever after. -/
theorem Reached.view_later {P : View σ → Prop}
    (h : Reached I (fun _ => True) (initial settings world) s) (hid : id < s.engine.runs.size)
    (kept : ∀ {last l v v'}, View.Step (ω := ω) id last l v v' → P v → P v') (hv : P (s.view id))
    (hu : exec I s ls = some u) : P (u.view id) := by
  refine (exec_induction (P := fun _ u => id < u.engine.runs.size ∧ P (u.view id)) ⟨hid, hv⟩
    (fun {ls t l t'} ht ih step => ?_) hu).2
  have reached := h.of_exec ht
  have le := (reached.ruled.conduct step).size_le reached.sound
  exact ⟨Nat.lt_of_lt_of_le ih.1 le,
    kept ((step_cases reached.sound step).view reached.sound ih.1) ih.2⟩

/-- Behind another launch all of it was sent. -/
theorem Reached.trail_of_amounts (h : Reached I (fun _ => True) (initial settings world) s)
    (hv : (s.view id).Amounts es) (more : id + 1 < s.engine.runs.size) (kept : .abandoned id ∉ s.log) :
    (s.view id).trail = es := by
  have ended := h.ended_before more kept
  rw [isAlive_run (Nat.lt_of_succ_lt more)] at ended
  have none : (s.view id).run.stage.unsaid = [] := (Stage.unsaid_of_mute (Stage.isMute_of_ended ended)).2
  have account := hv.account (h.kept kept)
  rwa [View.account, none, List.append_nil] at account

/-- And behind the start of another its stop was heard. -/
theorem Reached.stop_of_started {next : Nat} {o : Outcome}
    (h : Reached I (fun _ => True) (initial settings world) s)
    (hv : (s.view id).Amounts (es ++ [.stopped o])) (behind : id < next)
    (started : .started ∈ s.heard next) (kept : .abandoned id ∉ s.log) : s.heard id ≠ es := by
  intro same
  have started := mem_heard.mp started
  have more : next < s.engine.runs.size := h.sound.log _ started
  have trail : s.heard id ++ (s.view id).pending.map Message.outline = es ++ [.stopped o] :=
    h.trail_of_amounts hv (by omega) kept
  rw [same, List.append_cancel_left_eq] at trail
  -- the stop would be on its way behind the start of a later run
  obtain ⟨m, hm, outline⟩ : ∃ m ∈ (s.view id).pending, m.outline = .stopped o :=
    List.mem_map.mp (trail ▸ List.mem_singleton_self _)
  rw [view_pending, List.mem_filter, decide_eq_true_eq] at hm
  obtain ⟨hm, rfl⟩ := hm
  have report : m.outline.voices false = true := by
    rw [outline]
    rfl
  have := h.heard_le (by simp) (List.mem_filterMap.mpr ⟨_, started, rfl⟩) rfl hm kept report
  omega

end Ensemble
end ScriptHost
