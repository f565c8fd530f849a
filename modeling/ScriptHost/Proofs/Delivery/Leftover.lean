import ScriptHost.Proofs.Control.Stops
import ScriptHost.Proofs.Delivery.Output

/-!
# What is heard behind a stop

A worker waits only so long for its output to be taken. When its patience ends
it announces the stop all the same, and its pump goes on: nobody tells the pump
to end, and the slot of the run is not disowned.

* `Reached.outputs_only`: behind a stop only outputs of its run are on their way.
* `late_output`: so only outputs are heard there, none if the worker's patience
  did not end, and all of them together are what the run has written.
* `late_output_patienceEnds`: one is heard there, and behind the start of a later run.
-/
namespace ScriptHost

variable {ω σ : Type} {I : Interpreter ω σ} {id : Nat} {last : Option UInt32} {l : Label ω}
  {v v' : View σ} {r r' : Run σ} {k k' : Slot} {ms : List Message} {ns : List Note} {o : Outcome}

/-- Where the worker has said everything, only the pump speaks. -/
theorem RunMove.outputs_only (h : RunMove id l r k r' k' ms ns) (mute : r.stage.isMute = true) :
    ∀ m ∈ ms, m.outline.voices false = false := by
  cases h with
  | announce h | push s h | leave o h =>
    rw [h] at mute
    cases mute
  | forward t h => simp [Message.outline, Event.voices]
  | _ => simp

namespace View

/-- What is on its way was so before, or the run has sent it now. -/
theorem Step.pending_mem (h : Step id last l v v') {m : Message} (hm : m ∈ v'.pending) :
    m ∈ v.pending ∨ ∃ r k ms ns, RunMove id l v.run v.slot r k ms ns ∧ m ∈ ms := by
  cases h with
  | @run r k ms ns h =>
    simp only [pending, List.mem_append] at hm ⊢
    rcases hm with hm | hm | hm
    · exact .inl (.inl hm)
    · exact .inl (.inr hm)
    · exact .inr ⟨r, k, ms, ns, h, hm⟩
  | silence h => exact .inl hm
  | dequeue h hq =>
    refine .inl ?_
    simpa [pending, h, hq, Taking.messages] using hm
  | drop h | deliver h | same h | tell h =>
    refine .inl ?_
    simp only [pending, h, Taking.messages, List.nil_append, List.mem_append] at hm ⊢
    exact .inr hm
  | turn h | clear h | load h =>
    refine .inl ?_
    simpa [pending, h, Taking.messages] using hm

/-- A trail that can be read tells nothing but outputs behind a stop. -/
theorem Told.outputs_only {launch : Launch} (told : v.Told false launch) (ha : v.slot.abandoned = false)
    (stopped : .stopped o ∈ Note.heard v.notes) : ∀ m ∈ v.pending, m.outline.voices false = false := by
  have trail := told.trail ha
  rw [Position.after, View.trail, List.filter_append] at trail
  obtain ⟨p, heard, rest⟩ := Position.read_left trail
  obtain ⟨rfl, _⟩ := Position.read_stopped heard (List.mem_filter.mpr ⟨stopped, rfl⟩)
  have none := (Position.read_past rest).1
  intro m hm
  have := List.filter_eq_nil_iff.mp none _ (List.mem_map_of_mem hm)
  exact Bool.eq_false_iff.mpr this

/-- Nothing is heard of a run that is disowned. -/
theorem Step.heard_of_abandoned (h : Step id last l v v') (ha : v'.slot.abandoned = true) :
    Note.heard v'.notes = Note.heard v.notes := by
  rcases h.retold with ⟨r, k, ms, ns, move, rfl⟩ | ⟨_, ⟨_, same⟩ | ⟨silent, _⟩⟩
  · simp [move.heard]
  · exact same
  · rw [ha] at silent
    cases silent

end View

namespace Ensemble

variable {s : Ensemble ω σ} {ok : Label ω → Prop} {settings : Settings} {world : ω}

theorem mem_heard {e : Event} : e ∈ s.heard id ↔ .delivered id e ∈ s.log := by
  constructor
  · intro h
    obtain ⟨n, hn, he⟩ := List.mem_filterMap.mp h
    obtain ⟨hn, own⟩ := List.mem_filter.mp hn
    have own : n.run = id := of_decide_eq_true own
    cases n <;> cases he
    exact own ▸ hn
  · intro h
    exact List.mem_filterMap.mpr ⟨_, List.mem_filter.mpr ⟨h, by simp⟩, rfl⟩

/-- Behind a stop only outputs of its run are on their way. -/
theorem Reached.outputs_only (h : Reached I ok (initial settings world) s)
    (hid : id < s.engine.runs.size) (stopped : .stopped o ∈ s.heard id) :
    ∀ m ∈ (s.view id).pending, m.outline.voices false = false := by
  induction h with
  | start => cases hid
  | @step s s' l h hl hs ih =>
    cases ha : (s'.view id).slot.abandoned with
    | false =>
      obtain ⟨_, _, told⟩ := (h.step hl hs).told false hid (by simp)
      exact told.outputs_only ha stopped
    | true =>
      -- the stop was heard before the run was disowned, and the worker was mute by then
      have step := step_cases h.sound hs
      have hid' : id < s.engine.runs.size := by
        by_contra new
        obtain ⟨launch, r, _, view⟩ := step.fresh h.sound (by omega) hid
        rw [view] at ha
        cases ha
      have view := step.view h.sound hid'
      have before : .stopped o ∈ s.heard id := by
        have same : s'.heard id = s.heard id := view.heard_of_abandoned ha
        rwa [same] at stopped
      have mute := (h.announced hid' (List.mem_append_left _ before)).1
      intro m hm
      rcases view.pending_mem hm with hm | ⟨_, _, _, _, move, hm⟩
      · exact ih hid' before m hm
      · exact move.outputs_only mute m hm

/-- A message that is no report is an output. -/
theorem output_of_mute {m : Message} (h : m.outline.voices false = false) :
    ∃ text, m = .event m.run (.output text) := by
  cases m with
  | line r => cases h
  | event r e =>
    cases e with
    | output text => exact ⟨text, rfl⟩
    | _ => cases h

/-- The messages on their way behind a stop, in the words of the queue. -/
theorem Reached.outputs_left (h : Reached I ok (initial settings world) s)
    (stopped : .delivered id (.stopped o) ∈ s.log) :
    ∀ m ∈ s.pending, m.run = id → ∃ text, m = .event id (.output text) := by
  intro m hm own
  have mine : m ∈ (s.view id).pending := by
    rw [view_pending]
    exact List.mem_filter.mpr ⟨hm, by simpa using own⟩
  exact own ▸ output_of_mute (h.outputs_only (h.sound.log _ stopped) (mem_heard.mpr stopped) m mine)

/-- **Only output comes late.** Behind the stop of a run only outputs of it are heard, and none if
its worker's patience did not end. If its pump was not given up and met no fault, the outputs heard
before the stop and behind it make the whole text once the pump is done. -/
theorem late_output {ls : List (Label ω)} (h : exec I (initial settings world) ls = some s)
    (stopped : .delivered id (.stopped o) ∈ s.log) :
    (∃ before after, s.heard id = before ++ .stopped o :: after ∧
      (∀ e ∈ after, ∃ text, e = .output text) ∧
      ((∀ l ∈ ls, l ≠ .other (.patience id)) → after = [])) ∧
    (∀ m ∈ s.pending, m.run = id → ∃ text, m = .event id (.output text)) ∧
    (.abandoned id ∉ s.log → (∀ l ∈ ls, l ≠ .other (.fault id)) →
      (s.engine.run id).pump = .ended → (∀ m ∈ s.pending, m.run ≠ id) →
      Event.texts (s.heard id) = Utf8.lossy (Note.written (s.notes id))) := by
  have reached := Reached.start.of_exec h
  have hid : id < s.engine.runs.size := reached.sound.log _ stopped
  have heard : .stopped o ∈ s.heard id := mem_heard.mpr stopped
  refine ⟨?_, reached.outputs_left stopped, fun kept smooth done taken => ?_⟩
  · obtain ⟨before, after, split⟩ := List.append_of_mem heard
    have split' : s.heard id = (before ++ [.stopped o]) ++ after := by simp [split]
    -- nothing that is looked at is read behind a stop
    have past (outputs : Bool) (hok : outputs = true → ∀ l ∈ ls, l ≠ .other (.patience id)) :
        after.filter (Event.voices outputs) = [] := by
      have reached : Reached I (fun l => outputs = true → l ≠ .other (.patience id))
        (initial settings world) s := reached_of_exec .start h fun l hl ho => hok ho l hl
      obtain ⟨launch, _, told⟩ := reached.told outputs hid fun ho l hl => hl ho
      obtain ⟨p, hp⟩ : ∃ p, Position.after outputs launch (s.heard id) = some p := told.heard
      rw [split', Position.after, List.filter_append] at hp
      obtain ⟨q, first, rest⟩ := Position.read_left hp
      have mem : Event.stopped o ∈ (before ++ [Event.stopped o]).filter (Event.voices outputs) :=
        List.mem_filter.mpr ⟨by simp, rfl⟩
      obtain ⟨rfl, _⟩ := Position.read_stopped first mem
      exact (Position.read_past rest).1
    refine ⟨before, after, split, fun e he => ?_, fun patient => ?_⟩
    · have silent := List.filter_eq_nil_iff.mp (past false (by simp)) e he
      cases e with
      | output text => exact ⟨text, rfl⟩
      | _ => exact absurd rfl silent
    · have none := past true fun _ => patient
      rwa [List.filter_eq_self.mpr fun e _ => e.voices_true] at none
  · have smooth : Reached I (fun l => l ≠ .other (.fault id)) (initial settings world) s :=
      reached_of_exec .start h smooth
    have poured := smooth.poured hid (fun _ hl => hl) (smooth.kept kept)
    have none : (s.view id).pending = [] := by
      rw [view_pending]
      exact List.filter_eq_nil_iff.mpr fun m hm => by simpa using taken m hm
    have whole := (poured.flow.done (.inr done)).2
    rwa [View.trail, none, List.map_nil, List.append_nil] at whole

/-- The script writes a letter and ends. The worker's patience ends before the pump has looked, and
the stop is taken. Then another run is launched and its start taken, and only now the first pump
goes on. -/
def patienceEnds : List (Label (List Signal)) :=
  let work (run n : Nat) : List (Label (List Signal)) := .replicate n (.other (.worker run))
  let take (n : Nat) : List (Label (List Signal)) := .replicate n .take
  [.start .works] ++ work 0 6 ++ [.other (.patience 0)] ++ work 0 3 ++ take 4 ++
    [.start .works, .goOn] ++ work 1 1 ++ take 2 ++
    [.other (.pump 0 (.upTo 1)), .other (.pump 0 .nothing), .other (.pump 0 .nothing)] ++ take 2 ++
    [.other (.pump 0 (.upTo 1)), .other (.pump 0 .nothing)]

/-- The state behind it. -/
def afterPatience : Ensemble (List Signal) (List Signal) :=
  (exec replay (initial {} [.write [0x61], .ended none]) patienceEnds).get (by decide +kernel)

theorem exec_patienceEnds :
    exec replay (initial {} [.write [0x61], .ended none]) patienceEnds = some afterPatience :=
  (Option.some_get _).symm

/-- Something does follow a stop: the output of the first run is heard behind its stop, and behind
the start of the second. -/
theorem late_output_patienceEnds :
    exec replay (initial {} [.write [0x61], .ended none]) patienceEnds = some afterPatience ∧
      Note.deliveries afterPatience.log =
        [(0, .started), (0, .stopped .finished), (1, .started), (0, .output "a")] :=
  ⟨exec_patienceEnds, by decide +kernel⟩

/-- Late as it is, nothing of the output is lost. -/
theorem late_output_afterPatience :
    .delivered 0 (.stopped .finished) ∈ afterPatience.log ∧ .abandoned 0 ∉ afterPatience.log ∧
      (∀ l ∈ patienceEnds, l ≠ .other (.fault 0)) ∧ (afterPatience.engine.run 0).pump = .ended ∧
      (∀ m ∈ afterPatience.pending, m.run ≠ 0) ∧
      ∃ before after, afterPatience.heard 0 = before ++ .stopped .finished :: after ∧
        (∀ e ∈ after, ∃ text, e = .output text) ∧ Event.texts (afterPatience.heard 0) = "a" := by
  have stopped : .delivered 0 (.stopped .finished) ∈ afterPatience.log := by decide +kernel
  have kept : .abandoned 0 ∉ afterPatience.log := by decide +kernel
  have smooth : ∀ l ∈ patienceEnds, l ≠ .other (.fault 0) := by
    have smooth : patienceEnds.all (fun
        | .other (.fault _) => false
        | _ => true) = true := rfl
    rintro l hl rfl
    exact absurd (List.all_eq_true.mp smooth _ hl) (by decide)
  have done : (afterPatience.engine.run 0).pump = .ended := by decide +kernel
  have taken : ∀ m ∈ afterPatience.pending, m.run ≠ 0 := by decide +kernel
  obtain ⟨⟨before, after, split, outputs, -⟩, -, whole⟩ := late_output exec_patienceEnds stopped
  refine ⟨stopped, kept, smooth, done, taken, before, after, split, outputs, ?_⟩
  rw [whole kept smooth done taken]
  decide +kernel

end Ensemble
end ScriptHost
