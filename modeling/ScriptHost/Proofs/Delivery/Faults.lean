import ScriptHost.Proofs.Channel.RoundTrip
import ScriptHost.Proofs.Control.Apart
import ScriptHost.Proofs.Delivery.Leftover

/-!
# When the channel of a run cannot be read

A look at the channel can fail. The pump then reads no more and tells the worker
that everything was forwarded, though it was not: what the read that failed has
collected goes, and so does what the decoder held back of the reads before.

* `Reached.unfailed`: a pump that is still at work has met no fault, so what
  holds without faults holds of it.
* `Reached.done_texts`: a pump that is done with reading says nothing more.
* `fault_loses`: what was said is the text of the reads that were complete; what
  is missing is the text of what was held back and collected, and it is missing
  for good.
-/
namespace ScriptHost

variable {ω σ : Type} {I : Interpreter ω σ} {id : Nat} {last : Option UInt32} {l : Label ω}
  {v v' : View σ} {r r' : Run σ} {k k' : Slot} {ms : List Message} {ns : List Note}

/-- The pump is not done with reading. -/
def Pump.isBusy : Pump → Bool
  | .reading | .sending _ => true
  | .finishing | .ended => false

/-- A pump that is done does not begin again. -/
theorem RunMove.isBusy_of (h : RunMove id l r k r' k' ms ns) (busy : r'.pump.isBusy = true) :
    r.pump.isBusy = true := by
  cases h with
  | look g h | forward t h => rw [h]; rfl
  | finish | fault => cases busy
  | abort h =>
    unfold Run.abortPump at busy
    split at busy
    · exact busy
    · cases busy
  | _ => exact busy

/-- Only a pump that is not done sends an output. -/
theorem RunMove.texts_of_done (h : RunMove id l r k r' k' ms ns) (done : r.pump.isBusy = false) :
    Event.texts (ms.map Message.outline) = "" := by
  cases h with
  | forward t h =>
    rw [h] at done
    cases done
  | _ => simp [Event.texts, Event.text, Message.outline]

namespace View

theorem Step.isBusy_of (h : Step id last l v v') (busy : v'.run.pump.isBusy = true) :
    v.run.pump.isBusy = true := by
  cases h with
  | run h => exact h.isBusy_of busy
  | _ => exact busy

/-- Once the pump is done, no text is added to what was said. -/
theorem Step.texts_of_done (h : Step id last l v v') (done : v.run.pump.isBusy = false)
    (kept : v'.slot.abandoned = false) :
    v.slot.abandoned = false ∧ Event.texts v'.trail = Event.texts v.trail := by
  rcases h.retold with ⟨r, k, ms, ns, move, rfl⟩ | ⟨_, ⟨gone, _⟩ | ⟨_, kept', retold, _⟩⟩
  · refine ⟨move.abandoned_eq ▸ kept, ?_⟩
    rw [trail_run v move, Event.texts_append, move.texts_of_done done, String.append_empty]
  · rw [gone] at kept
    cases kept
  · exact ⟨kept', (texts_retold retold).1⟩

end View

namespace Ensemble

variable {s s' t u : Ensemble ω σ} {settings : Settings} {world : ω} {ls : List (Label ω)}

/-- What was said of a run: the events heard, and those on their way. -/
def said (s : Ensemble ω σ) (id : Nat) : String := Event.texts (s.view id).trail

/-- What the receiver and the queue have of a run does not change when a look fails. -/
theorem said_fault (s : Ensemble ω σ) (id : Nat) : (s.act I (.fault id)).said id = s.said id := by
  simp [said, View.trail, View.pending, view, act, Engine.step]

/-- A fault changes the run as it says. -/
theorem run_fault (hid : id < s.engine.runs.size) :
    (s.act I (.fault id)).engine.run id = (s.engine.run id).failRead :=
  (run_modifyRun Run.failRead id hid).trans (if_pos rfl)

/-- A fault does nothing where there is no pump that reads. -/
theorem act_fault_same
    (h : id < s.engine.runs.size → (s.engine.run id).failRead = s.engine.run id) :
    s.act I (.fault id) = s := by
  have same : s.engine.step I (.fault id) = s.engine := by
    by_cases hid : id < s.engine.runs.size
    · exact Engine.modifyRun_same (h hid)
    · have runs : s.engine.runs.modify id Run.failRead = s.engine.runs :=
        modify_of_none _ (Array.getElem?_eq_none (Nat.not_lt.mp hid))
      simp [Engine.step, runs]
  simp [act, same]

/-- A step of a pump changes the run as it says. -/
theorem run_pump (hid : id < s.engine.runs.size) (g : Grant) :
    (s.act I (.pump id g)).engine.run id = ((s.engine.run id).pumpStep g id s.engine.queue).1 := by
  have here : s.engine.runs[id]? = some (s.engine.run id) := by simp [Engine.run, hid]
  have runs : (s.act I (.pump id g)).engine.runs =
      s.engine.runs.setIfInBounds id ((s.engine.run id).pumpStep g id s.engine.queue).1 := by
    simp [act, Engine.step, here]
  exact (run_set hid runs id).trans (if_pos rfl)

/-- A pump that is still at work has met no fault. -/
theorem Reached.unfailed (h : Reached I (fun _ => True) (initial settings world) s)
    (busy : (s.engine.run id).pump.isBusy = true) :
    Reached I (fun l => l ≠ .other (.fault id)) (initial settings world) s := by
  induction h with
  | start => exact .start
  | @step s s' l h hl hs ih =>
    have absent (none : ¬id < s.engine.runs.size) : s.engine.run id = {} := by
      simp [Engine.run, none]
    by_cases fault : l = .other (.fault id)
    · subst fault
      cases hs
      have same : s.act I (.fault id) = s := act_fault_same fun hid => by
        rw [run_fault hid] at busy
        cases hp : (s.engine.run id).pump with
        | reading =>
          simp only [Run.failRead, hp] at busy
          cases busy
        | _ => simp only [Run.failRead, hp]
      rw [same] at busy ⊢
      exact ih busy
    · refine (ih ?_).step fault hs
      by_cases hid : id < s.engine.runs.size
      · exact ((step_cases h.sound hs).view h.sound hid).isBusy_of busy
      · rw [absent hid]
        rfl

/-- Once its pump is done, nothing more is said of a run. -/
theorem Reached.done_said (h : Reached I (fun _ => True) (initial settings world) s)
    (hid : id < s.engine.runs.size) (done : (s.engine.run id).pump.isBusy = false)
    (run : exec I s ls = some u) (kept : .abandoned id ∉ u.log) : u.said id = s.said id := by
  have all : (id < u.engine.runs.size ∧ (u.engine.run id).pump.isBusy = false) ∧
      ((u.engine.queue.slot id).abandoned = false → u.said id = s.said id) := by
    refine exec_induction (P := fun _ u => (id < u.engine.runs.size ∧
      (u.engine.run id).pump.isBusy = false) ∧
      ((u.engine.queue.slot id).abandoned = false → u.said id = s.said id))
      ⟨⟨hid, done⟩, fun _ => rfl⟩ ?_ run
    intro ls t l t' ht ⟨⟨hid, done⟩, same⟩ hs
    have reached := h.of_exec ht
    have view := (step_cases reached.sound hs).view reached.sound hid
    refine ⟨⟨Nat.lt_of_lt_of_le hid ((reached.ruled.conduct hs).size_le reached.sound),
      Bool.eq_false_iff.mpr fun busy => ?_⟩, fun kept => ?_⟩
    · exact absurd (view.isBusy_of busy) (Bool.eq_false_iff.mp done)
    · obtain ⟨kept, texts⟩ := view.texts_of_done done kept
      exact texts.trans (same kept)
  exact all.2 ((h.of_exec run).kept kept)

/-- What a pump that reads has done with the bytes that were written: the reads that are complete
took `taken`, and their text was said; the rest is with the read that goes on, or in the channel. -/
theorem Reached.readings (h : Reached I (fun _ => True) (initial settings world) s)
    (hid : id < s.engine.runs.size) (kept : .abandoned id ∉ s.log)
    (reading : (s.engine.run id).pump = .reading)
    (unended : (s.engine.run id).channel.reader.ended = false) :
    ∃ taken, Note.written (s.notes id) =
        taken ++ (s.engine.run id).channel.reader.collected ++ (s.engine.run id).channel.buffer ∧
      s.said id = (Utf8.scan taken).1 ∧
      (s.engine.run id).channel.reader.decoder.pending = (Utf8.scan taken).2 := by
  have poured := (h.unfailed (by rw [reading]; rfl)).poured hid (fun _ hl => hl) (h.kept kept)
  obtain ⟨taken, written, made⟩ := poured.flow.conveys.split
  have unsent : s.said id ++ (s.engine.run id).pump.text = s.said id := by
    rw [reading]
    exact String.append_empty
  rcases made with ⟨texts, held⟩ | ⟨ended, -⟩
  · exact ⟨taken, written, unsent.symm.trans texts, held⟩
  · exact absurd (unended.symm.trans ended) Bool.false_ne_true

/-- A fault ends a pump that reads, and nothing more is said of its run. -/
theorem Reached.faulted (h : Reached I (fun _ => True) (initial settings world) s)
    (hid : id < s.engine.runs.size) (reading : (s.engine.run id).pump = .reading) :
    (id < (s.act I (.fault id)).engine.runs.size ∧
      ((s.act I (.fault id)).engine.run id).pump = .finishing) ∧
    ∀ after u, exec I (s.act I (.fault id)) after = some u → .abandoned id ∉ u.log →
      u.said id = s.said id := by
  have step : s.step I (.other (.fault id)) = some (s.act I (.fault id)) := rfl
  have hid' : id < (s.act I (.fault id)).engine.runs.size :=
    Nat.lt_of_lt_of_le hid ((h.ruled.conduct step).size_le h.sound)
  have finishing : ((s.act I (.fault id)).engine.run id).pump = .finishing := by
    rw [run_fault hid]
    simp only [Run.failRead, reading]
  refine ⟨⟨hid', finishing⟩, fun after u run kept => ?_⟩
  have done : ((s.act I (.fault id)).engine.run id).pump.isBusy = false := by
    rw [finishing]
    rfl
  exact ((h.step trivial step).done_said hid' done run kept).trans (s.said_fault id)

/-- **What a fault loses.** Let a look at the channel of a run fail, which is not disowned. What was
said of it by then is the text of `taken`, the bytes of all reads that were complete; the channel
has given out those and what the read that fails has collected. The step of the pump after that
tells the worker that everything was forwarded, but the text of what the decoder has held back and
of what was collected was not said then, and is not afterwards. -/
theorem fault_loses (h : exec I (initial settings world) ls = some s)
    (hid : id < s.engine.runs.size) (kept : .abandoned id ∉ s.log)
    (reading : (s.engine.run id).pump = .reading)
    (unended : (s.engine.run id).channel.reader.ended = false) :
    let channel := (s.engine.run id).channel
    ∃ taken, Note.written (s.notes id) = taken ++ channel.reader.collected ++ channel.buffer ∧
      s.said id = (Utf8.scan taken).1 ∧
      Utf8.lossy (taken ++ channel.reader.collected) =
        s.said id ++ Utf8.lossy (channel.reader.decoder.pending ++ channel.reader.collected) ∧
      (s.said id = Utf8.lossy (taken ++ channel.reader.collected) ↔
        channel.reader.decoder.pending = [] ∧ channel.reader.collected = []) ∧
      ∃ s', s.step I (.other (.fault id)) = some s' ∧ s'.said id = s.said id ∧
        (∀ g, ∃ t, s'.step I (.other (.pump id g)) = some t ∧
          (t.engine.run id).drained = .signalled ∧ t.said id = s.said id) ∧
        ∀ after u, exec I s' after = some u → .abandoned id ∉ u.log → u.said id = s.said id := by
  intro channel
  have reached := Reached.start.of_exec h
  obtain ⟨taken, written, texts, held⟩ := reached.readings hid kept reading unended
  obtain ⟨⟨hid', finishing⟩, silent⟩ := reached.faulted hid reading
  have whole : Utf8.lossy (taken ++ channel.reader.collected) =
      s.said id ++ Utf8.lossy (channel.reader.decoder.pending ++ channel.reader.collected) := by
    rw [Utf8.lossy_append, texts, held]
  refine ⟨taken, written, texts, whole, ?_, _, rfl, s.said_fault id, fun g => ?_, silent⟩
  · rw [whole, ← List.append_eq_nil_iff, ← Utf8.lossy_eq_empty]
    constructor
    · intro same
      simpa using congrArg String.toList same
    · intro none
      rw [none, String.append_empty]
  · have told :
        (((s.act I (.fault id)).act I (.pump id g)).engine.run id).drained = .signalled := by
      rw [run_pump hid']
      simp only [Run.pumpStep, finishing]
    exact ⟨_, rfl, told, silent [.other (.pump id g)] _ rfl (by simpa [act] using kept)⟩

/-- The script writes the first byte of a character, which a read takes and holds back, and then a
letter, which the next read has collected so far. -/
def holdingBack : List (Label (List Signal)) :=
  [.start .works] ++ .replicate 3 (.other (.worker 0)) ++
    [.other (.pump 0 (.upTo 1)), .other (.pump 0 .nothing), .other (.worker 0),
      .other (.pump 0 (.upTo 1))]

/-- The state behind it. -/
def heldBack : Ensemble (List Signal) (List Signal) :=
  (exec replay (initial {} [.write [0xE2], .write [0x61], .ended none]) holdingBack).get
    (by decide +kernel)

theorem exec_holdingBack :
    exec replay (initial {} [.write [0xE2], .write [0x61], .ended none]) holdingBack = some heldBack :=
  (Option.some_get _).symm

/-- The next look fails, and the pump goes on. -/
def readFailed : Ensemble (List Signal) (List Signal) :=
  (heldBack.act replay (.fault 0)).act replay (.pump 0 .nothing)

/-- Both bytes are lost, the one held back and the one collected. -/
theorem fault_loses_heldBack :
    .abandoned 0 ∉ heldBack.log ∧ (heldBack.engine.run 0).pump = .reading ∧
      (heldBack.engine.run 0).channel.reader.ended = false ∧
      (∃ taken, Utf8.lossy (taken ++ [0x61]) = heldBack.said 0 ++ "\ufffda" ∧
        heldBack.said 0 ≠ Utf8.lossy (taken ++ [0x61])) ∧
      readFailed.said 0 = heldBack.said 0 := by
  have kept : .abandoned 0 ∉ heldBack.log := by decide +kernel
  have reading : (heldBack.engine.run 0).pump = .reading := by decide +kernel
  have unended : (heldBack.engine.run 0).channel.reader.ended = false := by decide +kernel
  have collected : (heldBack.engine.run 0).channel.reader.collected = [0x61] := by decide +kernel
  have held : (heldBack.engine.run 0).channel.reader.decoder.pending = [0xE2] := by decide +kernel
  obtain ⟨taken, -, -, whole, exact_, s', step, -, -, silent⟩ :=
    fault_loses exec_holdingBack (by decide +kernel) kept reading unended
  cases step
  rw [collected, held] at whole exact_
  refine ⟨kept, reading, unended, ⟨taken, whole, fun same => ?_⟩, ?_⟩
  · exact absurd (exact_.mp same).1 (List.cons_ne_nil _ _)
  · exact silent [.other (.pump 0 .nothing)] readFailed rfl (by decide +kernel)

/-- The worker is told that everything was forwarded when two bytes were given out by the channel
and nothing was said. -/
theorem fault_loses_readFailed :
    exec replay (initial {} [.write [0xE2], .write [0x61], .ended none])
        (holdingBack ++ [.other (.fault 0), .other (.pump 0 .nothing)]) = some readFailed ∧
      Note.written (readFailed.notes 0) = [0xE2, 0x61] ∧ (readFailed.engine.run 0).channel.buffer = [] ∧
      (readFailed.engine.run 0).drained = .signalled ∧ readFailed.said 0 = "" ∧
      Utf8.lossy [0xE2, 0x61] = "\ufffda" := by
  refine ⟨?_, by decide +kernel, by decide +kernel, by decide +kernel, by decide +kernel,
    by decide +kernel⟩
  rw [exec_append, exec_holdingBack, Option.bind_some]
  rfl

end Ensemble
end ScriptHost
