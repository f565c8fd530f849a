import ScriptHost.Proofs.Ensemble.Step

/-!
# Every state is sound

* `Step.sound`: each kind of step keeps what `Sound` says.
* `Reached.sound`: so does every run of the system.
-/
namespace ScriptHost.Ensemble

variable {ω σ : Type} {I : Interpreter ω σ} {s s' : Ensemble ω σ} {l : Label ω} {id : Nat}

theorem sound_initial (settings : Settings) (world : ω) :
    (initial settings world : Ensemble ω σ).Sound := by
  constructor <;> simp [initial, Queue.toList, Taking.run?, Call.held?, holder, Engine.isAlive, Taking.reads]

theorem Keeps.of_some {r : Nat} (k : s.Keeps s') (h : s'.holder = some r) : s.holder = some r := by
  rcases k.holder with e | ⟨e, _⟩
  · rwa [← e]
  · rw [e] at h
    cases h

theorem Keeps.alive {r : Nat} (k : s.Keeps s') (ha : s.engine.isAlive r = true)
    (h : s.holder = some r) : s'.holder = some r := by
  rcases k.holder with e | ⟨_, e⟩
  · rwa [e]
  · rw [e r h] at ha
    cases ha

/-- A run that moves comes to life by no move, and its slot is as disowned as before. -/
theorem alive_of_move {r r' : Run σ} {ms : List Message} {ns : List Note}
    (here : s.engine.runs[id]? = some r) (runs : s'.engine.runs = s.engine.runs.setIfInBounds id r')
    (queue : s.engine.queue.Extends s'.engine.queue id ms)
    (move : RunMove id l r (s.engine.queue.slot id) r' (s'.engine.queue.slot id) ms ns) (i : Nat) :
    (s'.engine.isAlive i = true → s.engine.isAlive i = true) ∧
      (s'.engine.queue.slot i).abandoned = (s.engine.queue.slot i).abandoned := by
  by_cases hi : i = id
  · subst hi
    refine ⟨fun ha => ?_, move.abandoned_eq⟩
    have hi := (Array.getElem?_eq_some_iff.mp here).1
    rw [isAlive_eq, runs, Array.getElem?_setIfInBounds] at ha
    rw [isAlive_eq, here]
    exact move.isAlive_of (by simpa [hi] using ha)
  · rw [queue.slot i hi]
    refine ⟨fun ha => ?_, rfl⟩
    rw [isAlive_eq, runs, Array.getElem?_setIfInBounds, if_neg (Ne.symm hi)] at ha
    rwa [isAlive_eq]

theorem sound_run {r r' : Run σ} {ms : List Message} {ns : List Note} (hs : s.Sound)
    (here : s.engine.runs[id]? = some r) (runs : s'.engine.runs = s.engine.runs.setIfInBounds id r')
    (queue : s.engine.queue.Extends s'.engine.queue id ms)
    (move : RunMove id l r (s.engine.queue.slot id) r' (s'.engine.queue.slot id) ms ns)
    (taking : s'.taking = s.taking) (log : s'.log = s.log ++ ns) (keeps : s.Keeps s') : s'.Sound := by
  have hid := (Array.getElem?_eq_some_iff.mp here).1
  have size : s'.engine.runs.size = s.engine.runs.size := by simp [runs]
  have same := alive_of_move here runs queue move
  refine ⟨queue.receiving.trans hs.receiving, by rw [queue.size, size, hs.slots], ?_, ?_, ?_,
    keeps.held, ?_, ?_, ?_⟩
  · intro m hm
    rw [queue.toList, List.mem_append] at hm
    rw [size]
    rcases hm with hm | hm
    · exact hs.queued m hm
    · rwa [move.sent_own m hm]
  · rw [size, taking]
    exact hs.taking
  · intro n hn
    rw [log, List.mem_append] at hn
    rw [size]
    rcases hn with hn | hn
    · exact hs.log n hn
    · rwa [move.notes_own n hn]
  · intro i hi
    rw [size]
    exact hs.holder i (keeps.of_some hi)
  · intro i ha hb
    rw [(same i).2] at hb
    exact keeps.alive ((same i).1 ha) (hs.alive i ((same i).1 ha) hb)
  · intro i hi
    rw [(same i).2]
    exact hs.reads i (taking ▸ hi)

/-- The slot of a new run looks like one that was never opened. -/
theorem slot_of_push {q q' : Queue} (slots : q'.slots = q.slots.push {}) (i : Nat) :
    q'.slot i = q.slot i := by
  by_cases hi : i = q.slots.size
  · simp [Queue.slot, slots, hi]
  · simp [Queue.slot, slots, Array.getElem?_push, hi]

theorem sound_launch {launch : Launch} {r : Run σ} (hs : s.Sound) (gives : launch.Gives r)
    (idle : ∀ r, s.holder = some r → s.engine.isAlive r = false)
    (runs : s'.engine.runs = s.engine.runs.push r)
    (slots : s'.engine.queue.slots = s.engine.queue.slots.push {})
    (toList : s'.engine.queue.toList = s.engine.queue.toList ++
      (launch.refusal?.map fun o => .event s.engine.runs.size (.stopped o)).toList)
    (receiving : s'.engine.queue.receiving = true) (call : s'.call = .idle)
    (current : s'.engine.current = if launch.refusal? = none then some s.engine.runs.size else none)
    (taking : s'.taking = s.taking) (log : s'.log = s.log ++ [.launched s.engine.runs.size launch]) :
    s'.Sound := by
  have size : s'.engine.runs.size = s.engine.runs.size + 1 := by simp [runs]
  have holder : s'.holder = s'.engine.current := holder_of_held (by rw [call]; rfl)
  have slot (i : Nat) : s'.engine.queue.slot i = s.engine.queue.slot i := slot_of_push slots i
  refine ⟨receiving, by simp [slots, size, hs.slots], ?_, ?_, ?_, by simp [call, Call.held?], ?_, ?_, ?_⟩
  · intro m hm
    rw [toList, List.mem_append] at hm
    rw [size]
    rcases hm with hm | hm
    · have := hs.queued m hm
      omega
    · cases ho : launch.refusal? with
      | none => simp [ho] at hm
      | some o =>
        simp only [ho, Option.map_some, Option.toList_some, List.mem_singleton] at hm
        simp [hm, Message.run]
  · intro i hi
    have := hs.taking i (taking ▸ hi)
    omega
  · intro n hn
    rw [log, List.mem_append] at hn
    rw [size]
    rcases hn with hn | hn
    · have := hs.log n hn
      omega
    · simp only [List.mem_singleton] at hn
      simp [hn, Note.run]
  · intro i hi
    rw [holder, current] at hi
    split at hi <;> cases hi
    exact size.symm
  · intro i ha hb
    rw [slot] at hb
    rw [isAlive_eq, runs, Array.getElem?_push] at ha
    rw [holder, current]
    split at ha
    · rename_i hi
      cases gives with
      | works p c => simp [hi, Launch.refusal?]
      | fails ho p c => simp [Run.failed, Stage.isAlive] at ha
    · rw [← isAlive_eq] at ha
      rw [idle i (hs.alive i ha hb)] at ha
      cases ha
  · intro i hi
    rw [slot]
    exact hs.reads i (taking ▸ hi)

theorem sound_silence (hs : s.Sound) (call : s.call = .silencing id) (call' : s'.call = .idle)
    (current : s'.engine.current = s.engine.current) (runs : s'.engine.runs = s.engine.runs)
    (queue : s'.engine.queue = s.engine.queue.abandon id) (taking : s'.taking = .resting)
    (log : s'.log = s.log ++ [.abandoned id]) : s'.Sound := by
  have holder : s.holder = some id := by simp [holder, call, Call.held?]
  have hid := hs.holder id holder
  have hcur := hs.held (by simp [call, Call.held?])
  refine ⟨?_, ?_, ?_, ?_, ?_, ?_, ?_, ?_, ?_⟩
  · rw [queue]; exact hs.receiving
  · rw [queue, runs, Queue.abandon, Queue.modifySlot_size, hs.slots]
  · rw [queue, runs]; exact hs.queued
  · simp [taking, Taking.run?]
  · intro n hn
    rw [log, List.mem_append] at hn
    rw [runs]
    rcases hn with hn | hn
    · exact hs.log n hn
    · simp only [List.mem_singleton] at hn
      simp only [hn, Note.run]
      omega
  · simp [call', Call.held?]
  · simp [holder_of_held (s := s') (by rw [call']; rfl), current, hcur]
  · intro i ha hb
    rw [queue] at hb
    by_cases hi : i = id
    · subst hi
      rw [Queue.abandon, Queue.slot_modifySlot_self _ _ (by have := hs.slots; omega)] at hb
      cases hb
    · rw [Queue.abandon, Queue.slot_modifySlot_ne _ _ hi] at hb
      rw [isAlive_eq, runs, ← isAlive_eq] at ha
      rw [hs.alive i ha hb] at holder
      exact absurd (Option.some.inj holder) hi
  · rw [taking]
    simp [Taking.reads]

theorem sound_take {ns : List Note} (hs : s.Sound) (runs : s'.engine.runs = s.engine.runs)
    (current : s'.engine.current = s.engine.current) (call : s'.call = s.call)
    (receive : Reception s.engine.queue s.taking s'.engine.queue s'.taking ns)
    (log : s'.log = s.log ++ ns) : s'.Sound := by
  have holder : s'.holder = s.holder := by rw [Ensemble.holder, call, current, Ensemble.holder]
  refine ⟨receive.receiving.trans hs.receiving, by rw [receive.size, runs, hs.slots], ?_, ?_, ?_, ?_,
    ?_, ?_, ?_⟩
  · rw [runs]
    exact fun m hm => hs.queued m (receive.queued m hm)
  · intro i hi
    rw [runs]
    rcases receive.taken i hi with h | ⟨m, hm, rfl⟩
    · exact hs.taking i h
    · exact hs.queued m hm
  · intro n hn
    rw [log, List.mem_append] at hn
    rw [runs]
    rcases hn with hn | hn
    · exact hs.log n hn
    · exact hs.taking _ (receive.noted n hn)
  · rw [call, current]; exact hs.held
  · rw [holder, runs]; exact hs.holder
  · intro i ha hb
    rw [receive.abandoned] at hb
    rw [isAlive_eq, runs, ← isAlive_eq] at ha
    rw [holder]
    exact hs.alive i ha hb
  · intro i hi
    rw [receive.abandoned]
    rcases receive.reads i hi with h | h
    · exact hs.reads i h
    · exact h

theorem Step.sound (hs : s.Sound) (h : s.Step s' l) : s'.Sound := by
  cases h with
  | aside runs queue taking log keeps =>
    have alive (i : Nat) : s'.engine.isAlive i = s.engine.isAlive i := by
      rw [isAlive_eq, isAlive_eq, runs]
    refine ⟨?_, ?_, ?_, ?_, ?_, keeps.held, ?_, ?_, ?_⟩
    · rw [queue]; exact hs.receiving
    · rw [queue, runs]; exact hs.slots
    · rw [queue, runs]; exact hs.queued
    · rw [taking, runs]; exact hs.taking
    · rw [log, runs]; exact hs.log
    · rw [runs]; exact fun i hi => hs.holder i (keeps.of_some hi)
    · rw [queue]
      intro i ha hb
      rw [alive] at ha
      exact keeps.alive ha (hs.alive i ha hb)
    · rw [taking, queue]; exact hs.reads
  | run id r r' ms ns here runs queue move taking log keeps =>
    exact sound_run hs here runs queue move taking log keeps
  | silence id call call' current runs queue _ taking log =>
    exact sound_silence hs call call' current runs queue taking log
  | launch launch r gives idle runs slots toList lastLine receiving call current taking log =>
    exact sound_launch hs gives idle runs slots toList receiving call current taking log
  | take ns runs current call receive log => exact sound_take hs runs current call receive log

theorem Reached.sound {ok : Label ω → Prop} {settings : Settings} {world : ω}
    (h : Reached I ok (initial settings world) s) : s.Sound := by
  induction h with
  | start => exact sound_initial settings world
  | step _ _ hs ih => exact (step_cases ih hs).sound ih

end ScriptHost.Ensemble
