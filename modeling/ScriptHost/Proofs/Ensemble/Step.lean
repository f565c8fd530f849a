import ScriptHost.Proofs.Ensemble.Moves

/-!
# What one step of the system does

`Step` lists it: the controller alone is concerned, a run makes a move, a run is
silenced or launched, or the receiver goes on. `step_cases` shows that `step`
does nothing else from a state that is `Sound`.
-/
namespace ScriptHost

variable {ω σ : Type}

/-- The outcome with which a launch that fails ends its run. -/
def Launch.refusal? : Launch → Option Outcome
  | .works => none
  | .noChannel _ => some .channelFailure
  | .noThread _ _ _ => some .spawnFailure

/-- A run as it is launched. -/
inductive Launch.Gives : Launch → Run σ → Prop where
  | works (payload : Payload) (chunkName : String) : Gives .works { payload, chunkName }
  | fails {l : Launch} {o : Outcome} (h : l.refusal? = some o) (p : Payload) (chunkName : String) :
    Gives l (Run.failed p chunkName)

/-- The run that a call waits for or is about to disown. -/
def Call.held? : Call → Option Nat
  | .waiting id _ | .abandoning id | .silencing id => some id
  | _ => none

/-- The receiver has found that it will look at the slot of this run. -/
def Taking.reads (t : Taking) (run : Nat) : Prop :=
  t = .clearing run ∨ t = .loading run ∨ ∃ n, t = .comparing run n

/-- The receiver goes on: the queue and what it has in hand before and after, and its notes. -/
inductive Reception : Queue → Taking → Queue → Taking → List Note → Prop where
  | dequeue {q q' : Queue} {m : Message} (h : q.pop? = some (m, q')) :
    Reception q .resting q' (.testing m) []
  | drop {q : Queue} {m : Message} (h : (q.slot m.run).abandoned = true) :
    Reception q (.testing m) q .resting []
  | deliver {q : Queue} {r : Nat} {e : Event} (h : (q.slot r).abandoned = false) :
    Reception q (.testing (.event r e)) (if e = .started then { q with lastLine := none } else q)
      .resting [.delivered r e]
  | turn {q : Queue} {r : Nat} (h : (q.slot r).abandoned = false) :
    Reception q (.testing (.line r)) q (.clearing r) []
  | clear {q : Queue} {r : Nat} : Reception q (.clearing r) (q.clearQueued r) (.loading r) []
  | load {q : Queue} {r : Nat} : Reception q (.loading r) q (.comparing r (q.slot r).line) []
  | same {q : Queue} {r : Nat} {n : UInt32} (h : q.lastLine = some n) :
    Reception q (.comparing r n) q .resting []
  | tell {q : Queue} {r : Nat} {n : UInt32} (h : q.lastLine ≠ some n) :
    Reception q (.comparing r n) { q with lastLine := some n } .resting
      [.delivered r (.currentLine n)]

namespace Reception

variable {q q' : Queue} {t t' : Taking} {ns : List Note}

theorem receiving (h : Reception q t q' t' ns) : q'.receiving = q.receiving := by
  cases h with
  | dequeue h => exact (Queue.pop?_some h).2.2.2
  | deliver => split <;> rfl
  | _ => rfl

theorem size (h : Reception q t q' t' ns) : q'.slots.size = q.slots.size := by
  cases h with
  | dequeue h => rw [(Queue.pop?_some h).2.1]
  | deliver => split <;> rfl
  | clear => exact Queue.modifySlot_size
  | _ => rfl

theorem slot_of_slots (h : q'.slots = q.slots) (i : Nat) : q'.slot i = q.slot i := by
  simp [Queue.slot, h]

/-- The receiver changes a slot only to clear its flag. -/
theorem slot (h : Reception q t q' t' ns) (i : Nat) :
    q'.slot i = if t = .clearing i then { q.slot i with queued := false } else q.slot i := by
  cases h with
  | dequeue h => exact slot_of_slots (Queue.pop?_some h).2.1 i
  | deliver => exact slot_of_slots (by split <;> rfl) i
  | @clear r =>
    by_cases hi : i = r
    · subst hi
      rw [if_pos rfl]
      by_cases hs : i < q.slots.size
      · exact Queue.slot_modifySlot_self q _ hs
      · have hs' : (q.clearQueued i).slots.size ≤ i := by rw [Queue.clearQueued]; simpa using hs
        rw [Queue.slot_of_size_le hs', Queue.slot_of_size_le (by omega)]
    · rw [if_neg (by simpa using Ne.symm hi)]
      exact Queue.slot_modifySlot_ne q _ hi
  | _ => rfl

theorem abandoned (h : Reception q t q' t' ns) (i : Nat) :
    (q'.slot i).abandoned = (q.slot i).abandoned := by
  rw [h.slot]
  split <;> rfl

/-- Only what was in the queue is in the queue and in hand. -/
theorem queued (h : Reception q t q' t' ns) : ∀ m ∈ q'.toList, m ∈ q.toList := by
  cases h with
  | dequeue h =>
    intro m hm
    rw [(Queue.pop?_some h).1]
    exact List.mem_cons_of_mem _ hm
  | deliver =>
    split <;> exact fun _ hm => hm
  | _ => exact fun _ hm => hm

theorem taken (h : Reception q t q' t' ns) :
    ∀ i, t'.run? = some i → t.run? = some i ∨ ∃ m ∈ q.toList, m.run = i := by
  intro i hi
  cases h with
  | @dequeue _ m h =>
    refine .inr ⟨m, ?_, by simpa [Taking.run?] using hi⟩
    rw [(Queue.pop?_some h).1]
    exact List.mem_cons_self
  | drop | deliver | same | tell => cases hi
  | turn | clear | load => exact .inl hi

theorem noted (h : Reception q t q' t' ns) : ∀ n ∈ ns, t.run? = some n.run := by
  cases h <;> simp [Taking.run?, Message.run, Note.run]

theorem reads (h : Reception q t q' t' ns) (i : Nat) (hi : t'.reads i) :
    t.reads i ∨ (q.slot i).abandoned = false := by
  cases h with
  | turn h =>
    refine .inr ?_
    simp only [Taking.reads, Taking.clearing.injEq, reduceCtorEq, exists_false, or_false] at hi
    rwa [← hi]
  | clear | load =>
    refine .inl ?_
    simpa [Taking.reads] using hi
  | _ => simp [Taking.reads] at hi

end Reception

namespace Ensemble

/-- The run whose worker the controller has to do with. -/
def holder (s : Ensemble ω σ) : Option Nat := s.call.held?.or s.engine.current

/-- Numbers mean runs, a call and the engine hold no two workers, the last run is the only one
whose worker may be alive without being disowned, and the receiver reads no disowned slot. -/
structure Sound (s : Ensemble ω σ) : Prop where
  receiving : s.engine.queue.receiving = true
  slots : s.engine.queue.slots.size = s.engine.runs.size
  queued : ∀ m ∈ s.engine.queue.toList, m.run < s.engine.runs.size
  taking : ∀ r, s.taking.run? = some r → r < s.engine.runs.size
  log : ∀ n ∈ s.log, n.run < s.engine.runs.size
  held : s.call.held? ≠ none → s.engine.current = none
  holder : ∀ r, s.holder = some r → r + 1 = s.engine.runs.size
  alive : ∀ r, s.engine.isAlive r = true → (s.engine.queue.slot r).abandoned = false →
    s.holder = some r
  reads : ∀ r, s.taking.reads r → (s.engine.queue.slot r).abandoned = false

/-- The controller lets go of nothing but a worker that has ended. -/
structure Keeps (s s' : Ensemble ω σ) : Prop where
  holder : s'.holder = s.holder ∨
    s'.holder = none ∧ ∀ r, s.holder = some r → s.engine.isAlive r = false
  held : s'.call.held? ≠ none → s'.engine.current = none

/-- What one step does. -/
inductive Step (s s' : Ensemble ω σ) (l : Label ω) : Prop where
  | aside (runs : s'.engine.runs = s.engine.runs) (queue : s'.engine.queue = s.engine.queue)
    (taking : s'.taking = s.taking) (log : s'.log = s.log) (keeps : s.Keeps s')
  | run (id : Nat) (r r' : Run σ) (ms : List Message) (ns : List Note)
    (here : s.engine.runs[id]? = some r) (runs : s'.engine.runs = s.engine.runs.setIfInBounds id r')
    (queue : s.engine.queue.Extends s'.engine.queue id ms)
    (move : RunMove id l r (s.engine.queue.slot id) r' (s'.engine.queue.slot id) ms ns)
    (taking : s'.taking = s.taking) (log : s'.log = s.log ++ ns) (keeps : s.Keeps s')
  | silence (id : Nat) (call : s.call = .silencing id) (call' : s'.call = .idle)
    (current : s'.engine.current = s.engine.current) (runs : s'.engine.runs = s.engine.runs)
    (queue : s'.engine.queue = s.engine.queue.abandon id) (rest : s.taking = .resting)
    (taking : s'.taking = .resting) (log : s'.log = s.log ++ [.abandoned id])
  | launch (launch : Launch) (r : Run σ) (gives : launch.Gives r)
    (idle : ∀ r, s.holder = some r → s.engine.isAlive r = false)
    (runs : s'.engine.runs = s.engine.runs.push r)
    (slots : s'.engine.queue.slots = s.engine.queue.slots.push {})
    (toList : s'.engine.queue.toList = s.engine.queue.toList ++
      (launch.refusal?.map fun o => .event s.engine.runs.size (.stopped o)).toList)
    (lastLine : s'.engine.queue.lastLine = s.engine.queue.lastLine)
    (receiving : s'.engine.queue.receiving = true) (call : s'.call = .idle)
    (current : s'.engine.current = if launch.refusal? = none then some s.engine.runs.size else none)
    (taking : s'.taking = s.taking) (log : s'.log = s.log ++ [.launched s.engine.runs.size launch])
  | take (ns : List Note) (runs : s'.engine.runs = s.engine.runs)
    (current : s'.engine.current = s.engine.current) (call : s'.call = s.call)
    (receive : Reception s.engine.queue s.taking s'.engine.queue s'.taking ns)
    (log : s'.log = s.log ++ ns)

variable {I : Interpreter ω σ} {s s' : Ensemble ω σ} {l : Label ω} {id : Nat}

theorem keeps_of_holder (h : s'.holder = s.holder)
    (held : s'.call.held? ≠ none → s'.engine.current = none) : s.Keeps s' := ⟨.inl h, held⟩

theorem holder_of_held (h : s.call.held? = none) : s.holder = s.engine.current := by
  simp [holder, h]

theorem isAlive_eq (id : Nat) :
    s.engine.isAlive id = (s.engine.runs[id]?.map (·.stage.isAlive)).getD false := by
  unfold Engine.isAlive
  cases s.engine.runs[id]? <;> rfl

/-! ## The controller -/

theorem modify_of_none {runs : Array (Run σ)} (f : Run σ → Run σ) (h : runs[id]? = none) :
    runs.modify id f = runs := by
  apply Array.ext_getElem?
  intro i
  rw [Array.getElem?_modify]
  split
  · subst i
    rw [h]
    rfl
  · rfl

theorem modify_of_some {runs : Array (Run σ)} {r : Run σ} (f : Run σ → Run σ)
    (h : runs[id]? = some r) : runs.modify id f = runs.setIfInBounds id (f r) := by
  apply Array.ext_getElem?
  intro i
  rw [Array.getElem?_modify, Array.getElem?_setIfInBounds]
  split
  · subst i
    obtain ⟨hid, hr⟩ := Array.getElem?_eq_some_iff.mp h
    simp [hid, hr]
  · rfl

/-- The controller changes one run and nothing else. -/
theorem step_modify {f : Run σ → Run σ}
    (move : ∀ r, RunMove id l r (s.engine.queue.slot id) (f r) (s.engine.queue.slot id) [] [])
    (runs : s'.engine.runs = s.engine.runs.modify id f) (queue : s'.engine.queue = s.engine.queue)
    (taking : s'.taking = s.taking) (log : s'.log = s.log) (keeps : s.Keeps s') : s.Step s' l := by
  cases h : s.engine.runs[id]? with
  | none => exact .aside (runs.trans (modify_of_none f h)) queue taking log keeps
  | some r =>
    exact .run id r (f r) [] [] h (runs.trans (modify_of_some f h)) (queue ▸ .refl _ id)
      (queue ▸ move r) taking (by simp [log]) keeps

theorem cancel_move (l : Label ω) (r : Run σ) (k : Slot) :
    RunMove id l r k { r with token := true } k [] [] :=
  .inner r.stage r.phase true r.tripped (.rest _)

theorem showRequest_move (l : Label ω) (r : Run σ) (k : Slot) :
    RunMove id l r k { r with phase := r.phase.requestStop } k [] [] :=
  .inner r.stage r.phase.requestStop r.token r.tripped (.rest _)

/-- What a stop leaves to be done concerns only the controller. -/
theorem afterStop_eq (s : Ensemble ω σ) (leave : Bool) :
    (s.afterStop leave).engine.runs = s.engine.runs ∧
      (s.afterStop leave).engine.queue = s.engine.queue ∧
      (s.afterStop leave).taking = s.taking ∧ (s.afterStop leave).log = s.log ∧
      (s.afterStop leave).holder = s.engine.current ∧
      ((s.afterStop leave).call.held? ≠ none → (s.afterStop leave).engine.current = none) := by
  cases leave
  · simp [afterStop, holder, Call.held?]
  · cases h : s.engine.current <;>
      simp [afterStop, await, Engine.takeWorker, proceed, holder, Call.held?, h]

theorem step_afterStop (leave : Bool) (h : s.call.held? = none) : s.Step (s.afterStop leave) l := by
  obtain ⟨h1, h2, h3, h4, h5, h6⟩ := afterStop_eq s leave
  exact .aside h1 h2 h3 h4 (keeps_of_holder (by rw [h5, holder_of_held h]) h6)

theorem step_requestStop (leave : Bool) (h : s.call.held? = none) :
    s.Step (s.requestStop leave) l := by
  unfold requestStop
  split
  · split
    · exact .aside rfl rfl rfl rfl (keeps_of_holder (by rw [holder_of_held h]; rfl) (fun h => absurd rfl h))
    · exact step_afterStop leave h
  · exact step_afterStop leave h

theorem step_launch (launch : Launch) (hs : s.engine.queue.receiving = true)
    (slots : s.engine.queue.slots.size = s.engine.runs.size)
    (idle : ∀ r, s.holder = some r → s.engine.isAlive r = false) (h : s.engine.current = none) :
    s.Step (s.launch launch) l := by
  have fails {o : Outcome} (ho : launch.refusal? = some o) (f : Failure)
      (he : (s.engine.launch launch).2 = (s.engine.failLaunch o f).2) :
      s.Step (s.launch launch) l := by
    refine .launch launch _ (.fails ho s.engine.payload s.engine.settings.chunkName) idle ?_ ?_ ?_ ?_
      ?_ rfl ?_ rfl rfl <;>
      simp [Ensemble.launch, he, Engine.failLaunch, Queue.openRun, Queue.send, Queue.push, hs, h, ho,
        Queue.toList, slots]
  cases launch with
  | works =>
    refine .launch .works _ (.works s.engine.payload s.engine.settings.chunkName) idle ?_ ?_ ?_ ?_
      ?_ rfl ?_ rfl rfl <;>
      simp [Ensemble.launch, Engine.launch, Queue.openRun, hs, Launch.refusal?, Queue.toList, slots]
  | noChannel c => exact fails rfl _ rfl
  | noThread c turns late =>
    exact fails rfl _ (congrArg Prod.snd (s.engine.launch_noThread c turns late))

/-! ## The receiver -/

theorem step_take (h : s.take = some s') : s.Step s' l := by
  have quiet {t : Taking} {q : Queue} (hr : Reception s.engine.queue s.taking q t []) :
      s.Step { s with engine.queue := q, taking := t } l :=
    .take [] rfl rfl rfl hr (by simp)
  have done {run : Nat} {x : Option Event × Queue}
      (hr : Reception s.engine.queue s.taking x.2 .resting (x.1.map (Note.delivered run)).toList) :
      s.Step (s.deliver run x) l :=
    .take _ rfl rfl rfl hr rfl
  cases ht : s.taking with
  | resting =>
    simp only [take, ht, Option.map_eq_some_iff] at h
    obtain ⟨x, hx, rfl⟩ := h
    exact quiet (ht ▸ .dequeue hx)
  | testing m =>
    simp only [take, ht] at h
    cases ha : (s.engine.queue.slot m.run).abandoned with
    | true =>
      simp only [ha, if_true, Option.some.injEq] at h
      subst h
      exact done (ht ▸ .drop ha)
    | false =>
      cases m with
      | event r e =>
        simp only [Message.run_event] at h ha
        have hq : s.engine.queue.resolve (.event r e) =
            (some e, if e = .started then { s.engine.queue with lastLine := none } else s.engine.queue) := by
          simp [Queue.resolve, ha]
        simp only [ha, Bool.false_eq_true, if_false, Option.some.injEq, hq] at h
        subst h
        exact done (ht ▸ .deliver ha)
      | line r =>
        simp only [ha, Bool.false_eq_true, if_false, Option.some.injEq] at h
        subst h
        exact quiet (ht ▸ .turn ha)
  | clearing r =>
    simp only [take, ht, Option.some.injEq] at h
    subst h
    exact quiet (ht ▸ .clear)
  | loading r =>
    simp only [take, ht, Option.some.injEq] at h
    subst h
    exact quiet (ht ▸ .load)
  | comparing r n =>
    simp only [take, ht, Option.some.injEq, Queue.deliverLine] at h
    subst h
    split
    · rename_i hn
      exact done (ht ▸ .same hn)
    · rename_i hn
      exact done (ht ▸ .tell hn)

/-! ## Workers and pumps -/

theorem step_rest (held : s.call.held? ≠ none → s.engine.current = none) : s.Step s l :=
  .aside rfl rfl rfl rfl (keeps_of_holder rfl held)

theorem step_isMove {r r' : Run σ} {q' : Queue} {ns : List Note} (world : ω)
    (held : s.call.held? ≠ none → s.engine.current = none) (here : s.engine.runs[id]? = some r)
    (h : IsMove id l r s.engine.queue r' q' ns) :
    s.Step { s with
      engine := { s.engine with runs := s.engine.runs.setIfInBounds id r', queue := q', world }
      log := s.log ++ ns } l := by
  obtain ⟨ms, hq, hm⟩ := h
  exact .run id r r' ms ns here rfl hq hm rfl rfl (keeps_of_holder rfl held)

theorem step_act (hs : s.Sound) (a : Actor) : s.Step (s.act I a) (.other a) := by
  have slots {id : Nat} {r : Run σ} (h : s.engine.runs[id]? = some r) :
      id < s.engine.queue.slots.size := hs.slots ▸ (Array.getElem?_eq_some_iff.mp h).1
  cases a with
  | worker id =>
    cases h : s.engine.runs[id]? with
    | none =>
      have : s.act I (.worker id) = s := by simp [act, Engine.step, h]
      rw [this]
      exact step_rest hs.held
    | some r =>
      have := step_isMove (Run.workerStep I id ⟨r, s.engine.queue, s.engine.world⟩).world hs.held h
        (workerStep_move I (.other (.worker id)) r s.engine.world (slots h) hs.receiving)
      simpa [act, Engine.step, h] using this
  | pump id g =>
    cases h : s.engine.runs[id]? with
    | none =>
      have : s.act I (.pump id g) = s := by simp [act, Engine.step, h]
      rw [this]
      exact step_rest hs.held
    | some r =>
      have := step_isMove s.engine.world hs.held h
        (pumpStep_move g (.other (.pump id g)) r hs.receiving)
      simpa [act, Engine.step, h] using this
  | patience id =>
    exact step_modify (fun r => expire_move r _) rfl rfl rfl (by simp [act])
      (keeps_of_holder rfl hs.held)
  | fault id =>
    exact step_modify (fun r => failRead_move r _) rfl rfl rfl (by simp [act])
      (keeps_of_holder rfl hs.held)

/-! ## All together -/

theorem isFree_iff : s.isFree = true ↔ s.call = .idle ∧ s.taking = .resting := by
  simp [isFree]

theorem step_await (hs : s.Sound) (h : s.call.held? = none) (launch : Launch) :
    s.Step (s.await (some launch)) l := by
  unfold await Engine.takeWorker
  cases hc : s.engine.current with
  | some id =>
    exact .aside rfl rfl rfl rfl
      (keeps_of_holder (by rw [holder_of_held h, hc]; rfl) (fun _ => rfl))
  | none =>
    have : { s with engine := { s.engine with current := none } } = s := by rw [← hc]
    simp only [this, proceed]
    exact step_launch launch hs.receiving hs.slots
      (fun r hr => by rw [holder_of_held h, hc] at hr; cases hr) hc

theorem step_goOn (hs : s.Sound) (ht : s.taking = .resting) (h : s.goOn = some s') :
    s.Step s' l := by
  unfold goOn at h
  split at h
  · cases h
  · rename_i id leave hc
    cases h
    exact step_modify (fun r => cancel_move l r _) rfl rfl rfl rfl
      (keeps_of_holder (by simp [holder, hc, Call.held?, Engine.cancel, Engine.modifyRun])
        (by simp [Call.held?]))
  · rename_i id leave hc
    cases h
    obtain ⟨h1, h2, h3, h4, h5, h6⟩ := afterStop_eq { s with engine := s.engine.showRequest id } leave
    exact step_modify (fun r => showRequest_move l r _) h1 h2 h3 h4
      (keeps_of_holder (by rw [h5, holder_of_held (by rw [hc]; rfl)]; rfl) h6)
  · rename_i id next hc
    split at h
    · cases h
    · rename_i ha
      cases h
      have idle (r : Nat) (hr : s.holder = some r) : s.engine.isAlive r = false := by
        simp only [holder, hc, Call.held?, Option.some_or, Option.some.injEq] at hr
        simpa [← hr] using ha
      have hcur := hs.held (by rw [hc]; nofun)
      cases next with
      | some launch => exact step_launch launch hs.receiving hs.slots idle hcur
      | none =>
        have free : (s.proceed none).holder = none := by simp [proceed, holder, Call.held?, hcur]
        exact .aside rfl rfl rfl rfl ⟨.inr ⟨free, idle⟩, by simp [proceed, Call.held?]⟩
  · rename_i id hc
    cases h
    exact step_modify (fun r => cancel_move l r _) rfl rfl rfl rfl
      (keeps_of_holder (by simp [holder, hc, Call.held?]) (fun _ => hs.held (by rw [hc]; nofun)))
  · rename_i id hc
    cases h
    exact .silence id hc rfl rfl rfl rfl ht ht rfl

/-- A step does one of the things listed. -/
theorem step_cases (hs : s.Sound) (h : s.step I l = some s') : s.Step s' l := by
  have free (hf : s.isFree = true) : s.call.held? = none := by
    rw [(isFree_iff.mp hf).1]
    rfl
  cases l with
  | setScript source =>
    simp only [step, Option.ite_none_right_eq_some, Option.some.injEq] at h
    obtain ⟨_, rfl⟩ := h
    unfold Engine.setScript
    split <;> exact .aside rfl rfl rfl rfl (keeps_of_holder rfl hs.held)
  | setSearchDirs dirs =>
    simp only [step, Option.ite_none_right_eq_some, Option.some.injEq] at h
    obtain ⟨_, rfl⟩ := h
    unfold Engine.setSearchDirs
    split <;> exact .aside rfl rfl rfl rfl (keeps_of_holder rfl hs.held)
  | start launch =>
    simp only [step, Option.ite_none_right_eq_some, Option.some.injEq] at h
    obtain ⟨hf, rfl⟩ := h
    split
    · exact step_rest hs.held
    · exact step_await hs (free hf) launch
  | stop =>
    simp only [step, Option.ite_none_right_eq_some, Option.some.injEq] at h
    obtain ⟨hf, rfl⟩ := h
    exact step_requestStop false (free hf)
  | shutdown =>
    simp only [step, Option.ite_none_right_eq_some, Option.some.injEq] at h
    obtain ⟨hf, rfl⟩ := h
    exact step_requestStop true (free hf)
  | goOn =>
    simp only [step, Option.ite_none_right_eq_some] at h
    exact step_goOn hs h.1 h.2
  | giveUp =>
    simp only [step] at h
    split at h
    · rename_i id next hc
      simp only [Option.ite_none_right_eq_some, Option.some.injEq] at h
      obtain ⟨_, rfl⟩ := h
      exact .aside rfl rfl rfl rfl
        (keeps_of_holder (by simp [holder, hc, Call.held?]) (fun _ => hs.held (by rw [hc]; nofun)))
    · cases h
  | take =>
    simp only [step] at h
    split at h
    · exact step_take h
    · exact step_take h
    · cases h
  | other a =>
    cases h
    exact step_act hs a
  | dropPump id =>
    simp only [step, Option.ite_none_right_eq_some, Option.some.injEq] at h
    obtain ⟨ha, rfl⟩ := h
    exact step_modify (fun r => .abort ha) rfl rfl rfl rfl (keeps_of_holder rfl hs.held)
  | outside w =>
    cases h
    exact .aside rfl rfl rfl rfl (keeps_of_holder rfl hs.held)

end Ensemble
end ScriptHost
