import ScriptHost.Proofs.Control.Stops
import ScriptHost.Proofs.Delivery.Coalescing
import ScriptHost.Proofs.Delivery.Output
import ScriptHost.Proofs.Scenario.Execution
import ScriptHost.Proofs.Worker.Timeline

/-!
# A run that executes its script

The notes of a run tell what its script has shown. As long as no stop is
requested of the run and others change the world only as its scenario allows,
they tell an execution, and where the worker is, is where the execution is.

* `Stage.Follows`: the worker is where an execution is that the notes tell.
* `step_parties`: work is noted by workers alone.
* `Passes.follows`: so it is for every run of the system.
-/
namespace ScriptHost

variable {ω σ : Type} {P : Scenario ω} {I : Interpreter ω σ} {id : Nat}

/-! ## Notes of an execution -/

/-- The notes tell what a script has shown, the error texts that were reported of it, and what its
finalizers have written. -/
structure Note.Tells (ns : List Note) (l : List Signal) (reports : List String) (finals : List UInt8) :
    Prop where
  writes : Note.writes ns = Signal.writes l
  lines : Note.lines ns = Signal.lines l
  reports : Note.reports ns = reports
  finals : Note.finals ns = finals

namespace Note.Tells

variable {ns ns' : List Note} {l : List Signal} {reports : List String} {finals : List UInt8}

/-- Notes tell the same if the work noted is the same. -/
theorem of_idle (h : Tells ns l reports finals) (idle : ∀ n ∈ ns', n.isWork = false) :
    Tells (ns ++ ns') l reports finals := by
  have quiet : ∀ n ∈ ns', n.isOutput = false := fun n hn => by
    have := idle n hn
    cases n <;> first | rfl | cases this
  have unpublished : Note.lines ns' = [] := List.filterMap_eq_nil_iff.mpr fun n hn => by
    have := idle n hn
    cases n <;> first | rfl | cases this
  obtain ⟨writes, reports, finals, -⟩ := Note.unwritten quiet
  refine ⟨?_, ?_, ?_, ?_⟩
  · rw [Note.writes_append, writes, List.append_nil, h.writes]
  · rw [Note.lines_append, unpublished, List.append_nil, h.lines]
  · rw [Note.reports_append, reports, List.append_nil, h.reports]
  · rw [Note.finals_append, finals, List.append_nil, h.finals]

theorem publish {n : Int} (h : Tells ns l reports finals) (hn : 0 ≤ n) :
    Tells (ns ++ [.published id (UInt32.ofNat n.toNat)]) (l ++ [.line n]) reports finals := by
  refine ⟨?_, ?_, ?_, ?_⟩
  · rw [Note.writes_append, h.writes, Signal.writes_append]
    rfl
  · rw [Note.lines_append, h.lines, Signal.lines_append, Signal.lines_line, if_pos hn]
    rfl
  · rw [Note.reports_append, h.reports]
    exact List.append_nil reports
  · rw [Note.finals_append, h.finals]
    exact List.append_nil finals

theorem skip {n : Int} (h : Tells ns l reports finals) (hn : ¬ 0 ≤ n) :
    Tells ns (l ++ [.line n]) reports finals := by
  refine ⟨?_, ?_, h.reports, h.finals⟩
  · rw [h.writes, Signal.writes_append, Signal.writes_line, List.append_nil]
  · rw [h.lines, Signal.lines_append, Signal.lines_line, if_neg hn, List.append_nil]

theorem write {bytes : List UInt8} (h : Tells ns l reports finals) :
    Tells (ns ++ [.wrote id bytes]) (l ++ [.write bytes]) reports finals := by
  refine ⟨?_, ?_, ?_, ?_⟩
  · rw [Note.writes_append, h.writes, Note.writes_wrote, Signal.writes_append, Signal.writes_write]
  · rw [Note.lines_append, h.lines, Signal.lines_append, Signal.lines_write]
    rfl
  · rw [Note.reports_append, h.reports, Note.reports_wrote, List.append_nil]
  · rw [Note.finals_append, h.finals, Note.finals_wrote, List.append_nil]

theorem report {text : String} (h : Tells ns l [] finals) :
    Tells (ns ++ [.reported id text]) l [text] finals := by
  refine ⟨?_, ?_, ?_, ?_⟩
  · rw [Note.writes_append, h.writes, Note.writes_reported, List.append_nil]
  · rw [Note.lines_append, h.lines]
    exact List.append_nil _
  · rw [Note.reports_append, h.reports, Note.reports_reported, List.nil_append]
  · rw [Note.finals_append, h.finals, Note.finals_reported, List.append_nil]

theorem finalize {bytes : List UInt8} (h : Tells ns l reports finals) :
    Tells (ns ++ [.finalized id bytes]) l reports (finals ++ bytes) := by
  refine ⟨?_, ?_, ?_, ?_⟩
  · rw [Note.writes_append, h.writes, Note.writes_finalized, List.append_nil]
  · rw [Note.lines_append, h.lines]
    exact List.append_nil _
  · rw [Note.reports_append, h.reports, Note.reports_finalized, List.append_nil]
  · rw [Note.finals_append, h.finals, Note.finals_finalized]

end Note.Tells

/-- The worker is where an execution of the scenario is, and the notes tell that execution. -/
def Stage.Follows (P : Scenario ω) (I : Interpreter ω σ) (w : ω) (ns : List Note) : Stage σ → Prop
  | .absent => Note.Tells ns [] [] []
  | .created | .announced => P.Executes I [] none w ∧ Note.Tells ns [] [] []
  | .executing s => ∃ l, P.Executes I l (some s) w ∧ Note.Tells ns l [] []
  | .lineStored s | .lineMarked s | .testing s =>
    ∃ l n, P.Executes I l (some s) w ∧ I.signal s = .line n ∧ Note.Tells ns (l ++ [.line n]) [] []
  | .reporting s text =>
    ∃ l, P.Executes I l (some s) w ∧ I.signal s = .ended (some text) ∧ Note.Tells ns l [] []
  | .finalizing s _ =>
    ∃ l failure m, P.Closes I l failure m s w ∧ Note.Tells ns l failure.toList (Signal.writes m)
  | .closing _ | .draining _ | .stopping _ | .leaving _ | .ending | .gone =>
    ∃ l failure finals, P.Ends I l failure finals ∧ Note.Tells ns l failure.toList finals

namespace Stage.Follows

variable {w w' : ω} {ns ns' : List Note} {x y : Stage σ}

theorem of_idle (h : x.Follows P I w ns) (idle : ∀ n ∈ ns', n.isWork = false) :
    x.Follows P I w (ns ++ ns') := by
  cases x with
  | absent => exact Note.Tells.of_idle h idle
  | created | announced => exact ⟨h.1, h.2.of_idle idle⟩
  | executing =>
    obtain ⟨l, way, tells⟩ := h
    exact ⟨l, way, tells.of_idle idle⟩
  | lineStored | lineMarked | testing =>
    obtain ⟨l, n, way, shown, tells⟩ := h
    exact ⟨l, n, way, shown, tells.of_idle idle⟩
  | reporting =>
    obtain ⟨l, way, ended, tells⟩ := h
    exact ⟨l, way, ended, tells.of_idle idle⟩
  | finalizing =>
    obtain ⟨l, failure, m, closes, tells⟩ := h
    exact ⟨l, failure, m, closes, tells.of_idle idle⟩
  | _ =>
    obtain ⟨l, failure, finals, ends, tells⟩ := h
    exact ⟨l, failure, finals, ends, tells.of_idle idle⟩

theorem drift (h : x.Follows P I w ns) (hw : P.drift w w') : x.Follows P I w' ns := by
  cases x with
  | created | announced => exact ⟨h.1.drift hw, h.2⟩
  | executing =>
    obtain ⟨l, way, tells⟩ := h
    exact ⟨l, way.drift hw, tells⟩
  | lineStored | lineMarked | testing =>
    obtain ⟨l, n, way, shown, tells⟩ := h
    exact ⟨l, n, way.drift hw, shown, tells⟩
  | reporting =>
    obtain ⟨l, way, ended, tells⟩ := h
    exact ⟨l, way.drift hw, ended, tells⟩
  | finalizing =>
    obtain ⟨l, failure, m, closes, tells⟩ := h
    exact ⟨l, failure, m, closes.drift hw, tells⟩
  | _ => exact h

/-- What others can do to a stage changes nothing. -/
theorem meddle {r r' : Run σ} (h : r.stage.Follows P I w ns) (hm : Run.Meddles r r') :
    r'.stage.Follows P I w ns := by
  rcases hm.stage with same | ⟨o, draining, stopping⟩
  · rw [same]
    exact h
  · rw [draining] at h
    rw [stopping]
    exact h

/-- Where a script shows a line before it writes, its notes do too. -/
theorem lines_of_writes (first : P.LineFirst I) (h : x.Follows P I w ns)
    (written : Note.writes ns ≠ []) : Note.lines ns ≠ [] := by
  have told {l : List Signal} {s : σ} {w : ω} {reports : List String} {finals : List UInt8}
      (way : P.Executes I l (some s) w) (tells : Note.Tells ns l reports finals) : Note.lines ns ≠ [] := by
    rw [tells.writes] at written
    rw [tells.lines]
    exact first l s w way written
  have untold {reports : List String} {finals : List UInt8} (tells : Note.Tells ns [] reports finals) :
      Note.lines ns ≠ [] := absurd tells.writes written
  cases x with
  | absent => exact untold h
  | created | announced => exact untold h.2
  | executing =>
    obtain ⟨l, way, tells⟩ := h
    exact told way tells
  | lineStored s | lineMarked s | testing s =>
    obtain ⟨l, n, way, _, tells⟩ := h
    have before : Signal.lines l ≠ [] := by
      refine first l s w way ?_
      simpa [tells.writes] using written
    rw [tells.lines, Signal.lines_append]
    simp [before]
  | reporting =>
    obtain ⟨l, way, _, tells⟩ := h
    exact told way tells
  | finalizing =>
    obtain ⟨l, failure, m, closes, tells⟩ := h
    obtain ⟨s, w, way, _⟩ := closes.executes
    exact told way tells
  | _ =>
    obtain ⟨l, failure, finals, ⟨m, s, w, e, closes, _⟩, tells⟩ := h
    obtain ⟨s, w, way, _⟩ := closes.executes
    exact told way tells

end Stage.Follows

/-! ## The worker -/

/-- A write to a channel that is read succeeds. -/
theorem Channel.write_of_reading (c : Channel) (bytes : List UInt8) (reading : c.reading = true) :
    ∃ c', c.write bytes = .ok c' := by
  unfold Channel.write
  rw [reading]
  split <;> exact ⟨_, rfl⟩

open Run in
/-- A turn of an open script goes on with the execution. -/
theorem Run.follows_execute {r : Run σ} {q : Queue} {ns : List Note} {s : σ}
    (hs : r.stage = .executing s) (tripped : r.tripped = false) (reading : r.channel.reading = true)
    (h : (Stage.executing s).Follows P I w ns) :
    (execute I id s ⟨{ r with stage := .absent }, q, w⟩).run.stage.Follows P I
      (execute I id s ⟨{ r with stage := .absent }, q, w⟩).world (ns ++ Ensemble.notesOf I id r) := by
  obtain ⟨l, way, tells⟩ := h
  cases shown : I.signal s with
  | working | waiting =>
    simp only [execute, Ensemble.notesOf, hs, shown, List.append_nil]
    exact ⟨l, way.work (by rw [shown]; rfl), tells⟩
  | line n =>
    simp only [execute, Ensemble.notesOf, hs, shown]
    split <;> rename_i hn
    · exact ⟨l, n, way, shown, tells.publish hn⟩
    · rw [List.append_nil]
      exact ⟨l, n, way, shown, tells.skip hn⟩
  | write b =>
    obtain ⟨c, hc⟩ := r.channel.write_of_reading b reading
    simp only [execute, Ensemble.notesOf, hs, shown, hc]
    exact ⟨l ++ [.write b], way.write shown, tells.write⟩
  | ended failure =>
    simp only [execute, Ensemble.notesOf, hs, shown, afterScript, tripped, List.append_nil]
    cases failure with
    | none => exact ⟨l, none, [], .close way shown, tells⟩
    | some text => exact ⟨l, way, shown, tells⟩

open Run in
/-- A turn of the finalizers of a script goes on with the execution. -/
theorem Run.follows_finalize {r : Run σ} {q : Queue} {ns : List Note} {s : σ} {o : Outcome}
    (hs : r.stage = .finalizing s o) (reading : r.channel.reading = true)
    (h : (Stage.finalizing s o).Follows P I w ns) :
    (finalize I s o ⟨{ r with stage := .absent }, q, w⟩).run.stage.Follows P I
      (finalize I s o ⟨{ r with stage := .absent }, q, w⟩).world (ns ++ Ensemble.notesOf I id r) := by
  obtain ⟨l, failure, m, closes, tells⟩ := h
  cases shown : I.signal s with
  | working | waiting =>
    simp only [finalize, Ensemble.notesOf, hs, shown, List.append_nil]
    exact ⟨l, failure, m, closes.work (by rw [shown]; rfl), tells⟩
  | line n =>
    simp only [finalize, Ensemble.notesOf, hs, shown, List.append_nil]
    refine ⟨l, failure, m ++ [.line n], closes.line shown, ?_⟩
    rwa [Signal.writes_append, Signal.writes_line, List.append_nil]
  | write b =>
    obtain ⟨c, hc⟩ := r.channel.write_of_reading b reading
    simp only [finalize, Ensemble.notesOf, hs, shown, hc]
    refine ⟨l, failure, m ++ [.write b], closes.write shown, ?_⟩
    rw [Signal.writes_append, Signal.writes_write]
    exact tells.finalize
  | ended e =>
    simp only [finalize, Ensemble.notesOf, hs, shown, List.append_nil]
    exact ⟨l, failure, _, ⟨m, s, w, e, closes, shown, rfl⟩, tells⟩

open Run in
/-- The worker of a run of which no stop was requested goes on with the execution. -/
theorem Run.follows_step {x : Shared ω σ} {ns : List Note} (token : x.run.token = false)
    (tripped : x.run.tripped = false) (ends : x.run.stage.isOpen = true → x.run.channel.reading = true)
    (payload : x.run.payload = P.payload) (chunkName : x.run.chunkName = P.chunkName)
    (h : x.run.stage.Follows P I x.world ns) :
    (workerStep I id x).run.stage.Follows P I (workerStep I id x).world
      (ns ++ Ensemble.notesOf I id x.run) := by
  obtain ⟨r, q, w⟩ := x
  dsimp only at token tripped ends payload chunkName h ⊢
  have here {y : Stage σ} (hy : r.stage = y) : y.Follows P I w ns := hy ▸ h
  -- a step that notes nothing
  have quiet {y : Stage σ} (h : y.Follows P I w ns) : y.Follows P I w (ns ++ []) := by
    rwa [List.append_nil]
  cases hs : r.stage with
  | executing s =>
    simp only [workerStep, hs]
    exact follows_execute hs tripped (ends (by rw [hs]; rfl)) (here hs)
  | finalizing s o =>
    simp only [workerStep, hs]
    exact follows_finalize hs (ends (by rw [hs]; rfl)) (here hs)
  | announced =>
    obtain ⟨way, tells⟩ := here hs
    simp only [workerStep, Ensemble.notesOf, hs, payload, chunkName]
    exact quiet ⟨[], way.launch, tells⟩
  | testing s =>
    obtain ⟨l, n, way, shown, tells⟩ := here hs
    simp only [workerStep, Ensemble.notesOf, hs, token]
    exact quiet ⟨l ++ [.line n], way.line shown, tells⟩
  | reporting s text =>
    obtain ⟨l, way, ended, tells⟩ := here hs
    simp only [workerStep, Ensemble.notesOf, hs]
    exact ⟨l, some text, [], .close way ended, tells.report⟩
  | lineStored | draining =>
    have h := quiet (here hs)
    simp only [workerStep, Ensemble.notesOf, hs]
    split <;> exact h
  | _ =>
    -- the stage before says the same as the one behind
    have h := quiet (here hs)
    simp only [workerStep, Ensemble.notesOf, hs]
    exact h

/-- It is neither another run's worker that goes on, nor the world outside. -/
def Label.isAlone (id : Nat) : Label ω → Bool
  | .other (.worker j) => j = id
  | .outside _ => false
  | _ => true

open Run in
/-- A worker changes the world only by letting its script go on by itself. -/
theorem Run.world_of_worker (I : Interpreter ω σ) (id : Nat) (x : Shared ω σ) :
    (workerStep I id x).world = x.world ∨
    ∃ s, (x.run.stage = .executing s ∨ ∃ o, x.run.stage = .finalizing s o) ∧
      (I.signal s).isInner = true ∧ (workerStep I id x).world = (I.work s x.world).2 := by
  obtain ⟨r, q, w⟩ := x
  cases hs : r.stage with
  | executing s =>
    cases shown : I.signal s with
    | working | waiting =>
      refine .inr ⟨s, .inl rfl, by rw [shown]; rfl, ?_⟩
      simp only [workerStep, execute, hs, shown]
    | line | write =>
      refine .inl ?_
      simp only [workerStep, execute, hs, shown]
      split <;> rfl
    | ended => exact .inl (by simp only [workerStep, execute, hs, shown])
  | finalizing s o =>
    cases shown : I.signal s with
    | working | waiting =>
      refine .inr ⟨s, .inr ⟨o, rfl⟩, by rw [shown]; rfl, ?_⟩
      simp only [workerStep, finalize, hs, shown]
    | write =>
      refine .inl ?_
      simp only [workerStep, finalize, hs, shown]
      split <;> rfl
    | line | ended => exact .inl (by simp only [workerStep, finalize, hs, shown])
  | _ => exact .inl (by simp only [workerStep, hs])

namespace Ensemble

variable {s s' s₀ : Ensemble ω σ} {l : Label ω} {ls : List (Label ω)} {settings : Settings} {world : ω}
  {ok : Label ω → Prop}

/-! ## Who notes what -/

theorem notesOf_own (id : Nat) (r : Run σ) : ∀ n ∈ notesOf I id r, n.run = id := by
  unfold notesOf
  split
  · split
    · split <;> simp [Note.run]
    · simp [Note.run]
    · simp
  · simp [Note.run]
  · split <;> simp [Note.run]
  · simp

/-- The log is the one before and notes behind it, none of which tells of work. -/
def Unworked (s s' : Ensemble ω σ) : Prop := ∃ ns, s'.log = s.log ++ ns ∧ ∀ n ∈ ns, n.isWork = false

/-- No worker has gone on, and neither has the receiver or the world. -/
structure Apart (s s' : Ensemble ω σ) : Prop where
  taking : s'.taking = s.taking
  world : s'.engine.world = s.engine.world
  log : s.Unworked s'

theorem unworked_of_same (log : s'.log = s.log) : s.Unworked s' := ⟨[], by simp [log], by simp⟩

theorem unworked_of_note {n : Note} (log : s'.log = s.log ++ [n]) (idle : n.isWork = false) :
    s.Unworked s' := ⟨[n], log, by simpa using idle⟩

theorem apart_proceed (next : Option Launch) : s.Apart (s.proceed next) := by
  cases next with
  | none => exact ⟨rfl, rfl, unworked_of_same rfl⟩
  | some launch => exact ⟨rfl, by cases launch <;> rfl, unworked_of_note rfl rfl⟩

theorem apart_await (next : Option Launch) : s.Apart (s.await next) := by
  unfold await Engine.takeWorker
  cases s.engine.current with
  | some j => exact ⟨rfl, rfl, unworked_of_same rfl⟩
  | none =>
    obtain ⟨taking, world, log⟩ :=
      apart_proceed (s := { s with engine := { s.engine with current := none } }) next
    exact ⟨taking, world, log⟩

theorem apart_afterStop (leave : Bool) : s.Apart (s.afterStop leave) := by
  cases leave with
  | true => exact apart_await none
  | false => exact ⟨rfl, rfl, unworked_of_same rfl⟩

theorem apart_requestStop (leave : Bool) : s.Apart (s.requestStop leave) := by
  unfold requestStop
  split
  · split
    · exact ⟨rfl, rfl, unworked_of_same rfl⟩
    · exact apart_afterStop leave
  · exact apart_afterStop leave

theorem apart_goOn (h : s.goOn = some s') : s.Apart s' := by
  unfold goOn at h
  split at h
  · cases h
  · cases h
    exact ⟨rfl, rfl, unworked_of_same rfl⟩
  · rename_i j leave _
    cases h
    obtain ⟨taking, world, log⟩ :=
      apart_afterStop (s := { s with engine := s.engine.showRequest j }) leave
    exact ⟨taking, world, log⟩
  · split at h
    · cases h
    · cases h
      exact apart_proceed _
  · cases h
    exact ⟨rfl, rfl, unworked_of_same rfl⟩
  · cases h
    exact ⟨rfl, rfl, unworked_of_note rfl rfl⟩

theorem unworked_deliver (run : Nat) (x : Option Event × Queue) : s.Unworked (s.deliver run x) := by
  refine ⟨_, rfl, fun n hn => ?_⟩
  obtain ⟨e, _, rfl⟩ : ∃ e, x.1 = some e ∧ Note.delivered run e = n := by simpa using hn
  rfl

theorem unworked_take (h : s.take = some s') :
    s'.engine.world = s.engine.world ∧ s.Unworked s' := by
  unfold take at h
  dsimp only at h
  split at h
  · obtain ⟨_, _, rfl⟩ := Option.map_eq_some_iff.mp h
    exact ⟨rfl, unworked_of_same rfl⟩
  · split at h
    · cases h
      exact ⟨rfl, unworked_deliver _ _⟩
    · split at h <;> cases h
      · exact ⟨rfl, unworked_deliver _ _⟩
      · exact ⟨rfl, unworked_of_same rfl⟩
  · cases h
    exact ⟨rfl, unworked_of_same rfl⟩
  · cases h
    exact ⟨rfl, unworked_of_same rfl⟩
  · cases h
    exact ⟨rfl, unworked_deliver _ _⟩

/-- Who goes on with a step: the receiver, a worker, the world, or nobody of them. Work is noted by
the worker that does it. -/
theorem step_parties (h : s.step I l = some s') :
    s.Apart s' ∨ (l = .take ∧ s'.engine.world = s.engine.world ∧ s.Unworked s') ∨
      (∃ j, l = .other (.worker j) ∧ s'.taking = s.taking ∧
        s'.log = s.log ++ notesOf I j (s.engine.run j)) ∨
      ∃ w, l = .outside w ∧ s' = { s with engine.world := w } := by
  cases l with
  | setScript | setSearchDirs | dropPump =>
    simp only [step, Option.ite_none_right_eq_some, Option.some.injEq] at h
    obtain ⟨_, rfl⟩ := h
    refine .inl ⟨rfl, ?_, unworked_of_same rfl⟩
    first
      | rfl
      | simp only [Engine.setScript, Engine.setSearchDirs]
        split <;> rfl
  | start launch =>
    simp only [step, Option.ite_none_right_eq_some, Option.some.injEq] at h
    obtain ⟨_, rfl⟩ := h
    split
    · exact .inl ⟨rfl, rfl, unworked_of_same rfl⟩
    · exact .inl (apart_await _)
  | stop | shutdown =>
    simp only [step, Option.ite_none_right_eq_some, Option.some.injEq] at h
    obtain ⟨_, rfl⟩ := h
    exact .inl (apart_requestStop _)
  | goOn =>
    simp only [step, Option.ite_none_right_eq_some] at h
    exact .inl (apart_goOn h.2)
  | giveUp =>
    simp only [step] at h
    split at h
    · simp only [Option.ite_none_right_eq_some, Option.some.injEq] at h
      obtain ⟨_, rfl⟩ := h
      exact .inl ⟨rfl, rfl, unworked_of_same rfl⟩
    · cases h
  | take =>
    simp only [step] at h
    split at h
    · exact .inr (.inl ⟨rfl, unworked_take h⟩)
    · exact .inr (.inl ⟨rfl, unworked_take h⟩)
    · cases h
  | other a =>
    cases h
    cases a with
    | worker j =>
      cases here : s.engine.runs[j]? with
      | none =>
        exact .inl ⟨rfl, by simp [act, Engine.step, here], unworked_of_same (by simp [act, here])⟩
      | some r => exact .inr (.inr (.inl ⟨j, rfl, rfl, by simp [act, Engine.run, here]⟩))
    | pump j =>
      refine .inl ⟨rfl, ?_, unworked_of_same (by simp [act])⟩
      simp only [act, Engine.step]
      split <;> rfl
    | patience | fault => exact .inl ⟨rfl, rfl, unworked_of_same (by simp [act])⟩
  | outside w =>
    cases h
    exact .inr (.inr (.inr ⟨w, rfl, rfl⟩))

/-- Only the receiver changes what it has in hand. -/
theorem taking_of_step (h : s.step I l = some s') (hl : l ≠ .take) : s'.taking = s.taking := by
  rcases step_parties h with apart | ⟨rfl, _⟩ | ⟨_, _, taking, _⟩ | ⟨w, _, rfl⟩
  · exact apart.taking
  · exact absurd rfl hl
  · exact taking
  · rfl

/-- Only workers and others outside change the world. -/
theorem step_world (h : s.step I l = some s') (working : ∀ j, l ≠ .other (.worker j))
    (outside : ∀ w, l ≠ .outside w) : s'.engine.world = s.engine.world := by
  rcases step_parties h with apart | ⟨_, world, _⟩ | ⟨j, hl, _⟩ | ⟨w, hl, _⟩
  · exact apart.world
  · exact world
  · exact absurd hl (working j)
  · exact absurd hl (outside w)

/-- Whoever else goes on notes no work of the run `id`. -/
theorem notes_of_other (h : s.step I l = some s') (other : l ≠ .other (.worker id)) :
    ∃ ns, s'.notes id = s.notes id ++ ns ∧ ∀ n ∈ ns, n.isWork = false := by
  have unworked (h : s.Unworked s') :
      ∃ ns, s'.notes id = s.notes id ++ ns ∧ ∀ n ∈ ns, n.isWork = false := by
    obtain ⟨ns, log, idle⟩ := h
    refine ⟨ns.filter (·.run = id), by rw [notes, log, List.filter_append, notes], fun n hn => ?_⟩
    exact idle n (List.mem_filter.mp hn).1
  rcases step_parties h with apart | ⟨_, _, log⟩ | ⟨j, rfl, _, log⟩ | ⟨w, _, rfl⟩
  · exact unworked apart.log
  · exact unworked log
  · have hj : id ≠ j := fun he => other (by rw [he])
    refine ⟨[], ?_, by simp⟩
    rw [notes, log, List.filter_append, filter_run_ne (notesOf_own j _) hj, notes]
  · exact unworked (unworked_of_same rfl)

/-! ## A run of the system -/

/-- A run of the system from a state in which the script may be launched. Whoever goes on beside the
worker of the run `id` leaves the world as it is, or changes it as the scenario allows. -/
inductive Passes (P : Scenario ω) (I : Interpreter ω σ) (id : Nat) (s₀ : Ensemble ω σ) :
    List (Label ω) → Ensemble ω σ → Prop where
  | start (h : P.start s₀.engine.world) : Passes P I id s₀ [] s₀
  | step {ls : List (Label ω)} {s s' : Ensemble ω σ} {l : Label ω} (h : Passes P I id s₀ ls s)
    (hs : s.step I l = some s')
    (world : l = .other (.worker id) ∨ s'.engine.world = s.engine.world ∨
      P.drift s.engine.world s'.engine.world) : Passes P I id s₀ (ls ++ [l]) s'

/-- The run `id` is one of the script of the scenario, is not disowned, and no stop was requested of it. -/
structure Unasked (P : Scenario ω) (s : Ensemble ω σ) (id : Nat) : Prop where
  payload : (s.engine.run id).payload = P.payload
  chunkName : (s.engine.run id).chunkName = P.chunkName
  token : (s.engine.run id).token = false
  kept : (s.engine.queue.slot id).abandoned = false

theorem Passes.exec (h : Passes P I id s₀ ls s) : Ensemble.exec I s₀ ls = some s := by
  induction h with
  | start => rfl
  | step _ hs _ ih => exact exec_snoc ih hs

/-- Where no other worker goes on and nobody outside changes the world, every run of the system will
do. -/
theorem Passes.alone {before : List (Label ω)} (h : Passes P I id s₀ before s)
    (hs : Ensemble.exec I s ls = some s') (alone : ls.all (Label.isAlone id) = true) :
    Passes P I id s₀ (before ++ ls) s' := by
  refine exec_induction (P := fun ls s => ls.all (Label.isAlone id) = true →
    Passes P I id s₀ (before ++ ls) s) (fun _ => by rwa [List.append_nil])
    (fun {ls s l s'} _ ih hs alone => ?_) hs alone
  obtain ⟨first, own⟩ : ls.all (Label.isAlone id) = true ∧ l.isAlone id = true := by
    simpa [List.all_append] using alone
  rw [← List.append_assoc]
  refine (ih first).step hs ?_
  by_cases working : l = .other (.worker id)
  · exact .inl working
  · refine .inr (.inl (step_world hs ?_ ?_))
    · rintro j rfl
      exact working (by rw [of_decide_eq_true own])
    · rintro w rfl
      cases own

theorem Passes.of_alone (ready : P.start s₀.engine.world) (h : Ensemble.exec I s₀ ls = some s)
    (alone : ls.all (Label.isAlone id) = true) : Passes P I id s₀ ls s :=
  (Passes.start ready).alone h alone

/-- The script of a run stays. -/
theorem script_of_step (hid : id < s.engine.runs.size) (hs : s.step I l = some s') :
    (s'.engine.run id).payload = (s.engine.run id).payload ∧
      (s'.engine.run id).chunkName = (s.engine.run id).chunkName := by
  rcases step_shared hid hs with ⟨_, own⟩ | meddles
  · have own := congrArg Run.Shared.run own
    rw [show s'.engine.run id = _ from own]
    exact Run.workerStep_script I id _
  · exact meddles.script

/-- What was not asked of a run now was not asked before. -/
theorem Unasked.before (reached : Reached I ok (initial settings world) s)
    (hid : id < s.engine.runs.size) (hs : s.step I l = some s') (h : s'.Unasked P id) :
    s.Unasked P id := by
  have script := script_of_step hid hs
  refine ⟨script.1.symm.trans h.payload, script.2.symm.trans h.chunkName, ?_, ?_⟩
  · have kept := ((reached.ruled.conduct hs).treats hid).token_of
    rw [h.token] at kept
    simpa using kept
  · obtain ⟨ns, adds⟩ := (step_cases reached.sound hs).adds reached.sound
    have := (adds.abandoned id).not
    rw [h.kept] at this
    simpa using fun ha => (this.mp Bool.false_ne_true) (.inl ha)

section
variable (reached : Reached I ok (initial settings world) s) (smooth : ∀ l, ok l → l ≠ .other (.fault id))
  (hs : s.step I l = some s')
  (drift : l = .other (.worker id) ∨ s'.engine.world = s.engine.world ∨
    P.drift s.engine.world s'.engine.world)
include hs drift

/-- Before the run is launched its script is not executed. -/
theorem executes_of_unlaunched (hid : s.engine.runs.size ≤ id) (h : P.Executes I [] none s.engine.world) :
    P.Executes I [] none s'.engine.world := by
  rcases drift with rfl | world
  · cases hs
    have absent : s.engine.runs[id]? = none := Array.getElem?_eq_none hid
    simpa [act, Engine.step, absent] using h
  · exact h.of_world world

include reached

/-- The run that is launched has its execution before it. -/
theorem follows_of_launched (hid : s.engine.runs.size ≤ id) (hid' : id < s'.engine.runs.size)
    (h : P.Executes I [] none s.engine.world) :
    (s'.engine.run id).stage.Follows P I s'.engine.world (s'.notes id) := by
  have way := executes_of_unlaunched hs drift hid h
  obtain ⟨launch, r, gives, view⟩ := (step_cases reached.sound hs).fresh reached.sound hid hid'
  have run : s'.engine.run id = r := congrArg View.run view
  have noted : s'.notes id = [.launched id launch] := congrArg View.notes view
  rw [run, noted]
  have tells : Note.Tells [.launched id launch] [] [] [] := ⟨rfl, rfl, rfl, rfl⟩
  cases gives with
  | works => exact ⟨way, tells⟩
  | fails => exact tells

include smooth

/-- What the worker does and what others do keeps a run with its execution. -/
theorem follows_kept (hid : id < s.engine.runs.size) (unasked : s.Unasked P id)
    (h : (s.engine.run id).stage.Follows P I s.engine.world (s.notes id)) :
    (s'.engine.run id).stage.Follows P I s'.engine.world (s'.notes id) := by
  by_cases own : l = .other (.worker id)
  · subst own
    cases hs
    have shared := act_shared (I := I) hid
    have stage : ((s.act I (.worker id)).engine.run id) = _ := congrArg Run.Shared.run shared
    have world : (s.act I (.worker id)).engine.world = _ := congrArg Run.Shared.world shared
    have noted : (s.act I (.worker id)).notes id = s.notes id ++ notesOf I id (s.engine.run id) := by
      have here : s.engine.runs[id]? = some (s.engine.run id) := by simp [Engine.run, hid]
      rw [notes, notes, act, here, List.filter_append]
      exact congrArg _ (filter_run_self (notesOf_own id _))
    rw [stage, world, noted]
    have tripped : (s.engine.run id).tripped = false := by
      have := (reached.steady hid).tripped
      rw [unasked.token] at this
      simpa using this
    have ends := (reached.poured hid smooth unasked.kept).flow.ends
    exact Run.follows_step (x := s.shared id) unasked.token tripped (fun ho => (ends ho).2)
      unasked.payload unasked.chunkName h
  · have meddles := (step_shared hid hs).resolve_left fun h => own h.1
    obtain ⟨ns, noted, idle⟩ := notes_of_other hs own
    rw [noted]
    have follows := (h.meddle meddles).of_idle idle
    rcases drift.resolve_left own with same | drift
    · rw [same]
      exact follows
    · exact follows.drift drift

end

/-- **A run that is not asked to stop executes its script.** Before it is launched nothing is executed;
then its worker is always where an execution of its scenario is, and its notes tell that execution. -/
theorem Passes.follows (h : Passes P I id s₀ ls s) (reached : Reached I ok (initial settings world) s₀)
    (new : s₀.engine.runs.size ≤ id) (hok : ∀ l ∈ ls, ok l)
    (smooth : ∀ l, ok l → l ≠ .other (.fault id)) :
    (s.engine.runs.size ≤ id → P.Executes I [] none s.engine.world) ∧
      (id < s.engine.runs.size → s.Unasked P id →
        (s.engine.run id).stage.Follows P I s.engine.world (s.notes id)) := by
  induction h with
  | start ready => exact ⟨fun _ => .start ready, fun hid => absurd hid (Nat.not_lt.mpr new)⟩
  | @step ls s s' l h hs drift ih =>
    have hok' := fun l hl => hok l (List.mem_append_left _ hl)
    have reached : Reached I ok (initial settings world) s := reached_of_exec reached h.exec hok'
    have le := (reached.ruled.conduct hs).size_le reached.sound
    obtain ⟨before, under⟩ := ih hok'
    refine ⟨fun hid => ?_, fun hid unasked => ?_⟩
    · have hid : s.engine.runs.size ≤ id := Nat.le_trans le hid
      exact executes_of_unlaunched hs drift hid (before hid)
    · rcases Nat.lt_or_ge id s.engine.runs.size with there | absent
      · have unasked := unasked.before reached there hs
        exact follows_kept reached smooth hs drift there unasked (under there unasked)
      · exact follows_of_launched reached hs drift absent hid (before absent)

/-- The world is always one in which the script or a finalizer can be at work. -/
theorem Passes.sees (h : Passes P I id s₀ ls s) (reached : Reached I ok (initial settings world) s₀)
    (new : s₀.engine.runs.size ≤ id) (hok : ∀ l ∈ ls, ok l)
    (smooth : ∀ l, ok l → l ≠ .other (.fault id)) (unasked : s.Unasked P id) :
    P.Sees I s.engine.world := by
  induction h with
  | start ready => exact .inl ⟨_, _, .start ready⟩
  | @step ls s s' l h hs drift ih =>
    have hok' := fun l hl => hok l (List.mem_append_left _ hl)
    have reached' : Reached I ok (initial settings world) s := reached_of_exec reached h.exec hok'
    obtain ⟨before, under⟩ := h.follows reached new hok' smooth
    rcases Nat.lt_or_ge id s.engine.runs.size with there | absent
    · have unasked' := unasked.before reached' there hs
      have sees := ih hok' unasked'
      have follows := under there unasked'
      rcases drift with rfl | world
      · cases hs
        have shared : (s.act I (.worker id)).engine.world = _ :=
          congrArg Run.Shared.world (act_shared (I := I) there)
        rw [shared]
        rcases Run.world_of_worker I id (s.shared id) with
          same | ⟨x, stage | ⟨o, stage⟩, inner, world⟩
        · rw [same]
          exact sees
        · rw [show (s.engine.run id).stage = _ from stage] at follows
          obtain ⟨l, way, -⟩ := follows
          rw [world]
          exact .inl ⟨l, _, way.work inner⟩
        · rw [show (s.engine.run id).stage = _ from stage] at follows
          obtain ⟨l, failure, m, closes, -⟩ := follows
          rw [world]
          exact .inr ⟨l, failure, m, _, closes.work inner⟩
      · exact sees.of_world world
    · exact .inl ⟨_, _, executes_of_unlaunched hs drift absent (before absent)⟩

end Ensemble
end ScriptHost
