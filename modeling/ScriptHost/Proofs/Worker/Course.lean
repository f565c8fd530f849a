import ScriptHost.Proofs.Channel
import ScriptHost.Proofs.Control.Rule

/-!
# A worker among the others

The worker of a run takes its steps, and in between others change what they
share with it. `Run.deeds` tells what the worker does with a step, `Meddles` what
others can do, and `Course` is any mixture of both with all the deeds in order.

* `workerStep_queue`, `workerStep_channel`, `workerStep_phase`: a step changes
  what is shared as its deeds say, and in no other way.
* `Reached.course`: every run of the system is a course of each of its workers.
-/
namespace ScriptHost

/-- Something a worker does. -/
inductive Deed where
  /-- It announces the start. -/
  | announce
  /-- It moves the phase to running. -/
  | begin
  /-- The script has begun a line; a negative number stands for no usable line. -/
  | hook (n : Int)
  /-- It stores the current line. -/
  | store (line : UInt32)
  /-- It sets the flag of its run, which was set before or not. -/
  | mark (was : Bool)
  /-- It sends a marker. -/
  | push
  /-- It tests the token, which is set or not. -/
  | test (saw : Bool)
  /-- It writes for the script, with success or without. -/
  | write (bytes : List UInt8) (ok : Bool)
  /-- The script has ended, perhaps with the text of an error. -/
  | conclude (failure : Option String)
  /-- It writes an error text and a newline, with success or without. -/
  | report (text : String) (ok : Bool)
  /-- It writes for a finalizer of the script, with success or without. -/
  | finalize (bytes : List UInt8) (ok : Bool)
  /-- It lets go of the channel. -/
  | close
  /-- It moves the phase to its end. -/
  | halt
  /-- It announces the stop. -/
  | farewell (o : Outcome)
  deriving DecidableEq, Repr

namespace Deed

/-- What a deed does to the queue. -/
def onQueue (id : Nat) (q : Queue) : Deed → Queue
  | announce => q.send id .started
  | store line => q.storeLine id line
  | mark _ => (q.markQueued id).2
  | push => q.push (.line id)
  | farewell o => q.send id (.stopped o)
  | _ => q

/-- What a deed does to the channel; a write that fails leaves it as it is. -/
def onChannel (c : Channel) : Deed → Channel
  | write bytes _ => c.put bytes
  | report text _ => c.put (text ++ "\n").toUTF8.toList
  | finalize bytes _ => c.put bytes
  | close => c.closeWriter
  | _ => c

/-- What a deed does to the phase. -/
def onPhase (p : Phase) : Deed → Phase
  | begin => p.begin
  | halt => .stopped
  | _ => p

end Deed

/-- All bytes could be written. -/
def Channel.accepts (c : Channel) (bytes : List UInt8) : Bool :=
  match c.write bytes with
  | .ok _ => true
  | .error _ => false

namespace Run

variable {ω σ : Type} {I : Interpreter ω σ} {id : Nat} {x y z : Shared ω σ} {ds : List Deed}

/-- What a worker does with its next step. -/
def deeds (I : Interpreter ω σ) (id : Nat) (x : Shared ω σ) : List Deed :=
  match x.run.stage with
  | .created => [.announce]
  | .announced => [.begin]
  | .executing s =>
    match I.signal s with
    | .line n => if 0 ≤ n then [.hook n, .store (UInt32.ofNat n.toNat)] else [.hook n]
    | .write bytes => [.write bytes (x.run.channel.accepts bytes)]
    | .ended failure => [.conclude failure]
    | _ => []
  | .lineStored _ => [.mark (x.queue.slot id).queued]
  | .lineMarked _ => [.push]
  | .testing _ => [.test x.run.token]
  | .reporting _ text => [.report text (x.run.channel.accepts (text ++ "\n").toUTF8.toList)]
  | .finalizing s _ =>
    match I.signal s with
    | .write bytes => [.finalize bytes (x.run.channel.accepts bytes)]
    | _ => []
  | .closing _ => [.close]
  | .stopping _ => [.halt]
  | .leaving o => [.farewell o]
  | _ => []

/-- The worker hears of a line when its script shows one. -/
theorem hook_of_deeds {n : Int} (h : .hook n ∈ deeds I id x) :
    ∃ s, x.run.stage = .executing s ∧ I.signal s = .line n := by
  cases here : x.run.stage with
  | executing s =>
    refine ⟨s, rfl, ?_⟩
    cases shown : I.signal s with
    | line l =>
      simp only [deeds, here, shown] at h
      split at h <;> simp_all
    | _ => simp [deeds, here, shown] at h
  | finalizing s o => cases shown : I.signal s <;> simp [deeds, here, shown] at h
  | _ => simp [deeds, here] at h

/-- The token is tested behind a line. -/
theorem test_of_deeds {saw : Bool} (h : .test saw ∈ deeds I id x) : ∃ s, x.run.stage = .testing s := by
  cases here : x.run.stage with
  | testing s => exact ⟨s, rfl⟩
  | executing s =>
    cases shown : I.signal s with
    | line l =>
      simp only [deeds, here, shown] at h
      split at h <;> simp at h
    | _ => simp [deeds, here, shown] at h
  | finalizing s o => cases shown : I.signal s <;> simp [deeds, here, shown] at h
  | _ => simp [deeds, here] at h

/-! ## The effects of a step -/

theorem workerStep_queue (I : Interpreter ω σ) (id : Nat) (x : Shared ω σ) :
    (workerStep I id x).queue = (deeds I id x).foldl (Deed.onQueue id) x.queue := by
  obtain ⟨r, q, w⟩ := x
  cases hs : r.stage with
  | executing s =>
    simp only [workerStep, execute, deeds, hs]
    cases I.signal s with
    | line n => dsimp only; split <;> rfl
    | write bytes => dsimp only; split <;> rfl
    | _ => rfl
  | finalizing s o =>
    simp only [workerStep, finalize, deeds, hs]
    cases I.signal s with
    | write bytes => dsimp only; split <;> rfl
    | _ => rfl
  | _ => simp only [workerStep, deeds, hs]; rfl

theorem workerStep_channel (I : Interpreter ω σ) (id : Nat) (x : Shared ω σ) :
    (workerStep I id x).run.channel = (deeds I id x).foldl Deed.onChannel x.run.channel := by
  obtain ⟨r, q, w⟩ := x
  cases hs : r.stage with
  | executing s =>
    simp only [workerStep, execute, deeds, hs]
    cases I.signal s with
    | line n => dsimp only; split <;> rfl
    | write bytes =>
      dsimp only [List.foldl_cons, List.foldl_nil, Deed.onChannel]
      split <;> rename_i h <;> simp [Channel.put, h, Except.toOption]
    | _ => rfl
  | finalizing s o =>
    simp only [workerStep, finalize, deeds, hs]
    cases I.signal s with
    | write bytes =>
      dsimp only [List.foldl_cons, List.foldl_nil, Deed.onChannel]
      split <;> rename_i h <;> simp [Channel.put, h, Except.toOption]
    | _ => rfl
  | _ => simp only [workerStep, deeds, hs, List.foldl_cons, List.foldl_nil, Deed.onChannel, Channel.put]

theorem workerStep_phase (I : Interpreter ω σ) (id : Nat) (x : Shared ω σ) :
    (workerStep I id x).run.phase = (deeds I id x).foldl Deed.onPhase x.run.phase := by
  obtain ⟨r, q, w⟩ := x
  cases hs : r.stage with
  | executing s =>
    simp only [workerStep, execute, deeds, hs]
    cases I.signal s with
    | line n => dsimp only; split <;> rfl
    | write bytes => dsimp only; split <;> rfl
    | _ => rfl
  | finalizing s o =>
    simp only [workerStep, finalize, deeds, hs]
    cases I.signal s with
    | write bytes => dsimp only; split <;> rfl
    | _ => rfl
  | _ => simp only [workerStep, deeds, hs, List.foldl_cons, List.foldl_nil, Deed.onPhase]

/-! ## Courses -/

/-- What others can do to a run between two steps of its worker. They set its token, show that a stop
was requested, end the worker's patience, take from the channel or close the end they hold. -/
structure Meddles (r r' : Run σ) : Prop where
  script : r'.payload = r.payload ∧ r'.chunkName = r.chunkName
  stage : r'.stage = r.stage ∨ ∃ o, r.stage = .draining o ∧ r'.stage = .stopping o
  tripped : r'.tripped = r.tripped
  token : r.token = true → r'.token = true
  phase : r'.phase = r.phase ∨ r'.phase = r.phase.requestStop
  writing : r'.channel.writing = r.channel.writing
  drained : r.drained ≠ .waiting → r'.drained ≠ .waiting

/-- What comes of a worker and the others, with all that the worker has done. Of the queue and the
world, which other runs change as well, nothing is certain. -/
inductive Course (I : Interpreter ω σ) (id : Nat) (x : Shared ω σ) : List Deed → Shared ω σ → Prop where
  | start : Course I id x [] x
  | act {ds : List Deed} {y : Shared ω σ} (h : Course I id x ds y) :
    Course I id x (ds ++ deeds I id y) (workerStep I id y)
  | meddle {ds : List Deed} {y z : Shared ω σ} (h : Course I id x ds y)
    (hm : Meddles y.run z.run) : Course I id x ds z

namespace Meddles

variable {r r' : Run σ}

theorem refl (r : Run σ) : Meddles r r := ⟨⟨rfl, rfl⟩, .inl rfl, rfl, id, .inl rfl, rfl, id⟩

theorem of_eq (h : r' = r) : Meddles r r' := h ▸ refl r

theorem cancel (r : Run σ) : Meddles r { r with token := true } :=
  ⟨⟨rfl, rfl⟩, .inl rfl, rfl, fun _ => rfl, .inl rfl, rfl, id⟩

theorem showRequest (r : Run σ) : Meddles r { r with phase := r.phase.requestStop } :=
  ⟨⟨rfl, rfl⟩, .inl rfl, rfl, id, .inr rfl, rfl, id⟩

theorem expire (r : Run σ) : Meddles r r.expire := by
  unfold Run.expire
  split
  · rename_i o h
    exact ⟨⟨rfl, rfl⟩, .inr ⟨o, h, rfl⟩, rfl, id, .inl rfl, rfl, id⟩
  · exact refl r

theorem failRead (r : Run σ) : Meddles r r.failRead := by
  unfold Run.failRead
  split
  · exact ⟨⟨rfl, rfl⟩, .inl rfl, rfl, id, .inl rfl, rfl, id⟩
  · exact refl r

theorem abortPump (r : Run σ) : Meddles r r.abortPump := by
  unfold Run.abortPump
  split
  · exact refl r
  · exact ⟨⟨rfl, rfl⟩, .inl rfl, rfl, id, .inl rfl, rfl, fun hd => by simp [hd]⟩

theorem pumpStep (g : Grant) (j : Nat) (r : Run σ) (q : Queue) : Meddles r (r.pumpStep g j q).1 := by
  have ends := (Channel.look_ends r.channel g).1
  unfold Run.pumpStep
  split
  · split <;> rename_i look <;> rw [look] at ends <;>
      exact ⟨⟨rfl, rfl⟩, .inl rfl, rfl, id, .inl rfl, ends, id⟩
  · exact ⟨⟨rfl, rfl⟩, .inl rfl, rfl, id, .inl rfl, rfl, id⟩
  · exact ⟨⟨rfl, rfl⟩, .inl rfl, rfl, id, .inl rfl, rfl, fun _ => nofun⟩
  · exact refl r

end Meddles

end Run

/-! ## Courses in the system -/

namespace Ensemble

open Run

variable {ω σ : Type} {I : Interpreter ω σ} {s s' : Ensemble ω σ} {l : Label ω} {id j : Nat}
  {settings : Settings} {world : ω}

/-- What the worker of a run has before it. -/
def shared (s : Ensemble ω σ) (id : Nat) : Run.Shared ω σ := ⟨s.engine.run id, s.engine.queue, s.engine.world⟩

theorem run_modified (hid : id < s.engine.runs.size) {f : Run σ → Run σ}
    (h : ∀ r, Meddles r (f r)) : Meddles (s.engine.run id) ((s.engine.modifyRun j f).run id) := by
  rw [run_modifyRun f j hid]
  split
  · exact h _
  · exact .refl _

theorem run_proceed (next : Option Launch) (hid : id < s.engine.runs.size) :
    (s.proceed next).engine.run id = s.engine.run id := by
  cases next with
  | none => rfl
  | some launch => exact run_launch launch hid

theorem run_await (next : Option Launch) (hid : id < s.engine.runs.size) :
    (s.await next).engine.run id = s.engine.run id := by
  unfold await Engine.takeWorker
  cases s.engine.current with
  | none =>
    exact run_proceed (s := { s with engine := { s.engine with current := none } }) next hid
  | some j => rfl

theorem run_afterStop (leave : Bool) (hid : id < s.engine.runs.size) :
    (s.afterStop leave).engine.run id = s.engine.run id := by
  cases leave with
  | true => exact run_await none hid
  | false => rfl

theorem run_requestStop (leave : Bool) (hid : id < s.engine.runs.size) :
    (s.requestStop leave).engine.run id = s.engine.run id := by
  unfold requestStop
  split
  · split
    · rfl
    · exact run_afterStop leave hid
  · exact run_afterStop leave hid

theorem take_runs (h : s.take = some s') : s'.engine.runs = s.engine.runs := by
  unfold take at h
  dsimp only at h
  split at h
  · obtain ⟨_, _, rfl⟩ := Option.map_eq_some_iff.mp h
    rfl
  · split at h
    · cases h
      rfl
    · split at h <;> cases h <;> rfl
  · cases h
    rfl
  · cases h
    rfl
  · cases h
    rfl

theorem goOn_meddles (hid : id < s.engine.runs.size) (h : s.goOn = some s') :
    Meddles (s.engine.run id) (s'.engine.run id) := by
  unfold goOn at h
  split at h
  · cases h
  · cases h
    exact run_modified hid .cancel
  · rename_i j leave _
    cases h
    have hid' : id < (s.engine.showRequest j).runs.size := by
      rwa [Engine.showRequest, Engine.modifyRun, Array.size_modify]
    rw [run_afterStop (s := { s with engine := s.engine.showRequest j }) leave hid']
    exact run_modified hid .showRequest
  · split at h
    · cases h
    · cases h
      exact .of_eq (run_proceed _ hid)
  · cases h
    exact run_modified hid .cancel
  · cases h
    exact .refl _

/-- What somebody else does to a run. -/
theorem act_meddles (hid : id < s.engine.runs.size) {a : Actor} (ha : a ≠ .worker id) :
    Meddles (s.engine.run id) ((s.act I a).engine.run id) := by
  cases a with
  | worker j =>
    cases here : s.engine.runs[j]? with
    | none =>
      have same : s.act I (.worker j) = s := by simp [act, Engine.step, here]
      rw [same]
      exact .refl _
    | some r =>
      have runs : (s.act I (.worker j)).engine.runs = s.engine.runs.setIfInBounds j
          (workerStep I j ⟨r, s.engine.queue, s.engine.world⟩).run := by
        simp [act, Engine.step, here]
      rw [run_set (Array.getElem?_eq_some_iff.mp here).1 runs, if_neg fun h => ha (by rw [h])]
      exact .refl _
  | patience j => exact run_modified hid .expire
  | pump j g =>
    cases here : s.engine.runs[j]? with
    | none =>
      have same : s.act I (.pump j g) = s := by simp [act, Engine.step, here]
      rw [same]
      exact .refl _
    | some r =>
      have runs : (s.act I (.pump j g)).engine.runs = s.engine.runs.setIfInBounds j
          (r.pumpStep g j s.engine.queue).1 := by
        simp [act, Engine.step, here]
      rw [run_set (Array.getElem?_eq_some_iff.mp here).1 runs]
      split
      · rename_i h
        rw [h, run_of_some here]
        exact .pumpStep g j r _
      · exact .refl _
  | fault j => exact run_modified hid .failRead

theorem act_shared (hid : id < s.engine.runs.size) :
    (s.act I (.worker id)).shared id = workerStep I id (s.shared id) := by
  simp [shared, act, Engine.step, Engine.run, hid]

/-- A step of the system is one of the worker, or others meddle. -/
theorem step_shared (hid : id < s.engine.runs.size) (h : s.step I l = some s') :
    l = .other (.worker id) ∧ s'.shared id = workerStep I id (s.shared id) ∨
      Meddles (s.engine.run id) (s'.engine.run id) := by
  cases l with
  | setScript source | setSearchDirs dirs =>
    simp only [step, Option.ite_none_right_eq_some, Option.some.injEq] at h
    obtain ⟨_, rfl⟩ := h
    refine .inr (.of_eq ?_)
    simp only [Engine.setScript, Engine.setSearchDirs]
    split <;> rfl
  | start launch =>
    simp only [step, Option.ite_none_right_eq_some, Option.some.injEq] at h
    obtain ⟨_, rfl⟩ := h
    refine .inr (.of_eq ?_)
    split
    · rfl
    · exact run_await _ hid
  | stop | shutdown =>
    simp only [step, Option.ite_none_right_eq_some, Option.some.injEq] at h
    obtain ⟨_, rfl⟩ := h
    exact .inr (.of_eq (run_requestStop _ hid))
  | goOn =>
    simp only [step, Option.ite_none_right_eq_some] at h
    exact .inr (goOn_meddles hid h.2)
  | giveUp =>
    simp only [step] at h
    split at h
    · simp only [Option.ite_none_right_eq_some, Option.some.injEq] at h
      obtain ⟨_, rfl⟩ := h
      exact .inr (.refl _)
    · cases h
  | take =>
    simp only [step] at h
    split at h
    · exact .inr (.of_eq (run_eq (take_runs h) id))
    · exact .inr (.of_eq (run_eq (take_runs h) id))
    · cases h
  | other a =>
    cases h
    by_cases ha : a = .worker id
    · subst ha
      exact .inl ⟨rfl, act_shared hid⟩
    · exact .inr (act_meddles hid ha)
  | dropPump j =>
    simp only [step, Option.ite_none_right_eq_some, Option.some.injEq] at h
    obtain ⟨_, rfl⟩ := h
    exact .inr (run_modified hid .abortPump)
  | outside w =>
    cases h
    exact .inr (.refl _)

/-- **The system runs its workers.** Whatever happens behind a state is a course of each worker there
is. -/
theorem Reached.course {ls : List (Label ω)}
    (h : Reached I (fun _ => True) (initial settings world) s) (hid : id < s.engine.runs.size)
    (run : exec I s ls = some s') : ∃ ds, Course I id (s.shared id) ds (s'.shared id) := by
  refine (exec_induction (P := fun _ t => id < t.engine.runs.size ∧
    ∃ ds, Course I id (s.shared id) ds (t.shared id)) ⟨hid, [], .start⟩ ?_ run).2
  intro ls t l t' ht ⟨hid', ds, course⟩ step
  have reached := h.of_exec ht
  have size := (reached.ruled.conduct step).size_le reached.sound
  refine ⟨Nat.lt_of_lt_of_le hid' size, ?_⟩
  rcases step_shared hid' step with ⟨_, own⟩ | meddled
  · exact ⟨_, own ▸ course.act⟩
  · exact ⟨ds, course.meddle meddled⟩

end Ensemble
end ScriptHost
