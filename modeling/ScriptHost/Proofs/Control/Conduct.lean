import ScriptHost.Proofs.Ensemble.Sound

/-!
# What the controller does, and what it shares with a worker

The controller and the worker of a run share the run's token and its phase, and
each writes them in its own way. `Run.Turn` lists what a worker makes of them,
`Ensemble.Conduct` what a step of the system is to the controller: the call it
is in, the worker it holds, whose phase is shown, and how many were disowned.

* `workerStep_turn`: the running function makes no other turns.
* `conduct_cases`: nor does a step do anything else.
-/
namespace ScriptHost

variable {ω σ : Type}

/-! ## Notes of disowned runs -/

/-- The run that was disowned, if a note tells of one. -/
def Note.parting? : Note → Option Nat
  | .abandoned r => some r
  | _ => none

/-- The runs that were disowned. -/
def Note.partings (ns : List Note) : List Nat := ns.filterMap Note.parting?

@[simp] theorem Note.partings_append (xs ys : List Note) :
    Note.partings (xs ++ ys) = Note.partings xs ++ Note.partings ys := List.filterMap_append

theorem Note.mem_partings {ns : List Note} {id : Nat} :
    id ∈ Note.partings ns ↔ .abandoned id ∈ ns := by
  constructor
  · intro h
    obtain ⟨n, hn, he⟩ := List.mem_filterMap.mp h
    cases n <;> cases he
    exact hn
  · intro h
    exact List.mem_filterMap.mpr ⟨_, h, rfl⟩

/-! ## The worker -/

/-- The phase to which a worker brings its run by itself. -/
def Stage.phase : Stage σ → Phase
  | .created | .announced => .starting
  | .absent | .leaving _ | .ending | .gone => .stopped
  | _ => .running

/-- Whether the script was stopped at a line, once it has ended and until that is told. -/
def Stage.verdict? : Stage σ → Option Bool
  | .reporting _ _ => some false
  | .finalizing _ o | .closing o | .draining o | .stopping o | .leaving o => some (o = .cancelled)
  | _ => none

theorem Stage.phase_of_ended {x : Stage σ} (h : x.isAlive = false) : x.phase = .stopped := by
  cases x <;> first | rfl | cases h

theorem Stage.isMute_of_ended {x : Stage σ} (h : x.isAlive = false) : x.isMute = true := by
  cases x <;> first | rfl | cases h

/-- A worker passes from one stage to the other and writes nothing that the controller reads. -/
structure Stage.Passes (x y : Stage σ) : Prop where
  phase : y.phase = x.phase
  verdict : ∀ b, y.verdict? = some b → x.verdict? = some b
  alive : y.isAlive = true → x.isAlive = true
  mute : x.isMute = true → y.isMute = true

theorem Stage.Passes.refl (x : Stage σ) : x.Passes x := ⟨rfl, fun _ h => h, fun h => h, fun h => h⟩

/-- A live worker passes to a stage in which nothing is to be told of its end. -/
theorem Stage.Passes.of_alive {x y : Stage σ} (phase : y.phase = x.phase)
    (verdict : y.verdict? = none) (alive : x.isAlive = true)
    (mute : x.isMute = true → y.isMute = true) : x.Passes y := by
  refine ⟨phase, fun b hb => ?_, fun _ => alive, mute⟩
  rw [verdict] at hb
  cases hb

/-- What a step of its worker or its pump makes of a run. -/
inductive Run.Turn (I : Interpreter ω σ) : Run σ → Run σ → Prop where
  | pass {r r' : Run σ} (stage : r.stage.Passes r'.stage) (phase : r'.phase = r.phase)
    (token : r'.token = r.token) (tripped : r'.tripped = r.tripped) : Turn I r r'
  | begin {r : Run σ} (x : σ) (h : r.stage = .announced) :
    Turn I r { r with stage := .executing x, phase := r.phase.begin }
  | test {r : Run σ} (x : σ) (h : r.stage = .testing x) :
    Turn I r
      { r with stage := .executing (I.answerLine x r.token), tripped := r.tripped || r.token }
  | conclude {r : Run σ} (x : σ) (failure : Option String) (h : r.stage = .executing x) :
    Turn I r { r with stage := Run.afterScript I x r.tripped failure }
  | halt {r : Run σ} (o : Outcome) (h : r.stage = .stopping o) :
    Turn I r { r with phase := .stopped, stage := .leaving o }

namespace Run.Turn

variable {I : Interpreter ω σ} {r r' : Run σ}

/-- The stage alone changes, if anything does. -/
theorem move {stage : Stage σ} {channel : Channel} {pump : Pump} {drained : Drained}
    (h : r.stage.Passes stage) : Turn I r { r with stage, channel, pump, drained } :=
  .pass h rfl rfl rfl

theorem refl (r : Run σ) : Turn I r r := .pass (.refl _) rfl rfl rfl

/-- Workers and pumps do not write the token. -/
theorem token_eq (h : Turn I r r') : r'.token = r.token := by
  cases h with
  | pass _ _ token _ => exact token
  | _ => rfl

theorem isAlive_of (h : Turn I r r') (ha : r'.stage.isAlive = true) : r.stage.isAlive = true := by
  cases h with
  | pass stage _ _ _ => exact stage.alive ha
  | begin x h | test x h | conclude x _ h | halt o h => rw [h]; rfl

theorem isMute_of (h : Turn I r r') (hm : r.stage.isMute = true) : r'.stage.isMute = true := by
  cases h with
  | pass stage _ _ _ => exact stage.mute hm
  | begin x h | test x h | conclude x _ h | halt o h => rw [h] at hm; cases hm

end Run.Turn

open Run in
theorem execute_turn (I : Interpreter ω σ) {r : Run σ} {x : σ} (id : Nat) (q : Queue) (w : ω)
    (hx : r.stage = .executing x) :
    Run.Turn I r (execute I id x ⟨{ r with stage := .absent }, q, w⟩).run := by
  have move {stage : Stage σ} {channel : Channel} (h : Stage.Passes (.executing x) stage) :
      Run.Turn I r { r with stage, channel } := .move (hx ▸ h)
  have working (y : σ) : Stage.Passes (.executing x) (.executing y) := .of_alive rfl rfl rfl nofun
  unfold execute
  cases hs : I.signal x with
  | working | waiting => exact move (working _)
  | line n =>
    dsimp only
    split
    · exact move (.of_alive rfl rfl rfl nofun)
    · exact move (.of_alive rfl rfl rfl nofun)
  | write bytes =>
    dsimp only
    split <;> exact move (working _)
  | ended failure => exact .conclude x failure hx

open Run in
theorem finalize_turn (I : Interpreter ω σ) {r : Run σ} {x : σ} {o : Outcome} (q : Queue) (w : ω)
    (hx : r.stage = .finalizing x o) :
    Run.Turn I r (finalize I x o ⟨{ r with stage := .absent }, q, w⟩).run := by
  have move {stage : Stage σ} {channel : Channel} (h : Stage.Passes (.finalizing x o) stage) :
      Run.Turn I r { r with stage, channel } := .move (hx ▸ h)
  have working (y : σ) : Stage.Passes (.finalizing x o) (.finalizing y o) :=
    ⟨rfl, fun _ h => h, fun _ => rfl, nofun⟩
  unfold finalize
  cases I.signal x with
  | working | waiting | line => exact move (working _)
  | write bytes =>
    dsimp only
    split <;> exact move (working _)
  | ended => exact move ⟨rfl, fun _ h => h, fun _ => rfl, nofun⟩

open Run in
/-- A worker takes no other turns. -/
theorem workerStep_turn (I : Interpreter ω σ) (id : Nat) (r : Run σ) (q : Queue) (w : ω) :
    Run.Turn I r (workerStep I id ⟨r, q, w⟩).run := by
  have move {x stage : Stage σ} {channel : Channel} (hx : r.stage = x) (h : x.Passes stage) :
      Run.Turn I r { r with stage, channel } := .move (hx ▸ h)
  cases hx : r.stage <;> simp only [workerStep, hx, Queue.markQueued]
  case executing x => exact execute_turn I id q w hx
  case finalizing x o => exact finalize_turn I q w hx
  case announced => exact .begin _ hx
  case testing x => exact .test x hx
  case stopping o => exact .halt o hx
  case absent | gone => exact move hx (.refl _)
  case created | lineMarked => exact move hx (.of_alive rfl rfl rfl (by simp [Stage.isMute]))
  case lineStored x =>
    have marked (queued : Bool) :
        Stage.Passes (.lineStored x) (if queued then .testing x else .lineMarked x) := by
      cases queued <;> exact .of_alive rfl rfl rfl (by simp [Stage.isMute])
    exact move hx (marked _)
  case reporting | closing => exact move hx ⟨rfl, fun _ h => h, fun _ => rfl, by simp [Stage.isMute]⟩
  case draining o =>
    refine move hx ?_
    split
    · exact .refl _
    · exact ⟨rfl, fun _ h => h, fun _ => rfl, by simp [Stage.isMute]⟩
  case leaving => exact move hx (.of_alive rfl rfl rfl (by simp [Stage.isMute]))
  case ending => exact move hx (.of_alive rfl rfl rfl fun _ => rfl)

theorem pumpStep_turn (I : Interpreter ω σ) (g : Grant) (id : Nat) (r : Run σ) (q : Queue) :
    Run.Turn I r (r.pumpStep g id q).1 := by
  unfold Run.pumpStep
  split
  · split <;> exact .move (.refl _)
  · exact .move (.refl _)
  · exact .move (.refl _)
  · exact .refl r

theorem expire_turn (I : Interpreter ω σ) (r : Run σ) : Run.Turn I r r.expire := by
  unfold Run.expire
  split
  · rename_i o h
    exact .move (h ▸ ⟨rfl, fun _ h => h, fun _ => rfl, nofun⟩)
  · exact .refl r

theorem failRead_turn (I : Interpreter ω σ) (r : Run σ) : Run.Turn I r r.failRead := by
  unfold Run.failRead
  split
  · exact .move (.refl _)
  · exact .refl r

theorem abortPump_turn (I : Interpreter ω σ) (r : Run σ) : Run.Turn I r r.abortPump := by
  unfold Run.abortPump
  split
  · exact .refl r
  · exact .move (.refl _)

/-! ## The controller -/

namespace Ensemble

/-- A launch is due: the controller calls for it and holds no worker, or has waited for the worker
it held. -/
def Due (s : Ensemble ω σ) (l : Label ω) (launch : Launch) : Prop :=
  (l = .start launch ∧ s.call = .idle ∧ s.engine.current = none) ∨
    ∃ id, l = .goOn ∧ s.call = .waiting id (some launch) ∧ s.engine.isAlive id = false

/-- What a step is to the controller. -/
inductive Conduct (I : Interpreter ω σ) (s : Ensemble ω σ) (l : Label ω) : Ensemble ω σ → Prop where
  /-- The world or the receiver goes on, or a call ends at once and changes no run. -/
  | aside {s' : Ensemble ω σ} (hl : l ≠ .goOn) (runs : s'.engine.runs = s.engine.runs)
    (call : s'.call = s.call) (current : s'.engine.current = s.engine.current)
    (shown : s'.engine.shown = s.engine.shown) (leaked : s'.engine.leaked = s.engine.leaked)
    (partings : Note.partings s'.log = Note.partings s.log) : Conduct I s l s'
  /-- A worker or a pump goes on. -/
  | work {s' : Ensemble ω σ} (id : Nat) (r r' : Run σ) (hl : l ≠ .goOn)
    (here : s.engine.runs[id]? = some r) (turn : Run.Turn I r r')
    (runs : s'.engine.runs = s.engine.runs.setIfInBounds id r') (call : s'.call = s.call)
    (current : s'.engine.current = s.engine.current) (shown : s'.engine.shown = s.engine.shown)
    (leaked : s'.engine.leaked = s.engine.leaked)
    (partings : Note.partings s'.log = Note.partings s.log) : Conduct I s l s'
  | request (id : Nat) (leave : Bool) (hl : l = if leave then .shutdown else .stop)
    (free : s.call = .idle) (current : s.engine.current = some id)
    (running : s.engine.isRunning = true) : Conduct I s l { s with call := .cancelling id leave }
  | cancel (id : Nat) (leave : Bool) (hl : l = .goOn) (call : s.call = .cancelling id leave) :
    Conduct I s l { s with engine := s.engine.cancel id, call := .marking id leave }
  | mark (id : Nat) (hl : l = .goOn) (call : s.call = .marking id false) :
    Conduct I s l { s with engine := s.engine.showRequest id, call := .idle }
  | leave (id : Nat) (hl : l = .goOn) (call : s.call = .marking id true) :
    Conduct I s l
      { s with engine := { s.engine.showRequest id with current := none }, call := .waiting id none }
  | await (id : Nat) (next : Option Launch) (hl : l ≠ .goOn) (free : s.call = .idle)
    (current : s.engine.current = some id) :
    Conduct I s l { s with engine := { s.engine with current := none }, call := .waiting id next }
  | settle (id : Nat) (hl : l = .goOn) (call : s.call = .waiting id none)
    (ended : s.engine.isAlive id = false) : Conduct I s l { s with call := .idle }
  | launch (launch : Launch) (due : s.Due l launch) : Conduct I s l (s.launch launch)
  | giveUp (id : Nat) (next : Option Launch) (hl : l = .giveUp) (call : s.call = .waiting id next) :
    Conduct I s l { s with call := .abandoning id }
  | forsake (id : Nat) (hl : l = .goOn) (call : s.call = .abandoning id) :
    Conduct I s l { s with engine := s.engine.cancel id, call := .silencing id }
  | silence (id : Nat) (hl : l = .goOn) (call : s.call = .silencing id) :
    Conduct I s l
      { s with engine := s.engine.silence id, call := .idle, log := s.log ++ [.abandoned id] }

variable {I : Interpreter ω σ} {s s' : Ensemble ω σ} {l : Label ω} {id : Nat}

/-- A step that changes no more of the engine than its payload, its queue and its world. -/
theorem conduct_aside (hl : l ≠ .goOn) (runs : s'.engine.runs = s.engine.runs)
    (call : s'.call = s.call) (current : s'.engine.current = s.engine.current)
    (shown : s'.engine.shown = s.engine.shown) (leaked : s'.engine.leaked = s.engine.leaked)
    (log : s'.log = s.log) : Conduct I s l s' :=
  .aside hl runs call current shown leaked (by rw [log])

theorem conduct_await (next : Option Launch) (hl : l ≠ .goOn) (free : s.call = .idle)
    (launches : ∀ launch, next = some launch → l = .start launch) :
    Conduct I s l (s.await next) := by
  unfold await Engine.takeWorker
  cases hc : s.engine.current with
  | some id => exact .await id next hl free hc
  | none =>
    have same : { s with engine := { s.engine with current := none } } = s := by rw [← hc]
    simp only [same]
    cases next with
    | some launch => exact .launch launch (.inl ⟨launches launch rfl, free, hc⟩)
    | none => exact conduct_aside hl rfl free.symm rfl rfl rfl rfl

theorem conduct_requestStop (leave : Bool) (hl : l = if leave then .shutdown else .stop)
    (free : s.call = .idle) : Conduct I s l (s.requestStop leave) := by
  have ne : l ≠ .goOn := by rw [hl]; cases leave <;> nofun
  have ends : Conduct I s l (s.afterStop leave) := by
    cases leave with
    | true => exact conduct_await none ne free nofun
    | false => exact conduct_aside ne rfl free.symm rfl rfl rfl rfl
  unfold requestStop
  split
  · rename_i id hc
    split
    · rename_i running
      exact .request id leave hl free hc running
    · exact ends
  · exact ends

theorem conduct_goOn (aims : ∀ id leave, s.call = .marking id leave → s.engine.current = some id)
    (h : s.goOn = some s') : Conduct I s .goOn s' := by
  unfold goOn at h
  split at h
  · cases h
  · rename_i id leave hc
    cases h
    exact .cancel id leave rfl hc
  · rename_i id leave hc
    have current : (s.engine.showRequest id).current = some id := aims id leave hc
    cases h
    cases leave with
    | false => exact .mark id rfl hc
    | true =>
      simp only [afterStop, await, Engine.takeWorker, if_true, current]
      exact .leave id rfl hc
  · rename_i id next hc
    split at h
    · cases h
    · rename_i ended
      cases h
      have ended : s.engine.isAlive id = false := by simpa using ended
      cases next with
      | some launch => exact .launch launch (.inr ⟨id, rfl, hc, ended⟩)
      | none => exact .settle id rfl hc ended
  · rename_i id hc
    cases h
    exact .forsake id rfl hc
  · rename_i id hc
    cases h
    exact .silence id rfl hc

/-- What the receiver tells is told of no disowned run. -/
theorem conduct_take (h : s.take = some s') : Conduct I s .take s' := by
  have told (run : Nat) (x : Option Event) :
      Note.partings (s.log ++ (x.map (Note.delivered run)).toList) = Note.partings s.log := by
    cases x <;> simp [Note.partings, Note.parting?]
  have deliver (run : Nat) (x : Option Event × Queue) : Conduct I s .take (s.deliver run x) :=
    .aside nofun rfl rfl rfl rfl rfl (told run x.1)
  unfold take at h
  dsimp only at h
  split at h
  · obtain ⟨_, _, rfl⟩ := Option.map_eq_some_iff.mp h
    exact conduct_aside nofun rfl rfl rfl rfl rfl rfl
  · split at h
    · cases h
      exact deliver _ _
    · split at h
      · cases h
        exact deliver _ _
      · cases h
        exact conduct_aside nofun rfl rfl rfl rfl rfl rfl
  · cases h
    exact conduct_aside nofun rfl rfl rfl rfl rfl rfl
  · cases h
    exact conduct_aside nofun rfl rfl rfl rfl rfl rfl
  · cases h
    exact deliver _ _

theorem partings_notesOf (id : Nat) (r : Run σ) : Note.partings (notesOf I id r) = [] := by
  unfold notesOf
  split
  · split
    · split <;> rfl
    · rfl
    · rfl
  · rfl
  · split <;> rfl
  · rfl

/-- The run that a step changes by `f`, if there is one. -/
theorem conduct_modify {f : Run σ → Run σ} (turn : ∀ r, Run.Turn I r (f r)) (hl : l ≠ .goOn)
    (runs : s'.engine.runs = s.engine.runs.modify id f) (call : s'.call = s.call)
    (current : s'.engine.current = s.engine.current) (shown : s'.engine.shown = s.engine.shown)
    (leaked : s'.engine.leaked = s.engine.leaked) (log : s'.log = s.log) : Conduct I s l s' := by
  cases h : s.engine.runs[id]? with
  | none => exact conduct_aside hl (runs.trans (modify_of_none f h)) call current shown leaked log
  | some r =>
    exact .work id r (f r) hl h (turn r) (runs.trans (modify_of_some f h)) call current shown leaked
      (by rw [log])

theorem conduct_act (a : Actor) : Conduct I s (.other a) (s.act I a) := by
  have ne : Label.other a ≠ (.goOn : Label ω) := nofun
  cases a with
  | worker id =>
    cases h : s.engine.runs[id]? with
    | none =>
      have same : s.act I (.worker id) = s := by simp [act, Engine.step, h]
      rw [same]
      exact conduct_aside ne rfl rfl rfl rfl rfl rfl
    | some r =>
      refine .work id r _ ne h (workerStep_turn I id r s.engine.queue s.engine.world) ?_ ?_ ?_ ?_
        ?_ ?_ <;> simp [act, Engine.step, h, partings_notesOf]
  | pump id g =>
    cases h : s.engine.runs[id]? with
    | none =>
      have same : s.act I (.pump id g) = s := by simp [act, Engine.step, h]
      rw [same]
      exact conduct_aside ne rfl rfl rfl rfl rfl rfl
    | some r =>
      refine .work id r _ ne h (pumpStep_turn I g id r s.engine.queue) ?_ ?_ ?_ ?_ ?_ ?_ <;>
        simp [act, Engine.step, h]
  | patience id =>
    exact conduct_modify (expire_turn I) ne rfl rfl rfl rfl rfl (by simp [act])
  | fault id =>
    exact conduct_modify (failRead_turn I) ne rfl rfl rfl rfl rfl (by simp [act])

/-- A step is nothing else to the controller. -/
theorem conduct_cases (aims : ∀ id leave, s.call = .marking id leave → s.engine.current = some id)
    (h : s.step I l = some s') : Conduct I s l s' := by
  have free (hf : s.isFree = true) : s.call = .idle := (isFree_iff.mp hf).1
  by_cases hl : l = .goOn
  · subst hl
    simp only [step, Option.ite_none_right_eq_some] at h
    exact conduct_goOn aims h.2
  cases l with
  | setScript source =>
    simp only [step, Option.ite_none_right_eq_some, Option.some.injEq] at h
    obtain ⟨_, rfl⟩ := h
    unfold Engine.setScript
    split <;> exact conduct_aside hl rfl rfl rfl rfl rfl rfl
  | setSearchDirs dirs =>
    simp only [step, Option.ite_none_right_eq_some, Option.some.injEq] at h
    obtain ⟨_, rfl⟩ := h
    unfold Engine.setSearchDirs
    split <;> exact conduct_aside hl rfl rfl rfl rfl rfl rfl
  | start launch =>
    simp only [step, Option.ite_none_right_eq_some, Option.some.injEq] at h
    obtain ⟨hf, rfl⟩ := h
    split
    · exact conduct_aside hl rfl rfl rfl rfl rfl rfl
    · exact conduct_await (some launch) hl (free hf) (by rintro _ ⟨⟩; rfl)
  | stop =>
    simp only [step, Option.ite_none_right_eq_some, Option.some.injEq] at h
    obtain ⟨hf, rfl⟩ := h
    exact conduct_requestStop false rfl (free hf)
  | shutdown =>
    simp only [step, Option.ite_none_right_eq_some, Option.some.injEq] at h
    obtain ⟨hf, rfl⟩ := h
    exact conduct_requestStop true rfl (free hf)
  | goOn => exact absurd rfl hl
  | giveUp =>
    simp only [step] at h
    split at h
    · rename_i id next hc
      simp only [Option.ite_none_right_eq_some, Option.some.injEq] at h
      obtain ⟨_, rfl⟩ := h
      exact .giveUp id next rfl hc
    · cases h
  | take =>
    simp only [step] at h
    split at h
    · exact conduct_take h
    · exact conduct_take h
    · cases h
  | other a =>
    cases h
    exact conduct_act a
  | dropPump id =>
    simp only [step, Option.ite_none_right_eq_some, Option.some.injEq] at h
    obtain ⟨_, rfl⟩ := h
    exact conduct_modify (abortPump_turn I) hl rfl rfl rfl rfl rfl rfl
  | outside w =>
    cases h
    exact conduct_aside hl rfl rfl rfl rfl rfl rfl

end Ensemble
end ScriptHost
