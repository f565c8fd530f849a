import ScriptHost.Proofs.Control.Treatment

/-!
# What the controller and the workers hold to

* `Run.Steady`: the phase of a run is what its worker has made of it, or a
  requested stop; the token is set behind every requested stop and behind every
  trip; and the script's end is judged by the trip.
* `Ruled`: the controller turns only to the run it holds, holds no run that was
  disowned, shows the run launched last, and counts the runs it disowned.
* `Reached.steady`, `Reached.ruled`: every run of the system keeps both.
-/
namespace ScriptHost

variable {ω σ : Type}

/-! ## One run -/

/-- What holds of a run between its worker and the controller. `marking` says that the controller is
about to change its phase, `parted` that it was given up or is just being so. -/
structure Run.Steady (r : Run σ) (marking parted : Prop) : Prop where
  phase : r.phase = r.stage.phase ∨
    r.phase = .stopRequested ∧ r.token = true ∧ r.stage.phase ≠ .stopped
  token : r.token = true → r.phase = .stopRequested ∨ r.phase = .stopped ∨ marking ∨ parted
  marking : marking → r.token = true
  tripped : r.tripped = true → r.token = true
  verdict : ∀ b, r.stage.verdict? = some b → b = r.tripped

namespace Run.Steady

variable {I : Interpreter ω σ} {r r' : Run σ} {marking parted marking' parted' : Prop}

theorem of_gives {launch : Launch} (gives : launch.Gives r) (h : ¬ marking) :
    r.Steady marking parted := by
  cases gives with
  | works p c => exact ⟨.inl rfl, nofun, fun hm => absurd hm h, nofun, nofun⟩
  | fails ho p c => exact ⟨.inl rfl, nofun, fun hm => absurd hm h, nofun, nofun⟩

theorem mono (h : r.Steady marking parted) (hm : marking ↔ marking') (hp : parted → parted') :
    r.Steady marking' parted' := by
  refine ⟨h.phase, fun ht => ?_, fun hm' => h.marking (hm.mpr hm'), h.tripped, h.verdict⟩
  rcases h.token ht with h1 | h1 | h1 | h1
  · exact .inl h1
  · exact .inr (.inl h1)
  · exact .inr (.inr (.inl (hm.mp h1)))
  · exact .inr (.inr (.inr (hp h1)))

theorem stopped_of_ended (h : r.Steady marking parted) (ended : r.stage.isAlive = false) :
    r.phase = .stopped := by
  have hs := Stage.phase_of_ended ended
  rcases h.phase with hp | ⟨_, _, hp⟩
  · rw [hp, hs]
  · exact absurd hs hp

/-- A run is never idle, and a requested stop has set the token. -/
theorem phase_cases (h : r.Steady marking parted) :
    r.phase = .starting ∨ r.phase = .running ∨ r.phase = .stopRequested ∧ r.token = true ∨
      r.phase = .stopped := by
  rcases h.phase with hp | ⟨hp, ht, _⟩
  · rw [hp]
    cases r.stage <;> simp [Stage.phase]
  · exact .inr (.inr (.inl ⟨hp, ht⟩))

theorem ne_idle (h : r.Steady marking parted) : r.phase ≠ .idle := by
  rcases h.phase_cases with p | p | ⟨p, _⟩ | p <;> rw [p] <;> nofun

theorem token_of_requested (h : r.Steady marking parted) (requested : r.phase = .stopRequested) :
    r.token = true := by
  rcases h.phase_cases with p | p | ⟨_, token⟩ | p
  case inr.inr.inl => exact token
  all_goals
    rw [p] at requested
    cases requested

/-- The worker begins: its phase moves on, unless a stop was requested before. -/
theorem begin (h : r.Steady marking parted) (x : σ) (hx : r.stage = .announced) :
    ({ r with stage := .executing x, phase := r.phase.begin } : Run σ).Steady marking parted := by
  rcases h.phase with hp | ⟨hp, ht, _⟩
  · have hp : r.phase = .starting := by rw [hp, hx]; rfl
    have begun : r.phase.begin = .running := by rw [hp]; rfl
    refine ⟨.inl begun, fun ht => ?_, h.marking, h.tripped, nofun⟩
    have hm := h.token ht
    rw [hp] at hm
    exact .inr (.inr (by simpa using hm))
  · have kept : r.phase.begin = .stopRequested := by rw [hp]; rfl
    exact ⟨.inr ⟨kept, ht, nofun⟩, fun _ => .inl kept, h.marking, h.tripped, nofun⟩

theorem test (h : r.Steady marking parted) (x y : σ) (hx : r.stage = .testing x) :
    ({ r with stage := .executing y, tripped := r.tripped || r.token } : Run σ).Steady
      marking parted := by
  refine ⟨?_, h.token, h.marking, fun ht => ?_, nofun⟩
  · have hp := h.phase
    rwa [hx] at hp
  · rcases (Bool.or_eq_true _ _).mp ht with ht | ht
    · exact h.tripped ht
    · exact ht

theorem conclude (h : r.Steady marking parted) (x : σ) (failure : Option String)
    (hx : r.stage = .executing x) :
    ({ r with stage := Run.afterScript I x r.tripped failure } : Run σ).Steady marking parted := by
  have judged : (Run.afterScript I x r.tripped failure).phase = .running ∧
      ∀ b, (Run.afterScript I x r.tripped failure).verdict? = some b → b = r.tripped := by
    unfold Run.afterScript
    cases r.tripped with
    | true => exact ⟨rfl, by rintro b ⟨⟩; rfl⟩
    | false => cases failure <;> exact ⟨rfl, by rintro b ⟨⟩; rfl⟩
  refine ⟨?_, h.token, h.marking, h.tripped, judged.2⟩
  have hp := h.phase
  rw [hx] at hp
  simp only [judged.1]
  exact hp

theorem turn (h : r.Steady marking parted) (turn : Run.Turn I r r') : r'.Steady marking parted := by
  cases turn with
  | pass stage phase token tripped =>
    refine ⟨?_, ?_, ?_, ?_, fun b hb => ?_⟩
    · rw [phase, token, stage.phase]
      exact h.phase
    · rw [phase, token]
      exact h.token
    · rw [token]
      exact h.marking
    · rw [tripped, token]
      exact h.tripped
    · rw [tripped]
      exact h.verdict b (stage.verdict b hb)
  | begin x hx => exact h.begin x hx
  | test x hx => exact h.test x _ hx
  | conclude x failure hx => exact h.conclude x failure hx
  | halt o ho =>
    refine ⟨.inl rfl, fun _ => .inr (.inl rfl), h.marking, h.tripped, fun b hb => ?_⟩
    exact h.verdict b (by rw [ho]; exact hb)

theorem cancel (h : r.Steady marking parted) (hm : marking' ∨ parted') :
    ({ r with token := true } : Run σ).Steady marking' parted' := by
  refine ⟨?_, fun _ => .inr (.inr hm), fun _ => rfl, fun _ => rfl, h.verdict⟩
  rcases h.phase with hp | ⟨hp, _, hs⟩
  · exact .inl hp
  · exact .inr ⟨hp, rfl, hs⟩

theorem showRequest (h : r.Steady marking parted) (hm : marking) (hm' : ¬ marking') :
    ({ r with phase := r.phase.requestStop } : Run σ).Steady marking' parted := by
  have token := h.marking hm
  have after : r.phase.requestStop = .stopRequested ∧ r.stage.phase ≠ .stopped ∨
      r.phase.requestStop = .stopped ∧ r.stage.phase = .stopped := by
    rcases h.phase with hp | ⟨hp, _, hs⟩
    · rw [hp]
      cases r.stage <;> simp [Stage.phase, Phase.requestStop, Phase.transition]
    · rw [hp]
      exact .inl ⟨rfl, hs⟩
  refine ⟨?_, fun _ => ?_, fun h => absurd h hm', h.tripped, h.verdict⟩
  · rcases after with ⟨hp, hs⟩ | ⟨hp, hs⟩
    · exact .inr ⟨hp, token, hs⟩
    · exact .inl (hp.trans hs.symm)
  · rcases after with ⟨hp, _⟩ | ⟨hp, _⟩
    · exact .inl hp
    · exact .inr (.inl hp)

end Run.Steady

namespace Ensemble

variable {I : Interpreter ω σ} {s s' : Ensemble ω σ} {l : Label ω} {id : Nat}
  {ok : Label ω → Prop} {settings : Settings} {world : ω}

/-! ## The controller -/

/-- What the controller holds to. -/
structure Ruled (s : Ensemble ω σ) : Prop where
  /-- A stop is requested of the run it holds. -/
  aims : ∀ id leave, s.call = .cancelling id leave ∨ s.call = .marking id leave →
    s.engine.current = some id
  kept : ∀ id, s.holder = some id → id ∉ Note.partings s.log
  shows : ∀ id, s.holder = some id → s.engine.shown = .run id
  nothing : s.engine.shown = .nothing ↔ s.engine.runs.size = 0
  /-- A run is shown that was launched last; it is held, or over. -/
  shown : ∀ id, s.engine.shown = .run id → id + 1 = s.engine.runs.size ∧
    id ∉ Note.partings s.log ∧ (s.holder = some id ∨ s.engine.isAlive id = false)
  leaked : s.engine.leaked = (Note.partings s.log).length
  nodup : (Note.partings s.log).Nodup

theorem ruled_initial (settings : Settings) (world : ω) :
    (initial settings world : Ensemble ω σ).Ruled := by
  constructor <;> simp [initial, holder, Call.held?, Note.partings]

/-- The controller holds whom it held and shows whom it showed. -/
theorem Ruled.of_holder (h : s.Ruled) (holder : s'.holder = s.holder)
    (aims : ∀ id leave, s'.call = .cancelling id leave ∨ s'.call = .marking id leave →
      s'.engine.current = some id)
    (shown : s'.engine.shown = s.engine.shown) (leaked : s'.engine.leaked = s.engine.leaked)
    (partings : Note.partings s'.log = Note.partings s.log)
    (size : s'.engine.runs.size = s.engine.runs.size)
    (alive : ∀ id, s'.engine.isAlive id = true → s.engine.isAlive id = true) : s'.Ruled := by
  refine ⟨aims, ?_, ?_, ?_, fun id hid => ?_, ?_, ?_⟩
  · rw [holder, partings]
    exact h.kept
  · rw [holder, shown]
    exact h.shows
  · rw [shown, size]
    exact h.nothing
  · rw [shown] at hid
    obtain ⟨last, kept, settled⟩ := h.shown id hid
    refine ⟨by rw [size, last], by rwa [partings], ?_⟩
    rcases settled with settled | settled
    · exact .inl (holder.trans settled)
    · refine .inr (Bool.eq_false_iff.mpr fun ha => ?_)
      rw [alive id ha] at settled
      cases settled
  · rw [leaked, partings]
    exact h.leaked
  · rw [partings]
    exact h.nodup

theorem holder_of_call {c : Call} (h : c.held? = none) (hc : s.call = c) :
    s.holder = s.engine.current := holder_of_held (by rw [hc]; exact h)

theorem parting_lt (hs : s.Sound) (h : id ∈ Note.partings s.log) : id < s.engine.runs.size :=
  hs.log _ (Note.mem_partings.mp h)

theorem Due.current {launch : Launch} (hs : s.Sound) (due : s.Due l launch) :
    s.engine.current = none := by
  rcases due with ⟨_, _, current⟩ | ⟨id, _, call, _⟩
  · exact current
  · exact hs.held (by simp [call, Call.held?])

/-- A launch shows its run, and holds it if it comes to be. -/
theorem launch_shows (launch : Launch) (hs : s.Sound) (hc : s.engine.current = none) :
    (s.launch launch).engine.shown = .run s.engine.runs.size ∧
      (s.launch launch).engine.runs.size = s.engine.runs.size + 1 ∧
      (s.launch launch).engine.leaked = s.engine.leaked ∧
      ((s.launch launch).engine.current = some s.engine.runs.size ∨
        (s.launch launch).engine.current = none ∧
          (s.launch launch).engine.isAlive s.engine.runs.size = false) := by
  cases launch with
  | works => simp [Ensemble.launch, Engine.launch, Queue.openRun, hs.slots]
  | noChannel c =>
    simp [Ensemble.launch, Engine.launch, Engine.failLaunch, Queue.openRun, hs.slots, hc,
      Engine.isAlive, Run.failed, Stage.isAlive]
  | noThread c turns late =>
    simp [Ensemble.launch, Engine.launch_noThread, Engine.failLaunch, Queue.openRun, hs.slots, hc,
      Engine.isAlive, Run.failed, Stage.isAlive]

theorem ruled_launch {launch : Launch} (hs : s.Sound) (h : s.Ruled) (due : s.Due l launch) :
    (s.launch launch).Ruled := by
  obtain ⟨shown, size, leaked, current⟩ := launch_shows launch hs (due.current hs)
  have fresh : s.engine.runs.size ∉ Note.partings s.log :=
    fun hp => absurd (parting_lt hs hp) (Nat.lt_irrefl _)
  have partings : Note.partings (s.launch launch).log = Note.partings s.log := by
    simp [Ensemble.launch, Note.partings, Note.parting?]
  have holder : (s.launch launch).holder = (s.launch launch).engine.current := rfl
  have last {id : Nat} (hid : (s.launch launch).holder = some id) : id = s.engine.runs.size := by
    rw [holder] at hid
    rcases current with hc | ⟨hc, _⟩ <;> rw [hc] at hid <;> cases hid
    rfl
  refine ⟨?_, fun id hid => ?_, fun id hid => ?_, ?_, fun id hid => ?_, ?_, ?_⟩
  · rintro id leave (hc | hc) <;> cases hc
  · rw [last hid, partings]
    exact fresh
  · rw [last hid, shown]
  · rw [shown, size]
    simp
  · rw [shown] at hid
    cases hid
    refine ⟨size.symm, by rw [partings]; exact fresh, ?_⟩
    rcases current with hc | ⟨_, ended⟩
    · exact .inl (holder.trans hc)
    · exact .inr ended
  · rw [leaked, partings]
    exact h.leaked
  · rw [partings]
    exact h.nodup

theorem ruled_silence (hs : s.Sound) (h : s.Ruled) (call : s.call = .silencing id) :
    Ruled { s with
      engine := s.engine.silence id, call := .idle, log := s.log ++ [.abandoned id] } := by
  have held : s.holder = some id := by simp [holder, call, Call.held?]
  have current : s.engine.current = none := hs.held (by simp [call, Call.held?])
  have kept := h.kept id held
  have partings : Note.partings (s.log ++ [.abandoned id]) = Note.partings s.log ++ [id] :=
    Note.partings_append _ _
  have free : Ensemble.holder { s with
      engine := s.engine.silence id, call := .idle, log := s.log ++ [.abandoned id] } = none := current
  have size := hs.holder id held
  refine ⟨?_, ?_, ?_, ?_, ?_, ?_, ?_⟩
  · rintro _ _ (hc | hc) <;> cases hc
  · rw [free]
    rintro _ ⟨⟩
  · rw [free]
    rintro _ ⟨⟩
  · have some : s.engine.runs.size ≠ 0 := by omega
    simp [Engine.silence, some]
  · rintro _ ⟨⟩
  · change s.engine.leaked + 1 = _
    rw [partings, List.length_append, ← h.leaked]
    rfl
  · change (Note.partings (s.log ++ [.abandoned id])).Nodup
    rw [partings, List.nodup_append]
    refine ⟨h.nodup, by simp, fun a ha b hb => ?_⟩
    rw [List.mem_singleton.mp hb]
    rintro rfl
    exact kept ha

theorem Conduct.ruled (hs : s.Sound) (h : s.Ruled) (c : Conduct I s l s') : s'.Ruled := by
  cases c with
  | aside hl runs call current shown leaked partings =>
    refine h.of_holder ?_ ?_ shown leaked partings (by rw [runs]) ?_
    · rw [holder, call, current, ← holder]
    · rw [call, current]
      exact h.aims
    · intro id ha
      rwa [isAlive_eq, runs, ← isAlive_eq] at ha
  | work j r r' hl here turn runs call current shown leaked partings =>
    refine h.of_holder ?_ ?_ shown leaked partings (by simp [runs]) ?_
    · rw [holder, call, current, ← holder]
    · rw [call, current]
      exact h.aims
    · exact fun id ha => isAlive_of_turn here turn runs ha
  | request j leave hl free current running =>
    refine h.of_holder ?_ ?_ rfl rfl rfl rfl fun _ ha => ha
    · rw [holder_of_call rfl free]
      rfl
    · rintro id leave (hc | hc) <;> cases hc
      exact current
  | cancel j leave hl call =>
    refine h.of_holder ?_ ?_ rfl rfl rfl Array.size_modify fun id ha =>
      (isAlive_cancel _ j id).symm.trans ha
    · rw [holder_of_call rfl call]
      rfl
    · rintro id leave (hc | hc) <;> cases hc
      exact h.aims _ _ (.inl call)
  | mark j hl call =>
    refine h.of_holder ?_ ?_ rfl rfl rfl Array.size_modify fun id ha =>
      (isAlive_showRequest _ j id).symm.trans ha
    · rw [holder_of_call rfl call]
      rfl
    · rintro id leave (hc | hc) <;> cases hc
  | leave j hl call =>
    refine h.of_holder ?_ ?_ rfl rfl rfl Array.size_modify fun id ha =>
      (isAlive_showRequest _ j id).symm.trans ha
    · rw [holder_of_call rfl call, h.aims j true (.inr call)]
      rfl
    · rintro id leave (hc | hc) <;> cases hc
  | await j next hl free current =>
    refine h.of_holder ?_ ?_ rfl rfl rfl rfl fun _ ha => ha
    · rw [holder_of_call rfl free, current]
      rfl
    · rintro id leave (hc | hc) <;> cases hc
  | settle j hl call ended =>
    have held : s.holder = some j := by simp [holder, call, Call.held?]
    have current : s.engine.current = none := hs.held (by simp [call, Call.held?])
    have free : Ensemble.holder { s with call := .idle } = none := current
    refine ⟨?_, ?_, ?_, h.nothing, fun id hid => ?_, h.leaked, h.nodup⟩
    · rintro _ _ (hc | hc) <;> cases hc
    · rw [free]
      rintro _ ⟨⟩
    · rw [free]
      rintro _ ⟨⟩
    · obtain ⟨last, kept, settled⟩ := h.shown id hid
      refine ⟨last, kept, .inr ?_⟩
      rcases settled with settled | settled
      · rw [held] at settled
        cases settled
        exact ended
      · exact settled
  | launch launch due => exact ruled_launch hs h due
  | giveUp j next hl call =>
    refine h.of_holder ?_ ?_ rfl rfl rfl rfl fun _ ha => ha
    · simp [holder, call, Call.held?]
    · rintro id leave (hc | hc) <;> cases hc
  | forsake j hl call =>
    refine h.of_holder ?_ ?_ rfl rfl rfl Array.size_modify fun id ha =>
      (isAlive_cancel _ j id).symm.trans ha
    · simp [holder, call, Call.held?]
    · rintro id leave (hc | hc) <;> cases hc
  | silence j hl call => exact ruled_silence hs h call

theorem Ruled.conduct (h : s.Ruled) (hs : s.step I l = some s') : Conduct I s l s' :=
  conduct_cases (fun id leave hc => h.aims id leave (.inr hc)) hs

theorem Reached.ruled (h : Reached I ok (initial settings world) s) : s.Ruled := by
  induction h with
  | start => exact ruled_initial settings world
  | step h hl hs ih => exact (ih.conduct hs).ruled h.sound ih

/-! ## Every run -/

/-- A run is steady, given what the controller is about. -/
def Steady (s : Ensemble ω σ) (id : Nat) : Prop :=
  (s.engine.run id).Steady (∃ leave, s.call = .marking id leave)
    (s.call = .silencing id ∨ id ∈ Note.partings s.log)

theorem Treats.steady (c : Treats I s s' id) (h : s.Steady id) : s'.Steady id := by
  unfold Steady
  cases c with
  | turns turn _ marking parted => exact (Run.Steady.turn h turn).mono marking parted
  | cancels run about =>
    rw [run]
    refine Run.Steady.cancel h ?_
    rcases about with ⟨leave, _, call'⟩ | ⟨_, call'⟩
    · exact .inl ⟨leave, call'⟩
    · exact .inr (.inl call')
  | requests run leave call call' parted =>
    rw [run]
    have past : ¬∃ leave, s'.call = .marking id leave := fun ⟨leave, call⟩ => call' leave call
    exact (Run.Steady.showRequest h ⟨leave, call⟩ past).mono .rfl parted

/-- Runs come to be by launches. -/
theorem Conduct.size (c : Conduct I s l s') : s'.engine.runs.size = s.engine.runs.size ∨
    ∃ launch, s.Due l launch ∧ s' = s.launch launch := by
  cases c with
  | aside _ runs => exact .inl (by rw [runs])
  | work _ _ _ _ _ _ runs => exact .inl (by simp [runs])
  | cancel | mark | leave | forsake => exact .inl Array.size_modify
  | launch launch due => exact .inr ⟨launch, due, rfl⟩
  | _ => exact .inl rfl

theorem Conduct.size_le (hs : s.Sound) (c : Conduct I s l s') :
    s.engine.runs.size ≤ s'.engine.runs.size := by
  rcases c.size with size | ⟨launch, due, rfl⟩
  · exact Nat.le_of_eq size.symm
  · rw [(launch_shows launch hs (due.current hs)).2.1]
    exact Nat.le_succ _

theorem launch_gives (s : Ensemble ω σ) (launch : Launch) :
    launch.Gives ((s.launch launch).engine.run s.engine.runs.size) := by
  cases launch with
  | works =>
    simp only [Ensemble.launch, Engine.launch, Engine.run, Array.getElem?_push_size]
    exact .works _ _
  | noChannel c =>
    simp only [Ensemble.launch, Engine.launch, Engine.failLaunch, Engine.run,
      Array.getElem?_push_size]
    exact .fails rfl _ _
  | noThread c turns late =>
    simp only [Ensemble.launch, Engine.launch_noThread, Engine.failLaunch, Engine.run,
      Array.getElem?_push_size]
    exact .fails rfl _ _

/-- A run that was not there is as its launch gives it, and the call is over. -/
theorem Conduct.fresh (hs : s.Sound) (c : Conduct I s l s') (hid : ¬ id < s.engine.runs.size)
    (hid' : id < s'.engine.runs.size) :
    s'.call = .idle ∧ ∃ launch : Launch, launch.Gives (s'.engine.run id) := by
  rcases c.size with size | ⟨launch, due, rfl⟩
  · omega
  · rw [(launch_shows launch hs (due.current hs)).2.1] at hid'
    obtain rfl : id = s.engine.runs.size := by omega
    exact ⟨rfl, launch, s.launch_gives launch⟩

/-- Every run is steady. -/
theorem Reached.steady (h : Reached I ok (initial settings world) s)
    (hid : id < s.engine.runs.size) : s.Steady id := by
  induction h with
  | start => cases hid
  | @step s s' l h hl hs ih =>
    have c := h.ruled.conduct hs
    by_cases hid' : id < s.engine.runs.size
    · exact (c.treats hid').steady (ih hid')
    · obtain ⟨idle, launch, gives⟩ := c.fresh h.sound hid' hid
      exact .of_gives gives (by simp [idle])

/-- What holds of a run and is kept by every step holds of it ever after. -/
theorem Reached.later {P : Ensemble ω σ → Prop} {ls : List (Label ω)}
    (h : Reached I (fun _ => True) (initial settings world) s) (hid : id < s.engine.runs.size)
    (kept : ∀ {s s'}, Treats I s s' id → P s → P s') (hs : P s) (h' : exec I s ls = some s') :
    id < s'.engine.runs.size ∧ P s' := by
  refine exec_induction (P := fun _ s' => id < s'.engine.runs.size ∧ P s') ⟨hid, hs⟩ ?_ h'
  intro ls t l t' ht ⟨hid', hp⟩ step
  have reached := h.of_exec ht
  have c := reached.ruled.conduct step
  exact ⟨Nat.lt_of_lt_of_le hid' (c.size_le reached.sound), kept (c.treats hid') hp⟩

end Ensemble
end ScriptHost
