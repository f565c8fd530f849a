import ScriptHost.Proofs.Control.Refusals
import ScriptHost.Proofs.Recovery.Futures

/-!
# Starts that are refused leave no trace but a message

Let starts be tried where no script is running, as many as one likes, and let
the system refuse the launch of each, while the others go on as they like. What
the others do could be done without the attempts (`Label.Leaves`); and whatever
is done behind the attempts could be done behind that, with the same answers and
the same to be seen (`Alongside`), but for the one message of each attempt that
it has stopped, and for the phase, which shows that.

* `Trying.step`: one step of the attempts, and what stands for it without them.
* `Trying.follow`: all of the attempts.
* `failed_starts_recover`: what they leave behind, and that the future is the
  same.
-/
namespace ScriptHost

variable {ω σ : Type} {I : Interpreter ω σ} {x : Extra}

/-- The launch for which a step asks. -/
def Label.launch? : Label ω → Option Launch
  | .start l => some l
  | _ => none

/-- A step while starts are tried that the system refuses. -/
inductive Label.Tries : Label ω → Prop where
  | start {l : Launch} {o : Outcome} (ho : l.refusal? = some o) : Tries (.start l)
  | goOn : Tries .goOn
  | apart {l : Label ω} (hl : l.isOfCall = false) : Tries l

/-- A step, and what is left of it where no start is tried and the runs from number `n` on are not
there: nothing of the calls, nor where a message of those runs is taken. -/
inductive Label.Leaves (n : Nat) : Label ω → List (Label ω) → Prop where
  | kept {l : Label ω} (hl : l.isOfCall = false) : Leaves n l [l]
  | call {l : Label ω} (hl : l.isOfCall = true) : Leaves n l []
  | passed : Leaves n .take []
  | idle {a : Actor} (ha : n ≤ a.run) : Leaves n (.other a) []

theorem Label.Leaves.apart {n : Nat} {l : Label ω} {ls : List (Label ω)} (h : l.Leaves n ls) :
    ∀ l' ∈ ls, l'.isOfCall = false := by
  cases h with
  | kept hl => simpa using hl
  | _ => nofun

theorem Label.leaves_apart {n : Nat} {ls : List (Label ω)} {chunks : List (List (Label ω))}
    (h : List.Forall₂ (Label.Leaves n) ls chunks) : ∀ l ∈ chunks.flatten, l.isOfCall = false := by
  induction h with
  | nil => nofun
  | cons own _ ih =>
    rw [List.flatten_cons]
    exact List.forall_mem_append.mpr ⟨own.apart, ih⟩

theorem Actor.place_of_lt {a : Actor} (h : a.run < x.first) : a.place x = a := by
  cases a with
  | worker r => exact congrArg Actor.worker (Extra.place_of_lt h)
  | patience r => exact congrArg Actor.patience (Extra.place_of_lt h)
  | pump r g => exact congrArg (Actor.pump · g) (Extra.place_of_lt h)
  | fault r => exact congrArg Actor.fault (Extra.place_of_lt h)

theorem Taking.place_of_lt {τ : Taking} (h : ∀ r, τ.run? = some r → r < x.first) :
    τ.place x = τ := by
  cases τ with
  | resting => rfl
  | testing m => exact congrArg Taking.testing (Message.place_of_lt (h m.run rfl))
  | clearing r => exact congrArg Taking.clearing (Extra.place_of_lt (h r rfl))
  | loading r => exact congrArg Taking.loading (Extra.place_of_lt (h r rfl))
  | comparing r n => exact congrArg (Taking.comparing · n) (Extra.place_of_lt (h r rfl))

/-- So many more runs. -/
def Extra.plus (x : Extra) (n : Nat) : Extra := { x with count := x.count + n }

theorem Extra.plus_plus (x : Extra) (m n : Nat) : (x.plus m).plus n = x.plus (m + n) := by
  simp [plus, Nat.add_assoc]

theorem Launch.refused_eq {l : Launch} {o : Outcome} (ho : l.refusal? = some o) :
    ∃ f, l.answer = .error f ∧ ∀ e : Engine ω σ, e.launch l = e.failLaunch o f := by
  cases l with
  | works => cases ho
  | noChannel =>
    cases ho
    exact ⟨_, rfl, fun _ => rfl⟩
  | noThread cause turns late =>
    cases ho
    exact ⟨_, rfl, fun e => e.launch_noThread cause turns late⟩

namespace Ensemble

variable {s s' t t' u : Ensemble ω σ} {l : Label ω} {ls tries : List (Label ω)} {id n : Nat}
  {settings : Settings} {world : ω} {launch : Launch} {next next' : Option Launch} {o : Outcome}

/-! ## Without the attempts -/

theorem act_absent {a : Actor} (h : s.engine.runs.size ≤ a.run) : s.act I a = s := by
  have none : s.engine.runs[a.run]? = none := Array.getElem?_eq_none h
  cases a with
  | worker id | pump id g =>
    change s.engine.runs[id]? = Option.none at none
    simp [act, Engine.step, none]
  | patience id | fault id =>
    change s.engine.runs[id]? = Option.none at none
    simp [act, Engine.step, modify_of_none _ none]

/-- Until something is launched behind them, the runs that both have are numbered the same. -/
theorem leaves_of_mirrors (m : l.Mirrors x ls) (hl : l.isOfCall = false)
    (run : exec I t ls = some t') (last : t.engine.runs.size = x.first)
    (slots : t.engine.queue.slots.size = t.engine.runs.size) :
    ∃ ls', l.Leaves x.first ls' ∧ exec I t ls' = some t' := by
  cases m with
  | same l =>
    cases l with
    | other a =>
      by_cases ha : a.run < x.first
      · rw [Label.place, Actor.place_of_lt ha]
        exact ⟨_, .kept rfl, run⟩
      · have far : t.engine.runs.size ≤ a.run := by omega
        have stays : t' = t := by
          simpa [exec, step, act_absent far, eq_comm] using run
        refine ⟨[], .idle ?_, stays ▸ rfl⟩
        have beyond : (a.place x).run = x.place a.run := by cases a <;> rfl
        rw [beyond, Extra.place_of_le (Nat.not_lt.mp ha)]
        omega
    | dropPump j =>
      have hj : j < x.first := by
        by_contra far
        have none : t.engine.queue.slot j = {} := Queue.slot_of_size_le (by omega)
        simp [exec, step, none] at run
      rw [Label.place, Extra.place_of_lt hj]
      exact ⟨_, .kept rfl, run⟩
    | take | outside => exact ⟨_, .kept rfl, run⟩
    | _ => cases hl
  | passed => exact ⟨[], .passed, run⟩
  | idle ha => exact ⟨[], .idle (Extra.has_iff.mp ha).1, run⟩
  | _ => cases hl

theorem Conduct.size_apart (c : Conduct I s l s') (hl : l.isOfCall = false) :
    s'.engine.runs.size = s.engine.runs.size := by
  rcases c.size with same | ⟨_, due, _⟩
  · exact same
  · rcases due with ⟨rfl, _⟩ | ⟨_, rfl, _⟩ <;> cases hl

/-- Only the controller launches runs. -/
theorem Reached.size_apart (h : Reached I (fun _ => True) (initial settings world) s)
    (apart : ∀ l ∈ ls, l.isOfCall = false) (run : exec I s ls = some t) :
    t.engine.runs.size = s.engine.runs.size := by
  refine exec_induction
    (P := fun ls t => (∀ l ∈ ls, l.isOfCall = false) → t.engine.runs.size = s.engine.runs.size)
    (fun _ => rfl) ?_ run apart
  intro ls t l t' ht ih step apart
  obtain ⟨before, own⟩ := List.forall_mem_append.mp apart
  have conduct := (h.of_exec ht).ruled.conduct step
  exact (conduct.size_apart (own l List.mem_cons_self)).trans (ih before)

/-- Nothing goes on in the state, and there are so many runs. -/
structure Rests (n : Nat) (t : Ensemble ω σ) : Prop where
  idle : t.call = .idle
  still : t.engine.isRunning = false
  last : t.engine.runs.size = n

/-- Steps of the others launch nothing, and let nothing run that has stopped. -/
theorem Rests.kept (h : Rests n t)
    (reached : Reached I (fun _ => True) (initial settings world) t)
    (apart : ∀ l ∈ ls, l.isOfCall = false) (run : exec I t ls = some t') : Rests n t' := by
  have own := exec_untouched apart run
  have idle' := own.call.trans h.idle
  refine ⟨idle', ?_, (reached.size_apart apart run).trans h.last⟩
  unfold Engine.isRunning
  rw [own.current]
  cases hc : t.engine.current with
  | none => rfl
  | some id =>
    -- the run that is held has stopped, and no phase moves back
    obtain ⟨_, past⟩ := reached.later
      (P := fun s => Phase.stopped.rank ≤ (s.engine.run id).phase.rank)
      (reached.held h.idle hc).1 (fun c le => Nat.le_trans le c.rank_le)
      (Nat.le_of_eq (by rw [reached.stopped_of_still h.idle hc h.still])) run
    have shown := ((reached.of_exec run).held idle' (own.current.trans hc)).2
    simp [shown, Phase.eq_stopped_of_rank past]

/-! ## One attempt -/

/-- One more launch is refused in the first state. -/
theorem Added.refuse (a : s.Added x t) (hs : s.Sound) (ht : t.Sound)
    (last : t.engine.runs.size = x.first) (ho : launch.refusal? = some o) :
    (s.launch launch).Added x.more t := by
  obtain ⟨f, _, fails⟩ := Launch.refused_eq (ω := ω) (σ := σ) ho
  have size : s.engine.runs.size = x.first + x.count := by rw [a.engine.size, last]
  have same (j : Nat) (hj : j < t.engine.runs.size) : x.more.place j = x.place j :=
    (Extra.place_of_lt (x := x.more) (last ▸ hj)).trans (Extra.place_of_lt (last ▸ hj)).symm
  refine ⟨?_, ?_, ?_⟩
  · simp only [Ensemble.launch, fails]
    exact a.engine.more last ht.slots (fun m hm => last ▸ ht.queued m hm) o f
  · rcases a.taking with hand | ⟨i, o, hi, hand, rest⟩
    · refine .inl (hand.trans ?_)
      rw [Taking.place_of_lt fun r hr => last ▸ ht.taking r hr,
        Taking.place_of_lt (x := x.more) fun r hr => last ▸ ht.taking r hr]
    · exact .inr ⟨i, o, Extra.more_has.mpr (.inl hi), hand, rest⟩
  · -- the new run was not heard of before, and the others have the numbers that they had
    have told : Note.deliveries (s.launch launch).log = Note.deliveries s.log := by
      simp only [Ensemble.launch, Note.deliveries_append]
      exact List.append_nil _
    have heard : (Note.deliveries s.log).filter (!x.more.has ·.1) =
        (Note.deliveries s.log).filter (!x.has ·.1) := by
      refine List.filter_congr fun d hd => ?_
      have lt := hs.of_delivered hd
      have old : x.more.has d.1 = x.has d.1 := by
        rw [Bool.eq_iff_iff, Extra.more_has]
        exact or_iff_left (by omega)
      rw [old]
    rw [told, heard, a.heard]
    exact List.map_congr_left fun d hd => by rw [same d.1 (ht.of_delivered hd)]

/-- How far the attempts are; `next` is the launch of the one that waits for a worker. -/
inductive Trying (x : Extra) (s t : Ensemble ω σ) : Option Launch → Prop where
  | begun (fresh : x.count = 0) (same : s.Same x t) : Trying x s t none
  | waiting {id : Nat} {launch : Launch} {o : Outcome} (added : s.Added x t)
    (call : s.call = .waiting (x.place id) (some launch)) (current : s.engine.current = none)
    (current' : t.engine.current = some id) (refused : launch.refusal? = some o) :
    Trying x s t (some launch)
  | freed (freed : s.Freed x t) : Trying x s t none

theorem Trying.added (h : Trying x s t next) : s.Added x t := by
  cases h with
  | begun _ a | freed a => exact a.toAdded
  | waiting a => exact a

/-- Behind an attempt the engine has no worker. -/
theorem Added.freed (a : s.Added x t) (hs : s.Sound) (ht : t.Sound)
    (rests : Rests x.first t) (ho : launch.refusal? = some o) (current : s.engine.current = none)
    (ended : ∀ j, t.engine.current = some j → t.engine.isAlive j = false) :
    (s.launch launch).Freed x.more t := by
  obtain ⟨f, _, fails⟩ := Launch.refused_eq (ω := ω) (σ := σ) ho
  refine ⟨a.refuse hs ht rests.last ho, rfl, rests.idle, ?_, ?_, ended⟩
  · simpa only [Ensemble.launch, fails, Engine.failLaunch] using current
  · refine ⟨s.engine.runs.size, Extra.more_has.mpr (.inr ?_), ?_⟩
    · rw [a.engine.size, rests.last]
    · rw [← hs.slots]
      simp only [Ensemble.launch, fails, Engine.failLaunch, Queue.openRun]

/-- A step of the attempts and what is left of it without them; `done` are the launches that were
refused with it. -/
structure Tried (I : Interpreter ω σ) (x : Extra) (s : Ensemble ω σ) (l : Label ω)
    (s' t : Ensemble ω σ) (ls : List (Label ω)) (t' : Ensemble ω σ) (next next' : Option Launch)
    (done : List Launch) : Prop where
  leaves : l.Leaves x.first ls
  run : exec I t ls = some t'
  trying : Trying (x.plus done.length) s' t' next'
  asked : next.toList ++ l.launch?.toList = done ++ next'.toList
  answers : (s.answer? l).toList = done.map Launch.answer
  launches : Note.launches s'.log = Note.launches s.log ++ done

/-- The launch for which an attempt asks is refused with the step `l`. -/
theorem tried_refused (a : s.Added x t) (hs : s.Sound) (ht : t.Sound) (rests : Rests x.first t)
    (hl : l.isOfCall = true) (ho : launch.refusal? = some o) (current : s.engine.current = none)
    (ended : ∀ j, t.engine.current = some j → t.engine.isAlive j = false)
    (asked : next.toList ++ l.launch?.toList = [launch])
    (told : s.answer? l = some (s.answerAfter (some launch))) :
    Tried I x s l (s.launch launch) t [] t next none [launch] := by
  refine ⟨.call hl, rfl, .freed (a.freed hs ht rests ho current ended), asked, ?_, ?_⟩
  · rw [told, answerAfter, launch.answer_eq]
    rfl
  · simp only [Ensemble.launch, Note.launches_append]
    rfl

section
variable (a : Trying x s t next) (rests : Rests x.first t)
  (hs : Reached I (fun _ => True) (initial settings world) s)
  (ht : Reached I (fun _ => True) (initial settings world) t)
include a rests hs ht

/-- The others go on while starts are tried. -/
theorem Trying.step_apart (hl : l.isOfCall = false) (h : s.step I l = some s') :
    ∃ ls t', Tried I x s l s' t ls t' next next [] := by
  have receives : s.call.receives = true → t.call.receives = true := by
    rw [rests.idle]
    exact fun _ => rfl
  obtain ⟨ls, t', mirrors, apart, run, added⟩ := a.added.step_apart hl receives h
  obtain ⟨ls', leaves, run'⟩ := leaves_of_mirrors mirrors hl run rests.last ht.sound.slots
  have own := step_untouched hl h
  have own' := exec_untouched apart run
  refine ⟨ls', t', leaves, run', (?_ : Trying x s' t' next), ?_, ?_, ?_⟩
  · cases a with
    | begun fresh same => exact .begun fresh (same.of_untouched added own own')
    | waiting _ call current current' refused =>
      exact .waiting added (own.call.trans call) (own.current.trans current)
        (own'.current.trans current') refused
    | freed freed => exact .freed (freed.of_untouched ht added own own' run)
  · cases l <;> first | exact List.append_nil _ | cases hl
  · rw [answer?_of_apart s hl]
    rfl
  · have run : exec I s [l] = some s' := by simp [exec, h]
    rw [List.append_nil]
    refine ((hs.launches_kept run).eq_of_length ?_).symm
    rw [hs.launches.1, (hs.of_exec run).launches.1]
    exact ((hs.ruled.conduct h).size_apart hl).symm

/-- The attempt that waits for a worker goes on: the worker has ended, and the launch is refused. -/
theorem Trying.step_goOn (h : s.step I .goOn = some s') :
    ∃ launch, Tried I x s .goOn s' t [] t next none [launch] := by
  simp only [Ensemble.step, Option.ite_none_right_eq_some] at h
  obtain ⟨_, h⟩ := h
  cases a with
  | begun _ same => simp [goOn, same.call, rests.idle, Call.place] at h
  | freed freed => simp [goOn, freed.idle] at h
  | waiting added call current current' refused =>
    simp only [goOn, call, added.engine.isAlive_eq, Option.ite_none_left_eq_some,
      Bool.not_eq_true, Option.some.injEq] at h
    obtain ⟨ended, rfl⟩ := h
    refine ⟨_, tried_refused added hs.sound ht.sound rests rfl refused current ?_ rfl ?_⟩
    · rintro j hj
      rw [current'] at hj
      exact Option.some.inj hj ▸ ended
    · simp only [answer?, call]

/-- An attempt begins: its launch is refused, or it finds a worker, and waits for it. -/
theorem Trying.step_start (ho : launch.refusal? = some o)
    (h : s.step I (.start launch) = some s') :
    Tried I x s (.start launch) s' t [] t next none [launch] ∨
      Tried I x s (.start launch) s' t [] t next (some launch) [] := by
  simp only [Ensemble.step, Option.ite_none_right_eq_some, Option.some.injEq] at h
  obtain ⟨free, rfl⟩ := h
  obtain ⟨rfl, still⟩ : next = none ∧ s.engine.isRunning = false := by
    cases a with
    | begun _ same => exact ⟨rfl, same.isRunning_eq.trans rests.still⟩
    | freed freed => exact ⟨rfl, freed.still⟩
    | waiting _ call => simp [(isFree_iff.mp free).1] at call
  rw [if_neg (by simp [still])]
  cases hc : s.engine.current with
  | none =>
    rw [await_of_none hc]
    refine .inl (tried_refused a.added hs.sound ht.sound rests rfl ho hc ?_ rfl ?_)
    · cases a with
      | begun _ same =>
        intro j hj
        have current := same.current
        rw [hc, hj] at current
        cases current
      | freed freed => exact freed.ended
    · simp only [answer?, still, hc, Option.isSome_none, Bool.false_eq_true, if_false]
  | some i =>
    cases a with
    | freed freed =>
      rw [freed.current] at hc
      cases hc
    | begun _ same =>
      have current := same.current
      rw [hc] at current
      obtain ⟨id, current', rfl⟩ := Option.map_eq_some_iff.mp current.symm
      rw [await_of_some hc]
      refine .inr ⟨.call rfl, rfl, .waiting ?_ rfl rfl current' ho, rfl, ?_,
        (List.append_nil _).symm⟩
      · exact ⟨{ same.engine with }, same.taking, same.heard⟩
      · simp only [answer?, still, hc, Option.isSome_some, Bool.false_eq_true, if_false, if_true]
        rfl

/-- One step of the attempts. -/
theorem Trying.step (tries : l.Tries) (h : s.step I l = some s') :
    ∃ ls t' next' done, Tried I x s l s' t ls t' next next' done := by
  cases tries with
  | apart hl =>
    obtain ⟨ls, t', tried⟩ := a.step_apart rests hs ht hl h
    exact ⟨ls, t', next, [], tried⟩
  | goOn =>
    obtain ⟨launch, tried⟩ := a.step_goOn rests hs ht h
    exact ⟨[], t, none, [launch], tried⟩
  | start ho =>
    rcases a.step_start rests hs ht ho h with tried | tried
    · exact ⟨[], t, none, _, tried⟩
    · exact ⟨[], t, _, [], tried⟩

end

/-! ## All attempts -/

/-- Attempts that are over, and what is left of them without them: the launches `done` were refused
one after another, and nothing else was answered. -/
theorem Trying.follow {done : List Launch} (a : Trying x s t next) (rests : Rests x.first t)
    (hs : Reached I (fun _ => True) (initial settings world) s)
    (ht : Reached I (fun _ => True) (initial settings world) t) (tried : ∀ l ∈ tries, l.Tries)
    (run : exec I s tries = some u) (idle' : u.call = .idle)
    (asked : next.toList ++ tries.filterMap Label.launch? = done) :
    ∃ chunks t', List.Forall₂ (Label.Leaves x.first) tries chunks ∧
      exec I t chunks.flatten = some t' ∧ Trying (x.plus done.length) u t' none ∧
      answers I s tries = done.map Launch.answer ∧
      Note.launches u.log = Note.launches s.log ++ done := by
  induction tries generalizing x s t next done with
  | nil =>
    cases run
    cases a with
    | begun fresh same =>
      cases asked
      exact ⟨[], t, .nil, rfl, .begun fresh same, rfl, (List.append_nil _).symm⟩
    | waiting _ call => simp [idle'] at call
    | freed freed =>
      cases asked
      exact ⟨[], t, .nil, rfl, .freed freed, rfl, (List.append_nil _).symm⟩
  | cons l tries ih =>
    obtain ⟨s₁, step, run⟩ := Option.bind_eq_some_iff.mp run
    obtain ⟨own, rest⟩ := List.forall_mem_cons.mp tried
    obtain ⟨ls, t₁, next', first, one⟩ := a.step rests hs ht own step
    have rests' : Rests x.first t₁ := rests.kept ht one.leaves.apart one.run
    obtain ⟨chunks, t', leaves, run', trying, answers, launches⟩ := ih one.trying rests'
      (hs.step trivial step) (ht.of_exec one.run) rest run rfl
    have split : done = first ++ (next'.toList ++ tries.filterMap Label.launch?) := by
      rw [← asked, ← List.append_assoc, ← one.asked, List.filterMap_cons]
      cases l.launch? <;> simp
    refine ⟨ls :: chunks, t', .cons one.leaves leaves, ?_, ?_, ?_, ?_⟩
    · rw [List.flatten_cons, exec_append, one.run, Option.bind_some, run']
    · rwa [split, List.length_append, ← Extra.plus_plus]
    · rw [answers_cons step, one.answers, answers, split, ← List.map_append]
    · rw [launches, one.launches, split, List.append_assoc]

/-- Nothing was tried yet. -/
theorem Reached.begun (h : Reached I (fun _ => True) (initial settings world) s) :
    Trying ⟨s.engine.runs.size, 0⟩ s s none := by
  have same (j : Nat) : Extra.place ⟨s.engine.runs.size, 0⟩ j = j := Extra.place_of_none rfl j
  refine .begun rfl ⟨⟨.refl rfl (Nat.le_refl _) h.sound.slots, .inl ?_, ?_⟩, ?_, ?_, ?_⟩
  · exact (Taking.place_of_lt fun r hr => h.sound.taking r hr).symm
  · simp [Extra.has_of_none, same]
  · cases hc : s.call <;> simp [Call.place, same]
  · cases hc : s.engine.current <;> simp [same]
  · cases hc : s.engine.shown <;> simp [Shown.place, same]

/-- **Starts that are refused can be made up for.** Let starts be tried at any point of any run of
the system where no script is running, at least one and as many as one likes, and let the system
refuse each of them the channel or the thread; the others go on meanwhile. Each attempt answers with
the reason, and they leave payload, settings and the number of leaked workers as they were, and the
engine stopped and without a worker. Of each attempt one message is all there ever is, and neither a
worker nor a pump; a pump that went on before its run was refused a thread has sent nothing by the
time it is given up. And all the others did could be done without the attempts (`chunks`), to come to
a state from which every future is the same: whatever is done behind the attempts can be done there,
with the same answers and the same to be seen at every step. -/
theorem failed_starts_recover {before : List (Label ω)}
    (h : exec I (initial settings world) before = some s) (idle : s.call = .idle)
    (still : s.engine.isRunning = false) (run : exec I s tries = some u) (idle' : u.call = .idle)
    (tried : ∀ l ∈ tries, l.Tries) {done : List Launch}
    (asked : tries.filterMap Label.launch? = done) (attempt : done ≠ []) :
    answers I s tries = done.map Launch.answer ∧
    (u.engine.payload = s.engine.payload ∧ u.engine.settings = s.engine.settings ∧
      u.engine.leaked = s.engine.leaked ∧ u.engine.current = none ∧ u.engine.phase = .stopped) ∧
    (∀ (i : Nat) launch, done[i]? = some launch → ∃ o, launch.refusal? = some o ∧
      ∀ later v, exec I u later = some v → (v.view (s.engine.runs.size + i)).Refused o) ∧
    (∀ id q gs gs',
      let run : Run σ := { payload := u.engine.payload, chunkName := u.engine.settings.chunkName }
      (run.unthreaded id q gs gs').1.Void ∧ (run.unthreaded id q gs gs').2 = q) ∧
    ∃ chunks t, List.Forall₂ (Label.Leaves s.engine.runs.size) tries chunks ∧
      exec I s chunks.flatten = some t ∧
      ∀ later v, exec I u later = some v →
        ∃ mirrored, Alongside I ⟨s.engine.runs.size, done.length⟩ u later t mirrored := by
  have reached := Reached.start.of_exec h
  have reached' := reached.of_exec run
  obtain ⟨chunks, t, leaves, run', trying, answers, launches⟩ :=
    reached.begun.follow ⟨idle, still, rfl⟩ reached reached tried run idle' asked
  have extra : Extra.plus ⟨s.engine.runs.size, 0⟩ done.length = ⟨s.engine.runs.size, done.length⟩ := by
    rw [Extra.plus, Nat.zero_add]
  rw [extra] at trying
  have freed : u.Freed ⟨s.engine.runs.size, done.length⟩ t := by
    cases trying with
    | freed freed => exact freed
    | begun fresh => exact absurd (List.eq_nil_of_length_eq_zero fresh) attempt
  have own := exec_untouched (Label.leaves_apart leaves) run'
  have unthreaded (id q gs gs' payload chunkName) :
      (({ payload, chunkName } : Run σ).unthreaded id q gs gs').1.Void ∧
        (({ payload, chunkName } : Run σ).unthreaded id q gs gs').2 = q := by
    rw [(Run.unwritten_fresh payload chunkName).unthreaded]
    exact ⟨Run.void_failed payload chunkName, rfl⟩
  refine ⟨answers, ⟨freed.engine.payload.trans own.payload, exec_settings run,
    freed.engine.leaked.trans own.leaked, freed.current, freed.phase_eq⟩, ?_,
    fun id q gs gs' => unthreaded id q gs gs' _ _, chunks, t, leaves, run',
    fun later v hv => Beside.alongside (.inr freed) (reached.of_exec run') hv⟩
  intro i launch hi
  obtain ⟨o, ho⟩ : ∃ o, launch.refusal? = some o := by
    have mem : launch ∈ tries.filterMap Label.launch? := asked ▸ List.mem_of_getElem? hi
    obtain ⟨l, hl, launches⟩ := List.mem_filterMap.mp mem
    cases tried l hl with
    | start ho => exact ⟨_, Option.some.inj launches ▸ ho⟩
    | goOn => cases launches
    | apart hl =>
      cases l with
      | start => cases hl
      | _ => cases launches
  refine ⟨o, ho, fun later v hv => ?_⟩
  have there : (Note.launches u.log)[s.engine.runs.size + i]? = some launch := by
    rw [launches, ← reached.launches.1, List.getElem?_append_right (Nat.le_add_right _ _),
      Nat.add_sub_cancel_left, hi]
  exact ((reached'.refused there ho).exec reached' hv).view

/-- Two starts are tried. The first has to wait for the worker of the run before, which ends, and
then gets no channel; the second gets no thread. -/
def refusals : List (Label (List Signal)) :=
  [.start (.noChannel .brokenPipe), .other (.worker 0), .goOn, .start (.noThread .brokenPipe)]

/-- The state behind them. -/
def twiceRefused : Ensemble (List Signal) (List Signal) :=
  (exec replay stopTaken refusals).get (by decide +kernel)

/-- Their messages are taken, and a third start works. -/
def recovering : List (Label (List Signal)) :=
  .replicate 4 .take ++ [.start .works, .other (.worker 3), .take, .take]

/-- The state behind that. -/
def recovered : Ensemble (List Signal) (List Signal) :=
  (exec replay twiceRefused recovering).get (by decide +kernel)

theorem exec_refusals : exec replay stopTaken refusals = some twiceRefused := (Option.some_get _).symm

theorem exec_recovering : exec replay twiceRefused recovering = some recovered :=
  (Option.some_get _).symm

/-- What follows the two attempts could follow without them. -/
theorem failed_starts_recover_twiceRefused :
    answers replay stopTaken refusals = [.error (.channel .brokenPipe), .error (.spawn .brokenPipe)] ∧
      twiceRefused.engine.current = none ∧ twiceRefused.engine.phase = .stopped ∧
      (recovered.view 1).Refused .channelFailure ∧ (recovered.view 2).Refused .spawnFailure ∧
      ∃ chunks t, List.Forall₂ (Label.Leaves 1) refusals chunks ∧
        exec replay stopTaken chunks.flatten = some t ∧
        ∃ mirrored, Alongside replay ⟨1, 2⟩ twiceRefused recovering t mirrored := by
  have tried : ∀ l ∈ refusals, l.Tries := by
    intro l hl
    simp only [refusals, List.mem_cons, List.not_mem_nil, or_false] at hl
    rcases hl with rfl | rfl | rfl | rfl
    exacts [.start rfl, .apart rfl, .goOn, .start rfl]
  have size : stopTaken.engine.runs.size = 1 := by decide +kernel
  obtain ⟨answers, ⟨_, _, _, current, phase⟩, trace, _, chunks, t, leaves, run, same⟩ :=
    failed_starts_recover exec_runToStop (by decide +kernel) (by decide +kernel) exec_refusals
      (by decide +kernel) tried rfl (by simp [refusals, Label.launch?])
  rw [size] at trace leaves same
  obtain ⟨_, first, trace₁⟩ := trace 0 _ rfl
  obtain ⟨_, second, trace₂⟩ := trace 1 _ rfl
  cases first
  cases second
  exact ⟨answers, current, phase, trace₁ _ _ exec_recovering, trace₂ _ _ exec_recovering, chunks, t,
    leaves, run, same _ _ exec_recovering⟩

end Ensemble
end ScriptHost
