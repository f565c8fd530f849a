import ScriptHost.Proofs.Control.Apart
import ScriptHost.Proofs.Control.Deadline

/-!
# Giving up neither too early nor too late

The worker that a shutdown waits for exits at some moment, or never (`exit`).
The wait by the clock learns of it when it looks, the other one when it is woken
or its time is over; what a wait is to answer depends on the deadline alone.

* `Engine.Punctual`: all is well if the worker has exited by the deadline, and
  it is given up only if it was alive at a moment that was not before it.
* `Engine.finish_punctual`: a wait is punctual if it ends when the worker has
  exited, or not before the deadline.
* `shutdown_punctual`: both ways of waiting are, and the looks come to an end at
  the latest with the first that is not before the deadline.
-/
namespace ScriptHost

variable {ω σ : Type} {I : Interpreter ω σ}

/-- The worker has exited by the moment `now`. -/
def Exited (exit : Option Instant) (now : Instant) : Prop := ∃ m ∈ exit, m ≤ now

instance (exit : Option Instant) (now : Instant) : Decidable (Exited exit now) :=
  inferInstanceAs (Decidable (∃ m ∈ exit, m ≤ now))

theorem Exited.mono {exit : Option Instant} {now later : Instant} (h : Exited exit now)
    (le : now ≤ later) : Exited exit later := by
  obtain ⟨m, hm, hn⟩ := h
  exact ⟨m, hm, Nat.le_trans hn le⟩

namespace Engine

variable {e e' f : Engine ω σ} {id : Nat} {exit : Option Instant} {deadline last : Instant}
  {answer : Except Failure Unit}

/-- A wait for the worker of the run `id`, begun with the engine `e`, has ended as it should. -/
structure Punctual (e : Engine ω σ) (id : Nat) (exit : Option Instant) (deadline : Instant)
    (answer : Except Failure Unit) (e' : Engine ω σ) : Prop where
  settles : e.Settles id answer e'
  ok : Exited exit deadline → answer = .ok ()
  /-- It was alive when it was given up, not before the deadline. -/
  late : answer ≠ .ok () → ∃ last, deadline ≤ last ∧ ¬Exited exit last
  /-- No run but the one that is given up is silenced. -/
  silenced : ∀ j, (e'.queue.slot j).abandoned = true ↔
    (e.queue.slot j).abandoned = true ∨ j = id ∧ answer ≠ .ok ()
  current : e'.current = none
  still : e'.isRunning = false

theorem Punctual.congr (h : f.Punctual id exit deadline answer e') (leaked : f.leaked = e.leaked)
    (settings : f.settings = e.settings)
    (same : ∀ j, (f.queue.slot j).abandoned = (e.queue.slot j).abandoned) :
    e.Punctual id exit deadline answer e' :=
  ⟨h.settles.congr leaked settings, h.ok, h.late, fun j => by rw [h.silenced, same], h.current,
    h.still⟩

theorem isRunning_of_none (none : e.current = none) : e.isRunning = false := by
  simp [isRunning, none]

/-- To give a run up silences no other. -/
theorem abandon_silences (slots : id < e.queue.slots.size) (j : Nat) :
    ((e.abandon id).2.queue.slot j).abandoned = true ↔
      (e.queue.slot j).abandoned = true ∨ j = id := by
  have queue : (e.abandon id).2.queue = e.queue.modifySlot id ({ · with abandoned := true }) := rfl
  rw [queue]
  by_cases own : j = id
  · subst own
    simp [Queue.slot_modifySlot_self e.queue _ slots]
  · simp [Queue.slot_modifySlot_ne e.queue _ own, own]

/-- A wait that ends when the worker has exited, or not before the deadline. -/
theorem finish_punctual (runs : id < e.runs.size) (slots : id < e.queue.slots.size)
    (none : e.current = none) (seen : e.isAlive id = true ↔ ¬Exited exit last)
    (due : e.isAlive id = true → deadline ≤ last) :
    e.Punctual id exit deadline (e.finish id).1 (e.finish id).2 := by
  have settles := finish_settles runs slots
  cases alive : e.isAlive id with
  | false =>
    have done : e.finish id = (.ok (), e) := by simp [finish, alive]
    rw [done] at settles ⊢
    exact ⟨settles, fun _ => rfl, fun h => absurd rfl h, fun j => by simp, none,
      isRunning_of_none none⟩
  | true =>
    have given : e.finish id = (.error (e.abandon id).1, (e.abandon id).2) := by
      simp [finish, alive]
    rw [given] at settles ⊢
    have there := seen.mp alive
    have current : (e.abandon id).2.current = .none := none
    exact ⟨settles, fun h => absurd (h.mono (due alive)) there, fun _ => ⟨last, due alive, there⟩,
      fun j => by simp [abandon_silences slots j], current, isRunning_of_none current⟩

/-- A look ends the wait unless it finds the worker alive before the deadline. -/
theorem poll_eq (e : Engine ω σ) (id : Nat) (deadline now : Instant) :
    e.poll id deadline now =
      if e.isAlive id = true ∧ ¬deadline ≤ now then (none, e)
      else (some (e.finish id).1, (e.finish id).2) := by
  unfold poll finish
  by_cases alive : e.isAlive id = true <;> by_cases due : deadline ≤ now <;> simp [alive, due]

end Engine

namespace Ensemble

variable {s t u : Ensemble ω σ} {l : Label ω} {ls : List (Label ω)} {id : Nat}
  {settings : Settings} {world : ω} {exit : Option Instant} {deadline last : Instant}

/-- The looks at the worker of the run `id` are made one after the other, until one ends the wait.
Before each of them others go on, and it finds the worker alive unless that has exited by then. -/
def Watches (I : Interpreter ω σ) (id : Nat) (exit : Option Instant) (deadline : Instant)
    (s : Ensemble ω σ) : List (List (Label ω) × Instant) → Prop
  | [] => True
  | (others, now) :: looks =>
    (∀ l ∈ others, l.isOfCall = false) ∧ ∃ t, exec I s others = some t ∧
      (t.engine.isAlive id = true ↔ ¬Exited exit now) ∧
      (t.engine.isAlive id = true → ¬deadline ≤ now → Watches I id exit deadline t looks)

theorem Conduct.partings_eq {s' : Ensemble ω σ} (c : Conduct I s l s') (hl : l.isOfCall = false) :
    Note.partings s'.log = Note.partings s.log := by
  cases c with
  | aside _ _ _ _ _ _ partings | work _ _ _ _ _ _ _ _ _ _ _ partings => exact partings
  | launch launch => simp [Ensemble.launch, Note.partings, Note.parting?]
  | silence id goOn => rw [goOn] at hl; cases hl
  | _ => rfl

/-- Nobody but the controller silences a run. -/
theorem Reached.exec_abandoned (reached : Reached I (fun _ => True) (initial settings world) s)
    (others : ∀ l ∈ ls, l.isOfCall = false) (h : exec I s ls = some t) (j : Nat) :
    (t.engine.queue.slot j).abandoned = (s.engine.queue.slot j).abandoned := by
  have partings : Note.partings t.log = Note.partings s.log := by
    induction ls generalizing s with
    | nil =>
      cases h
      rfl
    | cons l ls ih =>
      obtain ⟨own, rest⟩ := List.forall_mem_cons.mp others
      obtain ⟨s₁, step, h⟩ := Option.bind_eq_some_iff.mp h
      exact (ih (reached.step trivial step) rest h).trans
        ((reached.ruled.conduct step).partings_eq own)
  rw [Bool.eq_iff_iff, (reached.of_exec h).abandoned, reached.abandoned, ← Note.mem_partings,
    ← Note.mem_partings, partings]

/-- While a worker is waited for, none is held. The run is not disowned, and its phase is shown. -/
theorem Reached.waited (h : Reached I (fun _ => True) (initial settings world) s)
    (call : s.call = .waiting id none) :
    id < s.engine.runs.size ∧ s.engine.current = none ∧
      (s.engine.queue.slot id).abandoned = false ∧
      s.engine.phase = (s.engine.run id).phase := by
  have holder : s.holder = some id := by simp [holder, call, Call.held?]
  have hid : id < s.engine.runs.size := by
    have := h.sound.holder id holder
    omega
  exact ⟨hid, h.sound.held (by simp [call, Call.held?]),
    h.kept (mt Note.mem_partings.mpr (h.ruled.kept id holder)),
    phase_of_shown (h.ruled.shows id holder) hid⟩

/-- Whenever the wait is ended by an exit or not before the deadline, it has ended as it should. -/
theorem Reached.finish_punctual (reached : Reached I (fun _ => True) (initial settings world) s)
    (call : s.call = .waiting id none) (others : ∀ l ∈ ls, l.isOfCall = false)
    (h : exec I s ls = some t) (seen : t.engine.isAlive id = true ↔ ¬Exited exit last)
    (due : t.engine.isAlive id = true → deadline ≤ last) :
    s.engine.Punctual id exit deadline (t.engine.finish id).1 (t.engine.finish id).2 := by
  have reached' := reached.of_exec h
  have untouched := exec_untouched others h
  obtain ⟨runs, none, -⟩ := reached'.waited (untouched.call.trans call)
  have slots : id < t.engine.queue.slots.size := by rwa [reached'.sound.slots]
  exact (Engine.finish_punctual runs slots none seen due).congr untouched.leaked
    (exec_settings h) (reached.exec_abandoned others h)

/-- The looks come to an end with the first that is not before the deadline, if not earlier, and
have ended the wait as they should. -/
theorem Reached.attend_punctual (reached : Reached I (fun _ => True) (initial settings world) s)
    (call : s.call = .waiting id none) {early : List (List (Label ω) × Instant)}
    (watches : Watches I id exit deadline s (early ++ [(ls, last)])) (due : deadline ≤ last) :
    ∃ answer u,
      (∀ late, attend I id deadline s (early ++ (ls, last) :: late) = some (some answer, u)) ∧
        s.engine.Punctual id exit deadline answer u.engine := by
  -- a look that ends the wait
  have ends {s : Ensemble ω σ} (reached : Reached I (fun _ => True) (initial settings world) s)
      (call : s.call = .waiting id none) {ls : List (Label ω)} {now : Instant} {t : Ensemble ω σ}
      (others : ∀ l ∈ ls, l.isOfCall = false) (run : exec I s ls = some t)
      (seen : t.engine.isAlive id = true ↔ ¬Exited exit now)
      (past : ¬(t.engine.isAlive id = true ∧ ¬deadline ≤ now)) :
      ∃ answer u, (∀ late, attend I id deadline s ((ls, now) :: late) = some (some answer, u)) ∧
        s.engine.Punctual id exit deadline answer u.engine := by
    refine ⟨(t.engine.finish id).1, { t with engine := (t.engine.finish id).2, call := .idle },
      fun late => ?_, ?_⟩
    · simp only [attend, run, Option.bind_some, t.engine.poll_eq, if_neg past]
    · exact reached.finish_punctual call others run seen fun alive => by
        by_contra before
        exact past ⟨alive, before⟩
  induction early generalizing s with
  | nil =>
    obtain ⟨others, t, run, seen, -⟩ := watches
    exact ends reached call others run seen fun h => h.2 due
  | cons look early ih =>
    obtain ⟨ls', now⟩ := look
    obtain ⟨others, t, run, seen, next⟩ := watches
    by_cases goes : t.engine.isAlive id = true ∧ ¬deadline ≤ now
    · have untouched := exec_untouched others run
      obtain ⟨answer, u, result, punctual⟩ :=
        ih (reached.of_exec run) (untouched.call.trans call) (next goes.1 goes.2)
      refine ⟨answer, u, fun late => ?_, punctual.congr untouched.leaked (exec_settings run)
        (reached.exec_abandoned others run)⟩
      rw [List.cons_append, attend, run, Option.bind_some, t.engine.poll_eq, if_pos goes]
      exact result late
    · obtain ⟨answer, u, result, punctual⟩ := ends reached call others run seen goes
      exact ⟨answer, u, fun late => result _, punctual⟩

/-- **Giving up neither too early nor too late.** Let a shutdown be called when the clock can tell
its deadline. Where no worker is held, nothing is done. Else both ways to wait take the worker out,
and whenever it exits both are punctual: the one by the clock, which looks at the worker at any
moments and comes to an end at the latest with the first that is not before the deadline, whatever
looks would follow; and the one that is woken by the exit or when the time is over. -/
theorem shutdown_punctual {before : List (Label ω)}
    (h : exec I (initial settings world) before = some s) (free : s.isFree = true) (now : Instant)
    (fits : now.nanos + settings.joinTimeout.nanos < Instant.limit) :
    (s.engine.current = none → s.engine.shutdownAt now = (.nothing, s.engine) ∧
      s.engine.beginShutdown = (none, s.engine) ∧ s.engine.isRunning = false) ∧
    ∀ id, s.engine.current = some id → ∃ deadline : Instant,
      deadline.nanos = now.nanos + settings.joinTimeout.nanos ∧
      s.engine.shutdownAt now = (.worker id deadline, (s.leaving id).engine) ∧
      s.engine.beginShutdown = (some id, (s.leaving id).engine) ∧
      ∀ exit,
        (∀ early ls last, Watches I id exit deadline (s.leaving id) (early ++ [(ls, last)]) →
          deadline ≤ last → ∃ answer u,
            (∀ late, attend I id deadline (s.leaving id) (early ++ (ls, last) :: late) =
              some (some answer, u)) ∧
            s.engine.Punctual id exit deadline answer u.engine) ∧
        ∀ others u last, (∀ l ∈ others, l.isOfCall = false) →
          exec I (s.leaving id) others = some u →
          (u.engine.isAlive id = true ↔ ¬Exited exit last) →
          (u.engine.isAlive id = true → deadline ≤ last) →
          s.engine.Punctual id exit deadline (u.engine.finish id).1 (u.engine.finish id).2 := by
  have reached := Reached.start.of_exec h
  obtain ⟨-, same, leaked, queue, -⟩ := s.engine.beginShutdown_rest
  rw [s.engine.shutdownAt_eq, exec_settings h]
  refine ⟨fun none => ?_, fun id held => ?_⟩
  · have still := Engine.isRunning_of_none none
    have begun : s.engine.beginShutdown = (.none, { s.engine with current := .none }) := by
      simp [Engine.beginShutdown, Engine.stop, still, Engine.takeWorker, none]
    have unchanged : { s.engine with current := .none } = s.engine := by rw [← none]
    rw [unchanged] at begun
    rw [none, begun]
    exact ⟨rfl, rfl, still⟩
  · obtain ⟨ls, leave⟩ := exec_leaving (I := I) free held
    have reached' := reached.of_exec leave
    have same_flags (j : Nat) : ((s.leaving id).engine.queue.slot j).abandoned =
        (s.engine.queue.slot j).abandoned := by rw [leaving, queue]
    have taken : s.engine.beginShutdown = (some id, (s.leaving id).engine) :=
      Prod.ext (s.engine.stop_rest.1.trans held) rfl
    refine ⟨⟨now.nanos + settings.joinTimeout.nanos⟩, rfl, ?_, taken, fun exit => ⟨?_, ?_⟩⟩
    · rw [held]
      exact congrArg (·, _) (if_pos fits)
    · intro early ls last watches due
      obtain ⟨answer, u, result, punctual⟩ := reached'.attend_punctual rfl watches due
      exact ⟨answer, u, result, punctual.congr leaked same same_flags⟩
    · intro others u last apart run seen due
      exact (reached'.finish_punctual rfl apart run seen due).congr leaked same same_flags

/-- The worker of `stopTaken` is looked at, and ends before the next look, which comes too late. -/
def lateLooks : List (List (Label (List Signal)) × Instant) :=
  [([], ⟨5⟩), ([.other (.worker 0)], ⟨11 * Duration.second⟩)]

/-- A worker that never exits is given up by the look at the deadline. One that exits at the
deadline is not, though it is looked at a second later; nor is one whose exit wakes the
controller. -/
theorem shutdown_punctual_lateLooks :
    launched.engine.Punctual 0 none ⟨10 * Duration.second + 3⟩
        (.error (.joinTimeout (.ofParts 10 0))) workerGivenUp.engine ∧
      (∃ u, attend replay 0 ⟨10 * Duration.second + 3⟩ (stopTaken.leaving 0) lateLooks =
          some (some (.ok ()), u) ∧
        stopTaken.engine.Punctual 0 (some ⟨10 * Duration.second + 3⟩) ⟨10 * Duration.second + 3⟩
          (.ok ()) u.engine) ∧
      stopTaken.engine.Punctual 0 (some ⟨7⟩) ⟨10 * Duration.second + 3⟩ (.ok ()) joined.engine := by
  have worker : ∀ l ∈ ([.other (.worker 0)] : List (Label (List Signal))), l.isOfCall = false := by
    intro l hl
    rw [List.mem_singleton.mp hl]
    rfl
  obtain ⟨d, nanos, -, -, stays⟩ := (shutdown_punctual exec_launched (by decide +kernel) ⟨3⟩
    (by decide +kernel)).2 0 (by decide +kernel)
  obtain rfl : d = ⟨10 * Duration.second + 3⟩ := congrArg Instant.mk nanos
  obtain ⟨d, nanos, -, -, ends⟩ := (shutdown_punctual exec_runToStop (by decide +kernel) ⟨3⟩
    (by decide +kernel)).2 0 (by decide +kernel)
  obtain rfl : d = ⟨10 * Duration.second + 3⟩ := congrArg Instant.mk nanos
  refine ⟨?_, ?_, ?_⟩
  · obtain ⟨answer, u, result, punctual⟩ := (stays none).1 [([.other (.worker 0)], ⟨5⟩)] [] _
      ⟨worker, _, rfl, by decide +kernel, fun _ _ =>
        ⟨nofun, _, rfl, by decide +kernel, fun _ _ => trivial⟩⟩
      (Nat.le_refl _)
    have same := (result []).symm.trans attend_twoLooks
    simp only [Option.some.injEq, Prod.mk.injEq] at same
    obtain ⟨rfl, rfl⟩ := same
    exact punctual
  · obtain ⟨answer, u, result, punctual⟩ := (ends (some ⟨10 * Duration.second + 3⟩)).1 [([], ⟨5⟩)]
      [.other (.worker 0)] ⟨11 * Duration.second⟩
      ⟨nofun, _, rfl, by decide +kernel, fun _ _ =>
        ⟨worker, _, rfl, by decide +kernel, fun _ _ => trivial⟩⟩
      (by decide +kernel)
    obtain rfl := punctual.ok ⟨_, rfl, Nat.le_refl _⟩
    exact ⟨u, result [], punctual⟩
  · have punctual := (ends (some ⟨7⟩)).2 [.other (.worker 0)] joined ⟨7⟩ worker rfl
      (by decide +kernel) (by decide +kernel)
    have finished : joined.engine.finish 0 = (.ok (), joined.engine) := by
      have ended : joined.engine.isAlive 0 = false := by decide +kernel
      simp [Engine.finish, ended]
    rw [finished] at punctual
    exact punctual

end Ensemble
end ScriptHost
