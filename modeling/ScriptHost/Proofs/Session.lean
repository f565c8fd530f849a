import ScriptHost.Proofs.Delivery.Trail
import ScriptHost.Session

/-!
# Sessions are runs

The functions that a controller calls do at one go what the system does in
steps. `Turns` relates an engine to what a call makes of it if a run of the
system leads there.

* `Takes`: the receiver goes on, and nobody else.
* `turns_receive`, `turns_drain`: taking one event, or all.
* `turns_start`, `turns_stop`, `turns_startAfter`, `turns_shutdown`: the calls.
* `turns_passUntil`: letting the others go on.

So whatever a session does, a run of the system does it too: `session_leads`.
-/
namespace ScriptHost

/-- The controller takes messages meanwhile. -/
def Call.listens : Call → Bool
  | .idle | .waiting _ _ => true
  | _ => false

namespace Ensemble

variable {ω σ : Type} {I : Interpreter ω σ} {s s' s'' : Ensemble ω σ} {l : Label ω}
  {e e' e'' : Engine ω σ} {c c' : Call} {es es' : List Event}

/-! ## Runs -/

/-- A run leads from one state to the other. -/
def Leads (I : Interpreter ω σ) (s s' : Ensemble ω σ) : Prop := ∃ ls, exec I s ls = some s'

theorem Leads.refl (s : Ensemble ω σ) : Leads I s s := ⟨[], rfl⟩

theorem Leads.trans (h : Leads I s s') (h' : Leads I s' s'') : Leads I s s'' := by
  obtain ⟨ls, h⟩ := h
  obtain ⟨ls', h'⟩ := h'
  exact ⟨ls ++ ls', by rw [exec_append, h]; exact h'⟩

theorem leads_step (h : s.step I l = some s') : Leads I s s' := ⟨[l], by simp [exec, h]⟩

theorem Leads.sound (h : Leads I s s') (hs : s.Sound) : s'.Sound := by
  obtain ⟨ls, h⟩ := h
  induction ls generalizing s with
  | nil =>
    cases h
    exact hs
  | cons l ls ih =>
    obtain ⟨s₁, h₁, h₂⟩ := Option.bind_eq_some_iff.mp h
    exact ih ((step_cases hs h₁).sound hs) h₂

/-- A run changes the engine from `e` to `e'` while the controller is in the same call before and
behind it, and the receiver hears `es`. -/
def Turns (I : Interpreter ω σ) (c : Call) (e : Engine ω σ) (es : List Event) (e' : Engine ω σ) :
    Prop :=
  ∀ log, Sound ⟨e, c, .resting, log⟩ →
    ∃ ns, Leads I ⟨e, c, .resting, log⟩ ⟨e', c, .resting, log ++ ns⟩ ∧ Note.heard ns = es

theorem Turns.refl (c : Call) (e : Engine ω σ) : Turns I c e [] e :=
  fun log _ => ⟨[], by rw [List.append_nil]; exact .refl _, rfl⟩

theorem Turns.trans (h : Turns I c e es e') (h' : Turns I c e' es' e'') :
    Turns I c e (es ++ es') e'' := by
  intro log hs
  obtain ⟨ns, h₁, rfl⟩ := h log hs
  obtain ⟨ns', h₂, rfl⟩ := h' _ (h₁.sound hs)
  exact ⟨ns ++ ns', by rw [← List.append_assoc]; exact h₁.trans h₂, Note.heard_append ns ns'⟩

/-! ## Taking events -/

/-- The receiver goes on, and leads from one state to the other. -/
def Takes (I : Interpreter ω σ) (s s' : Ensemble ω σ) : Prop :=
  ∃ n, exec I s (List.replicate n .take) = some s'

theorem Takes.refl (s : Ensemble ω σ) : Takes I s s := ⟨0, rfl⟩

theorem Takes.trans (h : Takes I s s') (h' : Takes I s' s'') : Takes I s s'' := by
  obtain ⟨n, h⟩ := h
  obtain ⟨n', h'⟩ := h'
  refine ⟨n + n', ?_⟩
  rw [← List.replicate_append_replicate, exec_append, h]
  exact h'

theorem Takes.leads (h : Takes I s s') : Leads I s s' := ⟨_, h.choose_spec⟩

section
variable (listens : c.listens = true)
include listens

/-- One step of the receiver. -/
theorem takes_step {e : Engine ω σ} {t : Taking} {log : List Note}
    (h : take ⟨e, c, t, log⟩ = some s') : Takes I ⟨e, c, t, log⟩ s' := by
  refine ⟨1, ?_⟩
  cases c with
  | idle | waiting => simpa [exec, step] using h
  | _ => cases listens

/-- What the receiver does with a message in hand. -/
theorem takes_resolve (e : Engine ω σ) (m : Message) (log : List Note) :
    Takes I ⟨e, c, .testing m, log⟩
      (deliver ⟨e, c, .testing m, log⟩ m.run (e.queue.resolve m)) := by
  cases ha : (e.queue.slot m.run).abandoned with
  | true => exact takes_step listens (by simp [take, ha, Queue.resolve])
  | false =>
    cases m with
    | event r x =>
      rw [Message.run_event] at ha
      exact takes_step listens (by simp [take, ha])
    | line r =>
      rw [Message.run_line] at ha
      have turn : take ⟨e, c, .testing (.line r), log⟩ = some ⟨e, c, .clearing r, log⟩ := by
        simp [take, ha]
      refine ((takes_step listens turn).trans (takes_step listens rfl)).trans
        ((takes_step listens rfl).trans (takes_step listens ?_))
      simp [take, Queue.resolve, ha, deliver]

theorem takes_pop {m : Message} {q q' : Queue} {x : Option Event} (log : List Note)
    (h : e.queue.pop? = some (m, q)) (hx : q.resolve m = (x, q')) :
    Takes I ⟨e, c, .resting, log⟩
      ⟨{ e with queue := q' }, c, .resting, log ++ (x.map (Note.delivered m.run)).toList⟩ := by
  have first : Takes I ⟨e, c, .resting, log⟩ ⟨{ e with queue := q }, c, .testing m, log⟩ :=
    takes_step listens (by simp [take, h])
  have second := takes_resolve (I := I) listens { e with queue := q } m log
  rw [hx] at second
  exact first.trans second

omit listens in
theorem heard_deliver (run : Nat) (x : Option Event) :
    Note.heard (x.map (Note.delivered run)).toList = x.toList := by
  cases x <;> rfl

/-- Taking the entries one by one until one is delivered. `q` is the queue with the entries `ms` in
front, as it is or before its back is turned. -/
theorem takes_takeFrom (e : Engine ω σ) (ms : List Message) (q q₀ : Queue) (log : List Note)
    (none : ms = [] → q₀ = { q with front := [] })
    (some : ∀ m rest, ms = m :: rest → q₀.pop? = some (m, { q with front := rest })) :
    ∃ ns, Takes I ⟨{ e with queue := q₀ }, c, .resting, log⟩
        ⟨{ e with queue := (q.takeFrom ms).2 }, c, .resting, log ++ ns⟩ ∧
      Note.heard ns = (q.takeFrom ms).1.toList := by
  induction ms generalizing q q₀ log with
  | nil =>
    rw [none rfl, Queue.takeFrom]
    exact ⟨[], by rw [List.append_nil]; exact .refl _, rfl⟩
  | cons m rest ih =>
    rw [Queue.takeFrom]
    rcases hx : q.resolve m with ⟨x, q'⟩
    have hx' : Queue.resolve { q with front := rest } m = (x, { q' with front := rest }) := by
      have back : q'.back = q.back := by
        have := (Queue.ends_resolve q m).2
        rwa [hx] at this
      have := Queue.resolve_ends q m rest q.back
      rw [hx, ← back] at this
      rwa [← back]
    have first := takes_pop (I := I) listens (e := { e with queue := q₀ }) log (some m rest rfl) hx'
    cases x with
    | none =>
      rw [Option.map_none, Option.toList_none, List.append_nil] at first
      obtain ⟨ns, h, hn⟩ := ih q' { q' with front := rest } log (fun hr => by rw [hr])
        (fun m rest' hr => by rw [hr, Queue.pop?])
      exact ⟨ns, first.trans h, hn⟩
    | some x => exact ⟨_, first, heard_deliver _ _⟩

/-- Taking an event. -/
theorem takes_receive (e : Engine ω σ) (log : List Note) :
    ∃ ns, Takes I ⟨e, c, .resting, log⟩ ⟨{ e with queue := e.queue.receive.2 }, c, .resting, log ++ ns⟩ ∧
      Note.heard ns = e.queue.receive.1.toList := by
  obtain ⟨ns, h, hn⟩ := takes_takeFrom (I := I) listens e e.queue.front e.queue e.queue log
    (fun h => by rw [← h]) (fun m rest h => by simp [Queue.pop?, h])
  rw [Queue.receive]
  rcases hx : e.queue.takeFrom e.queue.front with ⟨_ | x, q⟩
  · rw [hx] at h hn
    have hf : q.front = [] := by
      have : (e.queue.takeFrom e.queue.front).1 = none := by rw [hx]
      have := Queue.takeFrom_none this
      rwa [hx] at this
    obtain ⟨ns', h', hn'⟩ := takes_takeFrom (I := I) listens e q.back.reverse { q with back := [] } q (log ++ ns)
      (fun hb => by
        obtain ⟨slots, front, back, lastLine, receiving⟩ := q
        simp_all)
      (fun m rest hb => by simp [Queue.pop?, hf, hb])
    refine ⟨ns ++ ns', ?_, by rw [Note.heard_append, hn, hn']; rfl⟩
    rw [← List.append_assoc]
    exact h.trans h'
  · rw [hx] at h hn
    exact ⟨ns, h, hn⟩

theorem turns_receive (e : Engine ω σ) :
    Turns I c e e.queue.receive.1.toList { e with queue := e.queue.receive.2 } := by
  intro log _
  obtain ⟨ns, h, hn⟩ := takes_receive (I := I) listens e log
  exact ⟨ns, h.leads, hn⟩

/-- Taking all entries; `q` is the queue without them. -/
theorem takes_drainFrom (e : Engine ω σ) (ms : List Message) (q : Queue) (seen : List Event)
    (log : List Note) (front back : List Message) (list : front ++ back.reverse = ms)
    (empty : q.front = [] ∧ q.back = []) :
    ∃ ns, Takes I ⟨{ e with queue := { q with front, back } }, c, .resting, log⟩
        ⟨{ e with queue := (q.drainFrom seen ms).2 }, c, .resting, log ++ ns⟩ ∧
      (q.drainFrom seen ms).1 = seen.reverse ++ Note.heard ns := by
  induction ms generalizing q seen log front back with
  | nil =>
    obtain ⟨rfl, hb⟩ : front = [] ∧ back = [] := by simpa using list
    have : ({ q with front := [], back } : Queue) = q := by
      obtain ⟨slots, front, back', lastLine, receiving⟩ := q
      simp_all
    rw [this]
    exact ⟨[], by rw [List.append_nil]; exact .refl _, (List.append_nil _).symm⟩
  | cons m rest ih =>
    obtain ⟨front', back', pop, list'⟩ : ∃ front' back', Queue.pop? { q with front, back } =
        some (m, { q with front := front', back := back' }) ∧ front' ++ back'.reverse = rest := by
      cases front with
      | nil => exact ⟨rest, [], by simp [Queue.pop?, show back.reverse = m :: rest from list], by simp⟩
      | cons m' front =>
        obtain ⟨rfl, rfl⟩ := List.cons.inj list
        exact ⟨front, back, rfl, rfl⟩
    rcases hx : q.resolve m with ⟨x, q'⟩
    have hx' := Queue.resolve_ends q m front' back'
    have empty' := Queue.ends_resolve q m
    rw [hx] at hx' empty'
    rw [empty.1, empty.2] at empty'
    have first := takes_pop (I := I) listens (e := { e with queue := { q with front, back } }) log pop hx'
    rw [Queue.drainFrom, hx]
    cases x with
    | none =>
      rw [Option.map_none, Option.toList_none, List.append_nil] at first
      obtain ⟨ns, h, hn⟩ := ih q' seen log front' back' list' empty'
      exact ⟨ns, first.trans h, hn⟩
    | some x =>
      obtain ⟨ns, h, hn⟩ := ih q' (x :: seen) (log ++ [.delivered m.run x]) front' back' list' empty'
      refine ⟨[.delivered m.run x] ++ ns, by rw [← List.append_assoc]; exact first.trans h, ?_⟩
      rw [Note.heard_append, hn]
      simp

/-- Taking all events. -/
theorem takes_drain (e : Engine ω σ) (log : List Note) :
    ∃ ns, Takes I ⟨e, c, .resting, log⟩ ⟨{ e with queue := e.queue.drain.2 }, c, .resting, log ++ ns⟩ ∧
      Note.heard ns = e.queue.drain.1 := by
  obtain ⟨ns, h, hn⟩ := takes_drainFrom (I := I) listens e e.queue.toList { e.queue with front := [], back := [] }
    [] log e.queue.front e.queue.back rfl ⟨rfl, rfl⟩
  exact ⟨ns, h, hn.symm⟩

theorem turns_drain (e : Engine ω σ) :
    Turns I c e e.queue.drain.1 { e with queue := e.queue.drain.2 } := by
  intro log _
  obtain ⟨ns, h, hn⟩ := takes_drain (I := I) listens e log
  exact ⟨ns, h.leads, hn⟩

end

/-! ## The controller -/

theorem turns_label {e e' : Engine ω σ} (h : ∀ log, step I ⟨e, c, .resting, log⟩ l =
    some ⟨e', c, .resting, log⟩) : Turns I c e [] e' :=
  fun log _ => ⟨[], by rw [List.append_nil]; exact leads_step (h log), rfl⟩

theorem turns_setScript (e : Engine ω σ) (source : ByteArray) :
    Turns I .idle e [] (e.setScript source).2 :=
  turns_label (l := .setScript source) fun _ => by simp [step, isFree]

theorem turns_setSearchDirs (e : Engine ω σ) (dirs : List String) :
    Turns I .idle e [] (e.setSearchDirs dirs).2 :=
  turns_label (l := .setSearchDirs dirs) fun _ => by simp [step, isFree]

theorem turns_outside (e : Engine ω σ) (c : Call) (world : ω) :
    Turns I c e [] { e with world } :=
  turns_label (l := .outside world) fun _ => rfl

/-- A stop, and what a shutdown does before it waits. -/
theorem leads_stop (e : Engine ω σ) (leave : Bool) (log : List Note) :
    Leads I ⟨e, .idle, .resting, log⟩ (afterStop ⟨e.stop, .idle, .resting, log⟩ leave) := by
  have first : Leads I ⟨e, .idle, .resting, log⟩ (requestStop ⟨e, .idle, .resting, log⟩ leave) := by
    cases leave with
    | false => exact leads_step (l := .stop) (by simp [step, isFree])
    | true => exact leads_step (l := .shutdown) (by simp [step, isFree])
  refine first.trans ?_
  cases hc : e.current with
  | none =>
    have : e.stop = e := by simp [Engine.stop, hc]
    rw [this, requestStop, hc]
    exact .refl _
  | some id =>
    cases hr : e.isRunning with
    | false =>
      have : e.stop = e := by simp [Engine.stop, hr]
      rw [this]
      simp only [requestStop, hc, hr]
      exact .refl _
    | true =>
      have : e.stop = (e.cancel id).showRequest id := by simp [Engine.stop, hr, hc]
      rw [this]
      simp only [requestStop, hc, hr]
      exact ⟨[.goOn, .goOn], by simp [exec, step, goOn, afterStop]; cases leave <;> rfl⟩

theorem turns_stop (e : Engine ω σ) : Turns I .idle e [] e.stop :=
  fun log _ => ⟨[], by rw [List.append_nil]; exact leads_stop e false log, rfl⟩

/-- Giving up a wait. -/
theorem leads_abandon {id : Nat} (next : Option Launch) (log : List Note)
    (hid : id < e.queue.slots.size) :
    Leads I ⟨e, .waiting id next, .resting, log⟩
      ⟨(e.abandon id).2, .idle, .resting, log ++ [.abandoned id]⟩ := by
  have ha : ((((e.cancel id).silence id).queue.slot id).abandoned) = true := by
    have : ((e.cancel id).silence id).queue = e.queue.abandon id := rfl
    rw [this, Queue.abandon, Queue.slot_modifySlot_self _ _ hid]
  exact ⟨[.giveUp, .goOn, .goOn, .dropPump id], by simp [exec, step, goOn, ha, Engine.abandon]⟩

theorem leads_finish {id : Nat} {log : List Note} (hs : Sound ⟨e, .waiting id none, .resting, log⟩) :
    ∃ ns, Leads I ⟨e, .waiting id none, .resting, log⟩
        ⟨(e.finish id).2, .idle, .resting, log ++ ns⟩ ∧ Note.heard ns = [] := by
  have hid : id + 1 = e.runs.size := hs.holder id rfl
  have hn : e.queue.slots.size = e.runs.size := hs.slots
  cases ha : e.isAlive id with
  | true =>
    have : (e.finish id).2 = (e.abandon id).2 := by simp [Engine.finish, ha]
    rw [this]
    exact ⟨[.abandoned id], leads_abandon none log (by omega), rfl⟩
  | false =>
    have : (e.finish id).2 = e := by simp [Engine.finish, ha]
    rw [this]
    exact ⟨[], leads_step (l := .goOn) (by simp [step, goOn, ha, proceed]), rfl⟩

theorem turns_start (e : Engine ω σ) (launch : Launch) : Turns I .idle e [] (e.start launch).2 := by
  intro log hs
  cases hr : e.isRunning with
  | true =>
    have : (e.start launch).2 = e := by simp [Engine.start, hr]
    rw [this]
    exact ⟨[], by rw [List.append_nil]; exact .refl _, rfl⟩
  | false =>
    have first : Leads I ⟨e, .idle, .resting, log⟩ (await ⟨e, .idle, .resting, log⟩ (some launch)) :=
      leads_step (l := .start launch) (by simp [step, isFree, hr])
    cases hc : e.current with
    | none =>
      have he : ({ e with current := none } : Engine ω σ) = e := by rw [← hc]
      have : (e.start launch).2 = (e.launch launch).2 := by
        simp [Engine.start, hr, Engine.finishCurrent, Engine.takeWorker, hc, he]
      rw [this]
      refine ⟨[.launched e.runs.size launch], ?_, rfl⟩
      simpa [await, Engine.takeWorker, hc, he, proceed, Ensemble.launch] using first
    | some id =>
      have first : Leads I ⟨e, .idle, .resting, log⟩
          ⟨{ e with current := none }, .waiting id (some launch), .resting, log⟩ := by
        simpa [await, Engine.takeWorker, hc] using first
      have hid : id + 1 = e.runs.size := hs.holder id (by simp [holder, Call.held?, hc])
      have hn : e.queue.slots.size = e.runs.size := hs.slots
      cases ha : e.isAlive id with
      | true =>
        have : (e.start launch).2 = (Engine.abandon { e with current := none } id).2 := by
          have ha : Engine.isAlive { e with current := none } id = true := ha
          simp [Engine.start, hr, Engine.finishCurrent, Engine.takeWorker, hc, Engine.finish, ha]
        rw [this]
        exact ⟨[.abandoned id], first.trans (leads_abandon (some launch) log (by simp only; omega)), rfl⟩
      | false =>
        have ha : Engine.isAlive { e with current := none } id = false := ha
        have : (e.start launch).2 = (Engine.launch { e with current := none } launch).2 := by
          simp [Engine.start, hr, Engine.finishCurrent, Engine.takeWorker, hc, Engine.finish, ha]
        rw [this]
        refine ⟨[.launched e.runs.size launch], first.trans (leads_step (l := .goOn) ?_), rfl⟩
        simp [step, goOn, ha, proceed, Ensemble.launch]

/-! ## The others -/

theorem heard_notesOf (id : Nat) (r : Run σ) : Note.heard (notesOf I id r) = [] := by
  unfold notesOf
  split
  · split
    · split <;> rfl
    · rfl
    · rfl
  · rfl
  · split <;> rfl
  · rfl

theorem turns_step (e : Engine ω σ) (c : Call) (a : Actor) : Turns I c e [] (e.step I a) := by
  intro log _
  refine ⟨_, leads_step (l := .other a) rfl, ?_⟩
  cases a with
  | worker id =>
    cases hr : e.runs[id]? with
    | none => simp [hr, Note.heard]
    | some r => simpa [hr] using heard_notesOf id r
  | _ => rfl

theorem turns_turnWorker (e : Engine ω σ) (c : Call) (id : Nat) :
    Turns I c e [] (e.turnWorker I id) := by
  unfold Engine.turnWorker
  dsimp only
  split
  · exact (turns_step e c _).trans (turns_step _ c _)
  · exact turns_step e c _

theorem turns_turnPump (e : Engine ω σ) (c : Call) (id : Nat) :
    Turns I c e [] (e.turnPump I id) := by
  unfold Engine.turnPump
  dsimp only
  split
  · exact (turns_step e c _).trans (turns_step _ c _)
  · exact turns_step e c _

theorem turns_round (e : Engine ω σ) (c : Call) : Turns I c e [] (e.round I) := by
  have turns (n : Nat) : Turns I c e [] (n.fold (fun id _ (e : Engine ω σ) =>
      (e.turnWorker I id).turnPump I id) e) := by
    induction n with
    | zero => exact .refl c e
    | succ n ih =>
      rw [Nat.fold_succ]
      exact ih.trans ((turns_turnWorker _ c n).trans (turns_turnPump _ c n))
  exact turns e.runs.size

theorem turns_passUntil (done : Engine ω σ → Bool) (n : Nat) (e : Engine ω σ) (c : Call) :
    Turns I c e [] (e.passUntil I done n) := by
  induction n generalizing e with
  | zero => exact .refl c e
  | succ n ih =>
    unfold Engine.passUntil
    split
    · exact .refl c e
    · dsimp only
      split
      · exact turns_round e c
      · exact (turns_round e c).trans (ih _)

theorem turns_startAfter (e : Engine ω σ) (launch : Launch) :
    Turns I .idle e [] (e.startAfter I launch).2 := by
  unfold Engine.startAfter
  split
  · exact turns_start e launch
  · split
    · exact (turns_passUntil _ _ e .idle).trans (turns_start _ launch)
    · exact turns_start e launch

theorem turns_shutdown (e : Engine ω σ) : Turns I .idle e [] (e.shutdown I).2 := by
  intro log hs
  have first := leads_stop (I := I) e true log
  unfold Engine.shutdown Engine.beginShutdown Engine.takeWorker
  cases hc : e.stop.current with
  | none =>
    have he : ({ e.stop with current := none } : Engine ω σ) = e.stop := by rw [← hc]
    refine ⟨[], ?_, rfl⟩
    simpa [afterStop, await, Engine.takeWorker, hc, he, proceed] using first
  | some id =>
    have first : Leads I ⟨e, .idle, .resting, log⟩
        ⟨{ e.stop with current := none }, .waiting id none, .resting, log⟩ := by
      simpa [afterStop, await, Engine.takeWorker, hc] using first
    obtain ⟨ns, second, h1⟩ := turns_passUntil (I := I) (fun e => !e.isAlive id)
      (Engine.patience e.stop.settings.joinTimeout) { e.stop with current := none } (.waiting id none) log
      (first.sound hs)
    obtain ⟨ns', third, h2⟩ := leads_finish (I := I) (second.sound (first.sound hs))
    refine ⟨ns ++ ns', ?_, by rw [Note.heard_append, h1, h2]; rfl⟩
    rw [← List.append_assoc]
    exact (first.trans second).trans third

end Ensemble

namespace Session

open Ensemble

variable {s s' s'' : Session}

/-- A run leads from the engine of one session to that of another. -/
def Turns (s s' : Session) : Prop :=
  ∃ es, Ensemble.Turns Script.interpreter .idle s.engine es s'.engine

theorem Turns.refl (s : Session) : s.Turns s := ⟨[], .refl _ _⟩

theorem Turns.trans (h : s.Turns s') (h' : s'.Turns s'') : s.Turns s'' := by
  obtain ⟨es, h⟩ := h
  obtain ⟨es', h'⟩ := h'
  exact ⟨es ++ es', h.trans h'⟩

theorem record_engine (s : Session) (e : Event) : (s.record e).engine = s.engine := by
  cases e <;> rfl

theorem take_turns (s : Session) : s.Turns s.take.2 := by
  refine ⟨s.engine.queue.receive.1.toList, ?_⟩
  have h := turns_receive (I := Script.interpreter) (c := .idle) rfl s.engine
  unfold take
  rcases hx : s.engine.queue.receive with ⟨_ | x, q⟩
  · rw [hx] at h
    exact h
  · rw [hx] at h
    simpa only [record_engine] using h

theorem takeUntil_turns (found : Session → Event → Bool) (n : Nat) (s : Session) :
    s.Turns (takeUntil found n s) := by
  induction n generalizing s with
  | zero => exact .refl s
  | succ n ih =>
    have first := take_turns s
    unfold takeUntil
    rcases hx : s.take with ⟨_ | x, s₁⟩
    · rw [hx] at first
      have second : s₁.Turns s₁.pass.2 := ⟨_, turns_round s₁.engine .idle⟩
      dsimp only
      split
      · exact (first.trans second).trans (ih _)
      · exact (first.trans second).trans (take_turns _)
    · rw [hx] at first
      dsimp only
      split
      · exact first
      · exact first.trans (ih _)

theorem takeQueued_turns (s : Session) : s.Turns s.takeQueued := by
  have keeps (es : List Event) (s : Session) : (es.foldl record s).engine = s.engine := by
    induction es generalizing s with
    | nil => rfl
    | cons e es ih => rw [List.foldl_cons, ih, record_engine]
  refine ⟨s.engine.queue.drain.1, ?_⟩
  have h := turns_drain (I := Script.interpreter) (c := .idle) rfl s.engine
  rw [takeQueued]
  rcases hx : s.engine.queue.drain with ⟨es, q⟩
  rw [hx] at h
  simpa only [keeps] using h

theorem perform_turns (fuel : Nat) (s : Session) (c : Command) : s.Turns (s.perform fuel c).2 := by
  cases c with
  | setScript source => exact ⟨_, turns_setScript s.engine source⟩
  | setSearchDirs dirs => exact ⟨_, turns_setSearchDirs s.engine dirs⟩
  | start l =>
    refine ⟨[], ?_⟩
    have h := turns_startAfter (I := Script.interpreter) s.engine l
    unfold perform
    dsimp only
    split <;> exact h
  | stop => exact ⟨_, turns_stop s.engine⟩
  | shutdown | release => exact ⟨_, turns_shutdown s.engine⟩
  | isRunning | phase | leaked | settings | payload => exact .refl s
  | waitOutput text =>
    unfold perform
    dsimp only
    split
    · exact .refl s
    · exact takeUntil_turns _ fuel s
  | waitStopped | waitEnd => exact takeUntil_turns _ fuel s
  | drain => exact takeQueued_turns s
  | openGate name =>
    exact ⟨_, (turns_outside s.engine .idle _).trans (turns_passUntil _ _ _ .idle)⟩
  | closeGate name | writeFile name content => exact ⟨_, turns_outside s.engine .idle _⟩

/-- **Sessions are runs.** Whatever a session is asked to do, a run of the system leads to its
engine. -/
theorem session_leads (fuel : Nat) (settings : Settings) (world : Script.World) (cs : List Command) :
    ∃ log, Leads Script.interpreter (initial settings world)
      ⟨(cs.foldl (fun s c => (perform fuel s c).2) { engine := { settings, world } }).engine, .idle,
        .resting, log⟩ := by
  have turns (s : Session) : s.Turns (cs.foldl (fun s c => (perform fuel s c).2) s) := by
    induction cs generalizing s with
    | nil => exact .refl s
    | cons c cs ih => exact (perform_turns fuel s c).trans (ih _)
  obtain ⟨es, h⟩ := turns { engine := { settings, world } }
  obtain ⟨ns, h, -⟩ := h [] (sound_initial settings world)
  exact ⟨_, h⟩

end Session
end ScriptHost
