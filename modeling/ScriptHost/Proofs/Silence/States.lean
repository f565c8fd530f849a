import ScriptHost.Proofs.Control.Rule
import ScriptHost.Proofs.Delivery.Order
import ScriptHost.Proofs.Silence.Engines

/-!
# States that differ in a disowned run

Two states of the system are alike for a run when their engines are, and the
controller and the receiver are in the same state in both; but the receiver may
have a message of that run in hand in the first, where it rests in the second.

* `aloof_of_gone`: neither has to do with a run that is disowned.
* `Alike.requestStop`, `Alike.goOn`, `Alike.take` and the like: what they do
  keeps the states alike.
-/
namespace ScriptHost

variable {ω σ : Type} {I : Interpreter ω σ} {id : Nat}

namespace Ensemble

/-- The states agree but for the run `id`, which is disowned in both. -/
structure Alike (id : Nat) (s t : Ensemble ω σ) : Prop where
  engine : s.engine.Alike id t.engine
  call : s.call = t.call
  taking : s.taking = t.taking ∨
    ∃ m : Message, m.run = id ∧ s.taking = .testing m ∧ t.taking = .resting
  heard : Note.deliveries s.log = Note.deliveries t.log

/-- The controller and the receiver have nothing to do with the run `id`. -/
structure Aloof (s : Ensemble ω σ) (id : Nat) : Prop where
  receiving : s.engine.queue.receiving = true
  slot : id < s.engine.queue.slots.size
  current : s.engine.current ≠ some id
  shown : s.engine.shown ≠ .run id
  held : s.call.held? ≠ some id
  reads : ¬ s.taking.reads id

variable {s s' t t' : Ensemble ω σ} {l : Label ω}

/-- They have nothing to do with a run that is disowned. -/
theorem aloof_of_gone (hs : s.Sound) (hr : s.Ruled) (gone : id ∈ Note.partings s.log)
    (abandoned : (s.engine.queue.slot id).abandoned = true) : s.Aloof id := by
  have loose : s.holder ≠ some id := fun held => hr.kept id held gone
  refine ⟨hs.receiving, ?_, fun current => ?_, fun shown => (hr.shown id shown).2.1 gone,
    fun held => ?_, fun reads => ?_⟩
  · rw [hs.slots]
    exact parting_lt hs gone
  · cases hc : s.call.held? with
    | none => exact loose ((holder_of_held hc).trans current)
    | some j =>
      rw [hs.held (by simp [hc])] at current
      cases current
  · exact loose (by simp [holder, held])
  · rw [hs.reads id reads] at abandoned
    cases abandoned

namespace Alike

/-! ## The controller -/

theorem isRunning_eq (a : Alike id s t) (al : s.Aloof id) :
    s.engine.isRunning = t.engine.isRunning := a.engine.isRunning_eq al.current al.shown

theorem resting (a : Alike id s t) (h : s.taking = .resting) : t.taking = .resting := by
  rcases a.taking with same | ⟨_, _, hand, _⟩
  · rw [← same, h]
  · rw [hand] at h
    cases h

theorem isFree (a : Alike id s t) (h : s.isFree = true) : t.isFree = true := by
  obtain ⟨idle, rest⟩ := isFree_iff.mp h
  exact isFree_iff.mpr ⟨a.call ▸ idle, a.resting rest⟩

/-- The controller changes the engine. -/
theorem set_engine (a : Alike id s t) {e f : Engine ω σ} (h : e.Alike id f) :
    Alike id { s with engine := e } { t with engine := f } :=
  ⟨h, a.call, a.taking, a.heard⟩

/-- The controller changes the engine and is in another call. -/
theorem with_engine (a : Alike id s t) {e f : Engine ω σ} (h : e.Alike id f) (c : Call) :
    Alike id { s with engine := e, call := c } { t with engine := f, call := c } :=
  ⟨h, rfl, a.taking, a.heard⟩

theorem with_call (a : Alike id s t) (c : Call) : Alike id { s with call := c } { t with call := c } :=
  a.with_engine a.engine c

theorem launch (a : Alike id s t) (al : id < s.engine.queue.slots.size) (l : Launch) :
    Alike id (s.launch l) (t.launch l) := by
  refine ⟨(a.engine.launch al l).2, rfl, a.taking, ?_⟩
  simp only [Ensemble.launch, Note.deliveries_append, a.heard]
  rfl

theorem proceed (a : Alike id s t) (al : id < s.engine.queue.slots.size) (next : Option Launch) :
    Alike id (s.proceed next) (t.proceed next) := by
  cases next with
  | some l => exact a.launch al l
  | none => exact a.with_call .idle

theorem await (a : Alike id s t) (al : id < s.engine.queue.slots.size) (next : Option Launch) :
    Alike id (s.await next) (t.await next) := by
  have taken : ({ s.engine with current := none } : Engine ω σ).Alike id
      { t.engine with current := none } := { a.engine with current := rfl }
  unfold Ensemble.await Engine.takeWorker
  rw [← a.engine.current]
  cases s.engine.current with
  | some j => exact a.with_engine taken _
  | none =>
    exact (a.set_engine taken).proceed al next

theorem afterStop (a : Alike id s t) (al : id < s.engine.queue.slots.size) (leave : Bool) :
    Alike id (s.afterStop leave) (t.afterStop leave) := by
  cases leave with
  | true => exact a.await al none
  | false => exact a.with_call .idle

theorem requestStop (a : Alike id s t) (al : s.Aloof id) (leave : Bool) :
    Alike id (s.requestStop leave) (t.requestStop leave) := by
  unfold Ensemble.requestStop
  rw [← a.engine.current, ← a.isRunning_eq al]
  cases s.engine.current with
  | none => exact a.afterStop al.slot leave
  | some j =>
    dsimp only
    split
    · exact a.with_call _
    · exact a.afterStop al.slot leave

theorem goOn (a : Alike id s t) (al : s.Aloof id) (h : s.goOn = some s') :
    ∃ t', t.goOn = some t' ∧ Alike id s' t' := by
  unfold Ensemble.goOn at h ⊢
  rw [← a.call]
  cases hc : s.call with
  | idle => simp [hc] at h
  | cancelling j leave =>
    simp only [hc, Option.some.injEq] at h
    subst h
    exact ⟨_, rfl, a.with_engine (a.engine.modifyRun _ j) _⟩
  | marking j leave =>
    simp only [hc, Option.some.injEq] at h
    subst h
    have marked : Alike id { s with engine := s.engine.showRequest j }
        { t with engine := t.engine.showRequest j } := a.set_engine (a.engine.modifyRun _ j)
    rw [a.call] at hc
    exact ⟨_, rfl, marked.afterStop al.slot leave⟩
  | waiting j next =>
    simp only [hc] at h
    have hj : j ≠ id := by
      rintro rfl
      exact al.held (by simp [hc, Call.held?])
    rw [a.engine.isAlive_eq hj] at h
    cases alive : t.engine.isAlive j with
    | true => simp [alive] at h
    | false =>
      simp only [alive, Bool.false_eq_true, if_false, Option.some.injEq] at h ⊢
      subst h
      exact ⟨_, rfl, a.proceed al.slot next⟩
  | abandoning j =>
    simp only [hc, Option.some.injEq] at h
    subst h
    exact ⟨_, rfl, a.with_engine (a.engine.modifyRun _ j) _⟩
  | silencing j =>
    simp only [hc, Option.some.injEq] at h
    subst h
    refine ⟨_, rfl, a.engine.silence j, rfl, a.taking, ?_⟩
    simp only [Note.deliveries_append, a.heard]

/-! ## The receiver -/

/-- The receiver is done with a message of which both queues make the same. -/
theorem deliver (a : Alike id s t) (run : Nat) {x y : Option Event × Queue} (told : x.1 = y.1)
    (queue : x.2.Alike id y.2) : Alike id (s.deliver run x) (t.deliver run y) := by
  refine ⟨{ a.engine with queue }, a.call, .inl rfl, ?_⟩
  simp only [Ensemble.deliver, Note.deliveries_append, a.heard, told]

theorem drop (a : Alike id s t) (run : Nat) :
    Alike id (s.deliver run (none, s.engine.queue)) (t.deliver run (none, t.engine.queue)) :=
  a.deliver run rfl a.engine.queue

/-- The receiver goes on with the same in hand. -/
theorem move (a : Alike id s t) {q p : Queue} (queue : q.Alike id p) (τ : Taking) :
    Alike id { s with engine.queue := q, taking := τ } { t with engine.queue := p, taking := τ } :=
  ⟨{ a.engine with queue }, a.call, .inl rfl, a.heard⟩

/-- The receiver looks at a message that it has in hand in both. -/
theorem take_testing (a : Alike id s t) {m : Message} (hs : s.taking = .testing m)
    (ht : t.taking = .testing m) (h : s.take = some s') : ∃ t', t.take = some t' ∧ Alike id s' t' := by
  have queue := a.engine.queue
  by_cases own : m.run = id
  · simp only [Ensemble.take, hs, own, queue.gone, if_true, Option.some.injEq] at h
    subst h
    exact ⟨_, by simp only [Ensemble.take, ht, own, queue.gone', if_true], a.drop id⟩
  · simp only [Ensemble.take, hs, queue.slot _ own] at h
    simp only [Ensemble.take, ht]
    split at h
    · rename_i gone
      cases h
      exact ⟨_, if_pos gone, a.drop _⟩
    · rename_i kept
      rw [if_neg kept]
      cases m with
      | event r e =>
        cases h
        obtain ⟨told, queue'⟩ := queue.resolve (.event r e)
        exact ⟨_, rfl, a.deliver r told queue'⟩
      | line r =>
        cases h
        exact ⟨_, rfl, a.move queue _⟩

/-- The receiver goes on in both, or with a message that it has in the first alone. -/
theorem take (a : Alike id s t) (al : s.Aloof id) (h : s.take = some s') :
    (∃ t', t.take = some t' ∧ Alike id s' t') ∨ Alike id s' t := by
  have queue := a.engine.queue
  rcases a.taking with same | ⟨m, own, hand, rest⟩
  · cases hs : s.taking with
    | resting =>
      -- the message is the oldest in both queues, or the disowned run has sent it to the first alone
      have ht := same.symm.trans hs
      simp only [Ensemble.take, hs, Option.map_eq_some_iff] at h
      obtain ⟨⟨m, q'⟩, pop, rfl⟩ := h
      rcases queue.pop pop with ⟨p', pop', alike⟩ | ⟨own, alike⟩
      · exact .inl ⟨_, by simp only [Ensemble.take, ht, pop', Option.map_some], a.move alike _⟩
      · exact .inr ⟨{ a.engine with queue := alike }, a.call, .inr ⟨m, own, rfl, ht⟩, a.heard⟩
    | testing m => exact .inl (a.take_testing hs (same.symm.trans hs) h)
    | clearing r =>
      simp only [Ensemble.take, hs, Option.some.injEq] at h
      subst h
      have cleared : (s.engine.queue.clearQueued r).Alike id (t.engine.queue.clearQueued r) :=
        queue.modifySlot (by intro _ gone; exact gone) r
      exact .inl ⟨_, by simp only [Ensemble.take, same.symm.trans hs], a.move cleared _⟩
    | loading r =>
      have hr : r ≠ id := by
        rintro rfl
        exact al.reads (.inr (.inl hs))
      simp only [Ensemble.take, hs, Option.some.injEq, queue.slot r hr] at h
      subst h
      exact .inl ⟨_, by simp only [Ensemble.take, same.symm.trans hs], a.move queue _⟩
    | comparing r n =>
      simp only [Ensemble.take, hs, Option.some.injEq] at h
      subst h
      obtain ⟨told, queue'⟩ := queue.deliverLine n
      exact .inl ⟨_, by simp only [Ensemble.take, same.symm.trans hs], a.deliver r told queue'⟩
  · simp only [Ensemble.take, hand, own, queue.gone, if_true, Option.some.injEq] at h
    subst h
    refine .inr ⟨{ a.engine with queue }, a.call, .inl rest.symm, ?_⟩
    simp [Ensemble.deliver, a.heard]

/-! ## Workers and pumps -/

theorem deliveries_notesOf (j : Nat) (r : Run σ) : Note.deliveries (notesOf I j r) = [] := by
  unfold notesOf
  split
  · split
    · split <;> rfl
    · rfl
    · rfl
  · rfl
  · split <;> rfl
  · rfl

/-- What workers and pumps note is delivered to nobody. -/
theorem heard_act (s : Ensemble ω σ) (a : Actor) :
    Note.deliveries (s.act I a).log = Note.deliveries s.log := by
  cases a with
  | worker j =>
    rw [Ensemble.act, Note.deliveries_append]
    cases hr : s.engine.runs[j]? with
    | none => simp [Note.deliveries]
    | some r => simp [deliveries_notesOf]
  | _ => simp [Ensemble.act]

/-- The worker or the pump of another run goes on. -/
theorem act (a : Alike id s t) {x : Actor} (hx : x.run ≠ id) :
    Alike id (s.act I x) (t.act I x) := by
  refine ⟨a.engine.step hx, a.call, a.taking, ?_⟩
  rw [heard_act, heard_act, a.heard]

/-- The worker or the pump of the disowned run goes on in the first, and the world in the second. -/
theorem act_own (a : Alike id s t) (al : s.Aloof id) {x : Actor} (hx : x.run = id) :
    Alike id (s.act I x) { t with engine.world := (s.act I x).engine.world } := by
  refine ⟨a.engine.own hx al.slot al.receiving, a.call, a.taking, ?_⟩
  rw [heard_act, a.heard]

end Alike
end Ensemble
end ScriptHost
