import ScriptHost.Proofs.Control.Sight
import ScriptHost.Proofs.Recovery.Engines
import ScriptHost.Proofs.Silence.States

/-!
# States that differ in runs that were refused

One state of the system is another with extra runs when its engine is, and the
controller has heard the same in both but for those runs. The receiver is in the
same state in both, or has the message of an extra run in hand in the first,
where it rests in the second.

* `Added.act`, `Added.take`, `Added.dropPump`: what workers, pumps and the
  receiver do keeps the states so.
* `Added.step_apart`: so does every step that is not the controller's; in the
  second it is made under the number that the run has there, or not at all.
-/
namespace ScriptHost

variable {ω σ : Type} {I : Interpreter ω σ} {x : Extra}

/-- What the receiver has in hand, under the number that the run has in the other history. -/
def Taking.place (x : Extra) : Taking → Taking
  | .resting => .resting
  | .testing m => .testing (m.place x)
  | .clearing r => .clearing (x.place r)
  | .loading r => .loading (x.place r)
  | .comparing r n => .comparing (x.place r) n

/-- The step under the number that the run has in the other history. -/
def Label.place (x : Extra) : Label ω → Label ω
  | .other a => .other (a.place x)
  | .dropPump r => .dropPump (x.place r)
  | l => l

/-- A step, and those that stand for it where the extra runs were never tried: the same step; none,
where a message of theirs is taken, or nobody goes on in them; or two for one where a call does not
find the worker that the first of the attempts has waited for, and has to wait for it. -/
inductive Label.Mirrors (x : Extra) : Label ω → List (Label ω) → Prop where
  | same (l : Label ω) : Mirrors x (l.place x) [l]
  | passed : Mirrors x .take []
  | idle {a : Actor} (h : x.has a.run = true) : Mirrors x (.other a) []
  | start (l : Launch) : Mirrors x (.start l) [.start l, .goOn]
  | shutdown : Mirrors x .shutdown [.shutdown, .goOn]

theorem Taking.messages_place (τ : Taking) :
    (τ.place x).messages = τ.messages.map (·.place x) := by
  cases τ <;> rfl

namespace Ensemble

/-- The first state is the second with extra runs, whatever the controller does in each. -/
structure Added (x : Extra) (s t : Ensemble ω σ) : Prop where
  engine : s.engine.Added x t.engine
  taking : s.taking = t.taking.place x ∨
    ∃ i o, x.has i = true ∧ s.taking = .testing (.event i (.stopped o)) ∧ t.taking = .resting
  heard : (Note.deliveries s.log).filter (!x.has ·.1) =
    (Note.deliveries t.log).map fun d => (x.place d.1, d.2)

variable {s s' t t' : Ensemble ω σ} {l : Label ω}

namespace Added

theorem resting (a : s.Added x t) (h : s.taking = .resting) : t.taking = .resting := by
  rcases a.taking with same | ⟨_, _, _, hand, _⟩
  · rw [h] at same
    cases ht : t.taking <;> rw [ht] at same <;> first | rfl | cases same
  · rw [hand] at h
    cases h

/-- The messages that are still to be delivered are the same but for those of extra runs. -/
theorem pending_eq (a : s.Added x t) :
    s.pending.filter (!x.has ·.run) = t.pending.map (·.place x) := by
  rw [pending, pending, List.filter_append, List.map_append, a.engine.queue.among.filter_eq]
  congr 1
  rcases a.taking with same | ⟨i, o, hi, hand, rest⟩
  · rw [same, Taking.messages_place]
    refine List.filter_eq_self.mpr fun m hm => ?_
    obtain ⟨n, _, rfl⟩ := List.mem_map.mp hm
    simp
  · rw [hand, rest]
    exact List.filter_cons_of_neg (by simp [Message.run, hi])

/-! ## Workers and pumps -/

/-- A worker or a pump goes on in both. -/
theorem act (a : s.Added x t) (b : Actor) : (s.act I (b.place x)).Added x (t.act I b) := by
  refine ⟨a.engine.step b, a.taking, ?_⟩
  rw [Alike.heard_act, Alike.heard_act, a.heard]

/-- Nobody goes on in an extra run. -/
theorem act_void (a : s.Added x t) {b : Actor} (hb : x.has b.run = true) : s.act I b = s := by
  obtain ⟨r, here, void⟩ := a.engine.void b.run hb
  have silent : notesOf I b.run r = [] := by simp only [notesOf, void.stage]
  unfold Ensemble.act
  rw [Engine.step_void s.engine here void]
  cases b with
  | worker id =>
    change s.engine.runs[id]? = some r at here
    change notesOf I id r = [] at silent
    simp [here, silent]
  | _ => simp

/-- The pump of a run that is disowned is dropped in both; no extra run is ever disowned. -/
theorem dropPump (a : s.Added x t) {r : Nat} (gone : (s.engine.queue.slot r).abandoned = true) :
    ∃ j, x.place j = r ∧ (t.engine.queue.slot j).abandoned = true ∧
      Added x { s with engine := s.engine.abortPump r }
        { t with engine := t.engine.abortPump j } := by
  have other : x.has r = false := Bool.eq_false_iff.mpr fun own => by
    rw [a.engine.queue.fresh r own] at gone
    cases gone
  obtain ⟨j, rfl⟩ := Extra.exists_place other
  exact ⟨j, rfl, by rwa [a.engine.queue.slot j] at gone, a.engine.modifyRun _ j, a.taking, a.heard⟩

/-! ## The receiver -/

/-- The receiver is done with a message of which both queues make the same. -/
theorem deliver (a : s.Added x t) (r : Nat) {y z : Option Event × Queue} (told : y.1 = z.1)
    (queue : y.2.Added x z.2) : (s.deliver (x.place r) y).Added x (t.deliver r z) := by
  refine ⟨{ a.engine with queue }, .inl rfl, ?_⟩
  simp only [Ensemble.deliver, Note.deliveries_append, List.filter_append, List.map_append, a.heard,
    told]
  cases z.1 with
  | none => rfl
  | some e => simp [Note.deliveries, Note.delivery?]

/-- The receiver goes on with the same in hand. -/
theorem move (a : s.Added x t) {q p : Queue} (queue : q.Added x p) (τ : Taking) :
    Added x { s with engine.queue := q, taking := τ.place x }
      { t with engine.queue := p, taking := τ } :=
  ⟨{ a.engine with queue }, .inl rfl, a.heard⟩

/-- The receiver looks at a message that it has in hand in both. -/
theorem take_testing (a : s.Added x t) {m : Message} (hs : s.taking = .testing (m.place x))
    (ht : t.taking = .testing m) (h : s.take = some s') : ∃ t', t.take = some t' ∧ s'.Added x t' := by
  have queue := a.engine.queue
  simp only [Ensemble.take, hs, Message.run_place, queue.slot] at h
  simp only [Ensemble.take, ht]
  split at h
  · rename_i gone
    cases h
    exact ⟨_, if_pos gone, a.deliver m.run rfl queue⟩
  · rename_i kept
    rw [if_neg kept]
    cases m with
    | event r e =>
      cases h
      obtain ⟨told, queue'⟩ := queue.resolve_event r e
      exact ⟨_, rfl, a.deliver r told queue'⟩
    | line r =>
      cases h
      exact ⟨_, rfl, a.move queue (.clearing r)⟩

/-- The receiver delivers that an extra run has stopped. -/
theorem take_extra (a : s.Added x t) {i : Nat} {o : Outcome} (hi : x.has i = true)
    (hs : s.taking = .testing (.event i (.stopped o))) (ht : t.taking = .resting)
    (h : s.take = some s') : s'.Added x t := by
  have fresh := a.engine.queue.fresh i hi
  simp only [Ensemble.take, hs, Message.run, fresh, Bool.false_eq_true, if_false, Queue.resolve,
    reduceCtorEq, Option.some.injEq] at h
  subst h
  refine ⟨a.engine, .inl ?_, ?_⟩
  · rw [ht]
    rfl
  · have told : Note.deliveries [.delivered i (.stopped o)] = [(i, .stopped o)] := rfl
    simp [Ensemble.deliver, Note.deliveries_append, a.heard, told, hi]

/-- The receiver goes on in both, or with a message that it has in the first alone. -/
theorem take (a : s.Added x t) (h : s.take = some s') :
    (∃ t', t.take = some t' ∧ s'.Added x t') ∨ s'.Added x t := by
  have queue := a.engine.queue
  rcases a.taking with same | ⟨i, o, hi, hand, rest⟩
  · cases ht : t.taking with
    | resting =>
      -- the message is the oldest in both queues, or an extra run has sent it to the first alone
      have hs : s.taking = .resting := by rw [same, ht, Taking.place]
      simp only [Ensemble.take, hs, Option.map_eq_some_iff] at h
      obtain ⟨⟨m, q'⟩, pop, rfl⟩ := h
      rcases queue.pop pop with ⟨n, p', rfl, pop', added⟩ | ⟨⟨i, o, hi, rfl⟩, added⟩
      · exact .inl ⟨_, by simp only [Ensemble.take, ht, pop', Option.map_some],
          a.move added (.testing n)⟩
      · exact .inr ⟨{ a.engine with queue := added }, .inr ⟨i, o, hi, rfl, ht⟩, a.heard⟩
    | testing m =>
      have hs : s.taking = .testing (m.place x) := by rw [same, ht, Taking.place]
      exact .inl (a.take_testing hs ht h)
    | clearing r =>
      have hs : s.taking = .clearing (x.place r) := by rw [same, ht, Taking.place]
      simp only [Ensemble.take, hs, Option.some.injEq] at h
      subst h
      have cleared : (s.engine.queue.clearQueued (x.place r)).Added x
          (t.engine.queue.clearQueued r) := queue.modifySlot r _
      exact .inl ⟨_, by simp only [Ensemble.take, ht], a.move cleared (.loading r)⟩
    | loading r =>
      have hs : s.taking = .loading (x.place r) := by rw [same, ht, Taking.place]
      simp only [Ensemble.take, hs, Option.some.injEq, queue.slot] at h
      subst h
      exact .inl ⟨_, by simp only [Ensemble.take, ht], a.move queue (.comparing r _)⟩
    | comparing r n =>
      have hs : s.taking = .comparing (x.place r) n := by rw [same, ht, Taking.place]
      simp only [Ensemble.take, hs, Option.some.injEq] at h
      subst h
      obtain ⟨told, queue'⟩ := queue.deliverLine n
      exact .inl ⟨_, by simp only [Ensemble.take, ht], a.deliver r told queue'⟩
  · exact .inr (a.take_extra hi hand rest h)

/-! ## Together -/

/-- A step that is not the controller's is one in the second state, or none. -/
theorem step_apart (a : s.Added x t) (hl : l.isOfCall = false)
    (receives : s.call.receives = true → t.call.receives = true) (h : s.step I l = some s') :
    ∃ ls t', l.Mirrors x ls ∧ (∀ l' ∈ ls, l'.isOfCall = false) ∧ exec I t ls = some t' ∧
      s'.Added x t' := by
  have once {m : Label ω} {t' : Ensemble ω σ} (own : m.place x = l) (hm : m.isOfCall = false)
      (step : t.step I m = some t') (a' : s'.Added x t') : ∃ ls t', l.Mirrors x ls ∧
        (∀ l' ∈ ls, l'.isOfCall = false) ∧ exec I t ls = some t' ∧ s'.Added x t' :=
    ⟨[m], t', own ▸ .same m, by simpa using hm, by simp [exec, step], a'⟩
  cases l with
  | take =>
    obtain ⟨receiving, taken⟩ := receives_of_take h
    rcases a.take taken with ⟨t', step, a'⟩ | a'
    · exact once (m := .take) rfl rfl ((step_take_eq t (receives receiving)).trans step) a'
    · exact ⟨[], t, .passed, List.forall_mem_nil _, rfl, a'⟩
  | other b =>
    cases h
    cases hb : x.has b.run with
    | true => exact ⟨[], t, .idle hb, List.forall_mem_nil _, rfl, by rwa [a.act_void hb]⟩
    | false =>
      obtain ⟨c, rfl⟩ := Actor.exists_place hb
      exact once (m := .other c) rfl rfl rfl (a.act c)
  | dropPump r =>
    simp only [Ensemble.step, Option.ite_none_right_eq_some, Option.some.injEq] at h
    obtain ⟨gone, rfl⟩ := h
    obtain ⟨j, rfl, gone', a'⟩ := a.dropPump gone
    exact once (m := .dropPump j) rfl rfl (by simp only [Ensemble.step, gone', if_true]) a'
  | outside w =>
    cases h
    exact once (m := .outside w) rfl rfl rfl ⟨{ a.engine with world := rfl }, a.taking, a.heard⟩
  | _ => cases hl

end Added
end Ensemble
end ScriptHost
