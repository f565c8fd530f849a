import ScriptHost.Proofs.Ensemble.Sound

/-!
# The system as one run sees it

`Ensemble.view` keeps of a state what concerns one run: the run itself, its
slot, its message in the receiver's hand, its messages in the queue, and its
notes. Every step of the system is one of `View.Step` to every run there is
(`Step.view`), or nothing at all. A property of one run is then proved on views
and holds of every run in every state (`Reached.view`).
-/
namespace ScriptHost

variable {ω σ : Type}

/-- What one run has of the system. -/
structure View (σ : Type) where
  run : Run σ
  slot : Slot
  /-- How far the receiver is with a message of this run. -/
  hand : Taking
  /-- Its messages in the queue, the oldest first. -/
  queued : List Message
  notes : List Note

/-- What the receiver does, if it is about a given run. -/
def Taking.about (id : Nat) (t : Taking) : Taking := if t.run? = some id then t else .resting

namespace View

/-- A run that has just been launched. -/
def fresh (id : Nat) (launch : Launch) (r : Run σ) : View σ where
  run := r
  slot := {}
  hand := .resting
  queued := (launch.refusal?.map fun o => .event id (.stopped o)).toList
  notes := [.launched id launch]

/-- What a step of the system is to the run `id`; `last` is the line delivered last. -/
inductive Step (id : Nat) (last : Option UInt32) (l : Label ω) : View σ → View σ → Prop where
  | run {v : View σ} {r : Run σ} {k : Slot} {ms : List Message} {ns : List Note}
    (h : RunMove id l v.run v.slot r k ms ns) :
    Step id last l v ⟨r, k, v.hand, v.queued ++ ms, v.notes ++ ns⟩
  | silence {v : View σ} (h : v.hand = .resting) :
    Step id last l v
      { v with slot := { v.slot with abandoned := true }, notes := v.notes ++ [.abandoned id] }
  | dequeue {v : View σ} {m : Message} {rest : List Message} (h : v.hand = .resting)
    (hq : v.queued = m :: rest) : Step id last l v { v with hand := .testing m, queued := rest }
  | drop {v : View σ} {m : Message} (h : v.hand = .testing m) (ha : v.slot.abandoned = true) :
    Step id last l v { v with hand := .resting }
  | deliver {v : View σ} {e : Event} (h : v.hand = .testing (.event id e))
    (ha : v.slot.abandoned = false) :
    Step id last l v { v with hand := .resting, notes := v.notes ++ [.delivered id e] }
  | turn {v : View σ} (h : v.hand = .testing (.line id)) (ha : v.slot.abandoned = false) :
    Step id last l v { v with hand := .clearing id }
  | clear {v : View σ} (h : v.hand = .clearing id) (ha : v.slot.abandoned = false) :
    Step id last l v { v with slot := { v.slot with queued := false }, hand := .loading id }
  | load {v : View σ} (h : v.hand = .loading id) (ha : v.slot.abandoned = false) :
    Step id last l v { v with hand := .comparing id v.slot.line }
  | same {v : View σ} {n : UInt32} (h : v.hand = .comparing id n) (ha : v.slot.abandoned = false)
    (hl : last = some n) : Step id last l v { v with hand := .resting }
  | tell {v : View σ} {n : UInt32} (h : v.hand = .comparing id n) (ha : v.slot.abandoned = false)
    (hl : last ≠ some n) :
    Step id last l v { v with hand := .resting, notes := v.notes ++ [.delivered id (.currentLine n)] }

theorem Step.rest (id : Nat) (last : Option UInt32) (l : Label ω) (v : View σ) :
    Step id last l v v := by
  have : Step id last l v _ := .run (RunMove.rest id l v.run v.slot)
  simpa using this

theorem Step.notes_mem {id : Nat} {last : Option UInt32} {l : Label ω} {v v' : View σ} {n : Note}
    (h : Step id last l v v') (hn : n ∈ v.notes) : n ∈ v'.notes := by
  cases h with
  | run | silence | deliver | tell => exact List.mem_append_left _ hn
  | _ => exact hn

end View

namespace Ensemble

/-- What a run has of the system. -/
def view (s : Ensemble ω σ) (id : Nat) : View σ where
  run := s.engine.run id
  slot := s.engine.queue.slot id
  hand := s.taking.about id
  queued := s.engine.queue.toList.filter (·.run = id)
  notes := s.log.filter (·.run = id)

variable {I : Interpreter ω σ} {s s' : Ensemble ω σ} {l : Label ω} {id : Nat}

theorem filter_run_self {α : Type} {f : α → Nat} {xs : List α} (h : ∀ x ∈ xs, f x = id) :
    xs.filter (f · = id) = xs := List.filter_eq_self.mpr (by simpa using h)

theorem filter_run_ne {α : Type} {f : α → Nat} {xs : List α} {j : Nat} (h : ∀ x ∈ xs, f x = j)
    (hj : id ≠ j) : xs.filter (f · = id) = [] :=
  List.filter_eq_nil_iff.mpr fun x hx => by simp [h x hx, hj.symm]

theorem filter_run_lt {α : Type} {f : α → Nat} {xs : List α} {n : Nat} (h : ∀ x ∈ xs, f x < n)
    (hid : n ≤ id) : xs.filter (f · = id) = [] :=
  List.filter_eq_nil_iff.mpr fun x hx => by simpa using Nat.ne_of_lt (Nat.lt_of_lt_of_le (h x hx) hid)

theorem run_eq (h : s'.engine.runs = s.engine.runs) (id : Nat) : s'.engine.run id = s.engine.run id := by
  rw [Engine.run, h, Engine.run]

theorem view_run {r r' : Run σ} {ms : List Message} {ns : List Note} {j : Nat}
    (here : s.engine.runs[j]? = some r) (runs : s'.engine.runs = s.engine.runs.setIfInBounds j r')
    (queue : s.engine.queue.Extends s'.engine.queue j ms)
    (move : RunMove j l r (s.engine.queue.slot j) r' (s'.engine.queue.slot j) ms ns)
    (taking : s'.taking = s.taking) (log : s'.log = s.log ++ ns) :
    (s.view id).Step id s.engine.queue.lastLine l (s'.view id) := by
  have hj := (Array.getElem?_eq_some_iff.mp here).1
  by_cases h : id = j
  · subst h
    have hr : s.engine.run id = r := by simp [Engine.run, here]
    have hr' : s'.engine.run id = r' := by simp [Engine.run, runs, hj]
    have : View.Step id s.engine.queue.lastLine l (s.view id) _ :=
      .run (show RunMove id l (s.view id).run (s.view id).slot r' _ ms ns from hr.symm ▸ move)
    simpa [view, hr', taking, log, queue.toList, filter_run_self queue.own,
      filter_run_self move.notes_own] using this
  · have hr : s'.engine.run id = s.engine.run id := by
      simp [Engine.run, runs, Ne.symm h]
    have : s'.view id = s.view id := by
      simp [view, hr, queue.slot id h, taking, log, queue.toList, filter_run_ne queue.own h,
        filter_run_ne move.notes_own h]
    rw [this]
    exact .rest ..

/-- A run sees nothing of what the receiver does with the messages of others. -/
theorem receive_other {q q' : Queue} {t t' : Taking} {ns : List Note}
    (receive : Reception q t q' t' ns) (h : t.run? ≠ some id) (h' : t'.run? ≠ some id) :
    q'.slot id = q.slot id ∧
      q'.toList.filter (·.run = id) = q.toList.filter (·.run = id) ∧ ns.filter (·.run = id) = [] := by
  refine ⟨?_, ?_, ?_⟩
  · rw [receive.slot, if_neg]
    rintro rfl
    exact h rfl
  · cases receive with
    | @dequeue _ m hp =>
      have hm : m.run ≠ id := by simpa [Taking.run?] using h'
      rw [(Queue.pop?_some hp).1, List.filter_cons_of_neg (by simpa using hm)]
    | deliver => split <;> rfl
    | _ => rfl
  · refine List.filter_eq_nil_iff.mpr fun n hn hr => h ?_
    rw [receive.noted n hn]
    simpa using hr

theorem view_take {ns : List Note} (runs : s'.engine.runs = s.engine.runs)
    (receive : Reception s.engine.queue s.taking s'.engine.queue s'.taking ns)
    (log : s'.log = s.log ++ ns)
    (reads : ∀ r, s.taking.reads r → (s.engine.queue.slot r).abandoned = false) :
    (s.view id).Step id s.engine.queue.lastLine l (s'.view id) := by
  have run := run_eq runs id
  by_cases away : s.taking.run? ≠ some id ∧ s'.taking.run? ≠ some id
  · obtain ⟨slot, list, noted⟩ := receive_other receive away.1 away.2
    have : s'.view id = s.view id := by
      simp [view, run, slot, list, log, noted, Taking.about, away.1, away.2]
    rw [this]
    exact .rest ..
  have own : s.taking.run? = some id ∨ s'.taking.run? = some id :=
    Decidable.or_iff_not_imp_left.mpr fun h => Decidable.byContradiction fun h' => away ⟨h, h'⟩
  have slot := receive.slot id
  generalize ht : s.taking = t at receive slot reads own
  generalize ht' : s'.taking = t' at receive own
  generalize hq : s'.engine.queue = q' at receive slot
  have hand (h : t.run? = some id) : (s.view id).hand = t := by simp [view, ht, Taking.about, h]
  -- the step of the run comes to its view
  have come {v : View σ} (h : View.Step id s.engine.queue.lastLine l (s.view id) v)
      (he : v = s'.view id) : (s.view id).Step id s.engine.queue.lastLine l (s'.view id) := he ▸ h
  cases receive with
  | @dequeue _ m hp =>
    obtain rfl : m.run = id := by simpa [Taking.run?] using own
    have queued : (s.view m.run).queued = m :: q'.toList.filter (·.run = m.run) := by
      simp [view, (Queue.pop?_some hp).1]
    refine come (.dequeue ?_ queued) ?_
    · simp [view, ht, Taking.about, Taking.run?]
    · simp [view, run, slot, ht', hq, log, Taking.about, Taking.run?]
  | @drop m h =>
    obtain rfl : m.run = id := by simpa [Taking.run?] using own
    refine come (.drop (hand rfl) h) ?_
    simp [view, run, ht', hq, log, Taking.about, Taking.run?]
  | @deliver r e h =>
    obtain rfl : r = id := by simpa [Taking.run?] using own
    have list : (if e = .started then { s.engine.queue with lastLine := none } else s.engine.queue).toList
        = s.engine.queue.toList := by split <;> rfl
    refine come (.deliver (hand rfl) h) ?_
    simp [view, run, slot, ht', hq, log, list, Taking.about, Taking.run?]
  | @turn r h =>
    obtain rfl : r = id := by simpa [Taking.run?] using own
    refine come (.turn (hand rfl) h) ?_
    simp [view, run, ht', hq, log, Taking.about, Taking.run?]
  | @clear r =>
    obtain rfl : r = id := by simpa [Taking.run?] using own
    have list : (s.engine.queue.clearQueued r).toList = s.engine.queue.toList := rfl
    refine come (.clear (hand rfl) (reads r (.inl rfl))) ?_
    simp [view, run, slot, ht', hq, log, list, Taking.about, Taking.run?]
  | @load r =>
    obtain rfl : r = id := by simpa [Taking.run?] using own
    refine come (.load (hand rfl) (reads r (.inr (.inl rfl)))) ?_
    simp [view, run, ht', hq, log, Taking.about, Taking.run?]
  | @same r n h =>
    obtain rfl : r = id := by simpa [Taking.run?] using own
    refine come (.same (hand rfl) (reads r (.inr (.inr ⟨n, rfl⟩))) h) ?_
    simp [view, run, ht', hq, log, Taking.about, Taking.run?]
  | @tell r n h =>
    obtain rfl : r = id := by simpa [Taking.run?] using own
    refine come (.tell (hand rfl) (reads r (.inr (.inr ⟨n, rfl⟩))) h) ?_
    simp [view, run, ht', hq, log, Queue.toList, Queue.slot, Taking.about, Taking.run?]

theorem Step.view (hs : s.Sound) (h : s.Step s' l) (hid : id < s.engine.runs.size) :
    (s.view id).Step id s.engine.queue.lastLine l (s'.view id) := by
  cases h with
  | aside runs queue taking log keeps =>
    have : s'.view id = s.view id := by simp [Ensemble.view, run_eq runs id, queue, taking, log]
    rw [this]
    exact .rest ..
  | run j r r' ms ns here runs queue move taking log keeps =>
    exact view_run here runs queue move taking log
  | silence j call call' current runs queue rest taking log =>
    have list : s'.engine.queue.toList = s.engine.queue.toList := by rw [queue]; rfl
    by_cases h : id = j
    · subst h
      have slot : s'.engine.queue.slot id = { s.engine.queue.slot id with abandoned := true } := by
        rw [queue, Queue.abandon, Queue.slot_modifySlot_self _ _ (hs.slots ▸ hid)]
      have : View.Step id s.engine.queue.lastLine l (s.view id) _ :=
        .silence (by simp [Ensemble.view, rest, Taking.about, Taking.run?])
      simpa [Ensemble.view, run_eq runs id, slot, list, taking, rest, log] using this
    · have slot : s'.engine.queue.slot id = s.engine.queue.slot id := by
        rw [queue, Queue.abandon, Queue.slot_modifySlot_ne _ _ h]
      have : s'.view id = s.view id := by
        simp [Ensemble.view, run_eq runs id, slot, list, taking, rest, log, Ne.symm h]
      rw [this]
      exact .rest ..
  | launch launch r gives idle runs slots toList lastLine receiving call current taking log =>
    have hr : s'.engine.run id = s.engine.run id := by
      simp [Engine.run, runs, Array.getElem?_push, Nat.ne_of_lt hid]
    have hq : s'.engine.queue.slot id = s.engine.queue.slot id := by
      simp [Queue.slot, slots, Array.getElem?_push, hs.slots, Nat.ne_of_lt hid]
    have : s'.view id = s.view id := by
      simp only [Ensemble.view, hr, hq, taking, log, toList, List.filter_append]
      cases launch.refusal? <;> simp [(Nat.ne_of_lt hid).symm]
    rw [this]
    exact .rest ..
  | take ns runs current call receive log => exact view_take runs receive log hs.reads

/-- A step brings a run into being only by launching it. -/
theorem Step.fresh (hs : s.Sound) (h : s.Step s' l) (hid : s.engine.runs.size ≤ id)
    (hid' : id < s'.engine.runs.size) :
    ∃ (launch : Launch) (r : Run σ), launch.Gives r ∧ s'.view id = View.fresh id launch r := by
  cases h with
  | aside runs => rw [runs] at hid'; omega
  | run _ _ _ _ _ _ runs => simp only [runs, Array.size_setIfInBounds] at hid'; omega
  | silence _ _ _ _ runs => rw [runs] at hid'; omega
  | take _ runs => rw [runs] at hid'; omega
  | launch launch r gives idle runs slots toList lastLine receiving call current taking log =>
    obtain rfl : id = s.engine.runs.size := by
      simp only [runs, Array.size_push] at hid'
      omega
    have run : s'.engine.run s.engine.runs.size = r := by simp [Engine.run, runs]
    have slot : s'.engine.queue.slot s.engine.runs.size = {} := by simp [Queue.slot, slots, ← hs.slots]
    have hand : s'.taking.about s.engine.runs.size = .resting := by
      rw [taking, Taking.about, if_neg]
      intro ht
      exact absurd (hs.taking _ ht) (Nat.lt_irrefl _)
    have queued : s.engine.queue.toList.filter (·.run = s.engine.runs.size) = [] :=
      filter_run_lt hs.queued (Nat.le_refl _)
    have notes : s.log.filter (·.run = s.engine.runs.size) = [] :=
      filter_run_lt hs.log (Nat.le_refl _)
    refine ⟨launch, r, gives, ?_⟩
    simp only [Ensemble.view, run, slot, hand, log, toList, List.filter_append, queued, notes]
    cases ho : launch.refusal? <;> simp [View.fresh, ho]

/-- What holds of a run when it is launched, and is kept by every step of a state that is reached,
always holds of it. -/
theorem Reached.view_of {P : View σ → Prop} {ok : Label ω → Prop} {settings : Settings} {world : ω}
    (fresh : ∀ launch r, Launch.Gives launch r → P (View.fresh id launch r))
    (step : ∀ {s : Ensemble ω σ} {l v'}, Reached I ok (initial settings world) s →
      id < s.engine.runs.size → ok l → P (s.view id) →
      (s.view id).Step id s.engine.queue.lastLine l v' → P v')
    (h : Reached I ok (initial settings world) s) (hid : id < s.engine.runs.size) :
    P (s.view id) := by
  induction h with
  | start => simp [initial] at hid
  | @step s s' l h hl hs ih =>
    have hm := step_cases h.sound hs
    by_cases hid' : id < s.engine.runs.size
    · exact step h hid' hl (ih hid') (hm.view h.sound hid')
    · obtain ⟨launch, r, gives, he⟩ := hm.fresh h.sound (by omega) hid
      exact he ▸ fresh launch r gives

/-- What every step keeps that a run can see. -/
theorem Reached.view {P : View σ → Prop} {ok : Label ω → Prop} {settings : Settings} {world : ω}
    (fresh : ∀ launch r, Launch.Gives launch r → P (View.fresh id launch r))
    (step : ∀ {last l v v'}, ok l → P v → View.Step id last l v v' → P v')
    (h : Reached I ok (initial settings world) s) (hid : id < s.engine.runs.size) :
    P (s.view id) :=
  h.view_of fresh (fun _ _ hl hv hs => step hl hv hs) hid

end Ensemble
end ScriptHost
