import Mathlib.Data.List.Basic
import ScriptHost.Proofs.Delivery.Trail

/-!
# The order of the runs

What was delivered, and behind it what is still to be, belongs to one run after
another: `Ensemble.order` lists the runs it belongs to, and never goes back
(`Reached.sorted`). Only the last run can speak, because a run is launched when
the worker of the run before has ended or is disowned, and the messages of
disowned runs do not count.

As with trails, the outputs are in order only if no worker's patience has ended.
-/
namespace ScriptHost

/-- The run and the event of a delivery. -/
def Note.delivery? : Note → Option (Nat × Event)
  | .delivered r e => some (r, e)
  | _ => none

/-- The events delivered, each with its run. -/
def Note.deliveries (ns : List Note) : List (Nat × Event) := ns.filterMap Note.delivery?

@[simp] theorem Note.deliveries_append (xs ys : List Note) :
    Note.deliveries (xs ++ ys) = Note.deliveries xs ++ Note.deliveries ys := List.filterMap_append

variable {ω σ : Type} {I : Interpreter ω σ} {id : Nat} {l : Label ω} {s s' : Ensemble ω σ}
  {r r' : Run σ} {k k' : Slot} {ms : List Message} {ns : List Note} {outputs : Bool}

theorem RunMove.deliveries (h : RunMove id l r k r' k' ms ns) : Note.deliveries ns = [] := by
  cases h <;> rfl

/-- A run that sends has a worker that has not ended. -/
theorem RunMove.alive_of_sent (h : RunMove id l r k r' k' ms ns) (calm : outputs = true → r.Calm)
    {m : Message} (hm : m ∈ ms) (hv : m.outline.voices outputs = true) :
    r.stage.isAlive = true := by
  cases h with
  | announce h | push s h | leave o h => rw [h]; rfl
  | forward t h =>
    rw [List.mem_singleton.mp hm] at hv
    have hp := (calm hv).open_of_sending h
    cases hs : r.stage <;> rw [hs] at hp <;> first | rfl | cases hp
  | _ => cases hm

namespace Ensemble

/-- The messages sent and not yet delivered or dropped. -/
def pending (s : Ensemble ω σ) : List Message := s.taking.messages ++ s.engine.queue.toList

/-- A message that will be heard, if it is one that is looked at. -/
def counts (outputs : Bool) (q : Queue) (m : Message) : Bool :=
  m.outline.voices outputs && !(q.slot m.run).abandoned

/-- The runs of what was delivered, and of what is still to be. -/
def order (outputs : Bool) (s : Ensemble ω σ) : List Nat :=
  ((Note.deliveries s.log).filter (·.2.voices outputs)).map (·.1) ++
    (s.pending.filter (counts outputs s.engine.queue)).map Message.run

theorem pending_lt (hs : s.Sound) : ∀ m ∈ s.pending, m.run < s.engine.runs.size := by
  intro m hm
  rcases List.mem_append.mp hm with hm | hm
  · refine hs.taking _ ?_
    cases ht : s.taking <;> rw [ht] at hm <;> simp only [Taking.messages, List.not_mem_nil,
      List.mem_singleton] at hm <;> rw [hm] <;> rfl
  · exact hs.queued m hm

theorem Sound.of_delivered {x : Nat × Event} (hs : s.Sound) (hx : x ∈ Note.deliveries s.log) :
    x.1 < s.engine.runs.size := by
  obtain ⟨n, hn, he⟩ := List.mem_filterMap.mp hx
  cases n <;> cases he
  exact hs.log _ hn

theorem order_lt (outputs : Bool) (hs : s.Sound) : ∀ i ∈ s.order outputs, i < s.engine.runs.size := by
  intro i hi
  simp only [order, List.mem_append, List.mem_map, List.mem_filter] at hi
  rcases hi with ⟨x, ⟨hx, _⟩, rfl⟩ | ⟨m, ⟨hm, _⟩, rfl⟩
  · exact hs.of_delivered hx
  · exact pending_lt hs m hm

/-- One more message of the last run keeps the order. -/
theorem sorted_append {xs ys : List Nat} {n : Nat} (h : xs.Pairwise (· ≤ ·)) (hx : ∀ x ∈ xs, x ≤ n)
    (hy : ∀ y ∈ ys, y = n) : (xs ++ ys).Pairwise (· ≤ ·) := by
  refine List.pairwise_append.mpr ⟨h, ?_, fun x hx' y hy' => hy y hy' ▸ hx x hx'⟩
  exact List.pairwise_of_forall_mem_list fun a ha b hb => Nat.le_of_eq ((hy a ha).trans (hy b hb).symm)

theorem sorted_run {r r' : Run σ} (hs : s.Sound) (calm : outputs = true → r.Calm)
    (sorted : (s.order outputs).Pairwise (· ≤ ·)) (here : s.engine.runs[id]? = some r)
    (runs : s'.engine.runs = s.engine.runs.setIfInBounds id r')
    (queue : s.engine.queue.Extends s'.engine.queue id ms)
    (move : RunMove id l r (s.engine.queue.slot id) r' (s'.engine.queue.slot id) ms ns)
    (taking : s'.taking = s.taking) (log : s'.log = s.log ++ ns) :
    (s'.order outputs).Pairwise (· ≤ ·) := by
  have counts_eq : counts outputs s'.engine.queue = counts outputs s.engine.queue := by
    funext m
    rw [counts, (alive_of_move here runs queue move m.run).2, counts]
  have he : s'.order outputs = s.order outputs ++ (ms.filter (counts outputs s.engine.queue)).map
      Message.run := by
    simp [order, pending, counts_eq, log, move.deliveries, taking, queue.toList]
  rw [he]
  refine sorted_append (n := s.engine.runs.size - 1) sorted (fun x hx => ?_) (fun y hy => ?_)
  · have := order_lt outputs hs x hx
    omega
  · obtain ⟨m, hm, rfl⟩ := List.mem_map.mp hy
    obtain ⟨hm, hc⟩ := List.mem_filter.mp hm
    simp only [counts, Bool.and_eq_true, Bool.not_eq_true'] at hc
    rw [move.sent_own m hm] at hc ⊢
    have ha : s.engine.isAlive id = true := by
      rw [isAlive_eq, here]
      exact move.alive_of_sent calm hm hc.1
    have := hs.holder id (hs.alive id ha hc.2)
    omega

/-- What the receiver does moves messages to the deliveries, or drops them. -/
theorem order_take (receive : Reception s.engine.queue s.taking s'.engine.queue s'.taking ns)
    (reads : ∀ r, s.taking.reads r → (s.engine.queue.slot r).abandoned = false)
    (log : s'.log = s.log ++ ns) : (s'.order outputs).Sublist (s.order outputs) := by
  have counts_eq : counts outputs s'.engine.queue = counts outputs s.engine.queue := by
    funext m
    rw [counts, receive.abandoned, counts]
  rw [order, order, counts_eq, log, pending, pending]
  generalize ht : s.taking = t at receive reads
  generalize ht' : s'.taking = t' at receive
  generalize hq : s'.engine.queue = q' at receive
  have silent (r : Nat) (hr : (s.engine.queue.slot r).abandoned = false) (m : Message) (hm : m.run = r) :
      counts outputs s.engine.queue m = m.outline.voices outputs := by simp [counts, hm, hr]
  cases receive with
  | dequeue h => simp [Taking.messages, (Queue.pop?_some h).1]
  | @drop m h =>
    simp only [Taking.messages, List.append_nil, List.nil_append, List.filter_append, List.map_append]
    exact (List.Sublist.refl _).append (List.sublist_append_right _ _)
  | @deliver r e h =>
    have list : (if e = .started then { s.engine.queue with lastLine := none } else s.engine.queue).toList
        = s.engine.queue.toList := by split <;> rfl
    have hc := silent r h (.event r e) rfl
    cases hv : e.voices outputs <;>
      simp [Taking.messages, list, hc, hv, Message.outline, Note.deliveries, Note.delivery?]
  | turn | clear | load =>
    rw [List.append_nil]
    exact List.Sublist.refl _
  | same h =>
    simp only [Taking.messages, List.append_nil, List.nil_append, List.filter_append, List.map_append]
    exact (List.Sublist.refl _).append (List.sublist_append_right _ _)
  | @tell r n h =>
    have list : { s.engine.queue with lastLine := some n }.toList = s.engine.queue.toList := rfl
    have hc : counts outputs s.engine.queue (.line r) = true :=
      silent r (reads r (.inr (.inr ⟨n, rfl⟩))) (.line r) rfl
    have hv : Event.voices outputs (.currentLine n) = true := rfl
    simp [Taking.messages, list, hc, hv, Note.deliveries, Note.delivery?]

/-- Disowning a run takes its messages out of the order. -/
theorem order_silence (hid : id < s.engine.queue.slots.size)
    (queue : s'.engine.queue = s.engine.queue.abandon id) (rest : s.taking = .resting)
    (taking : s'.taking = .resting) (log : s'.log = s.log ++ [.abandoned id]) :
    (s'.order outputs).Sublist (s.order outputs) := by
  have list : s'.engine.queue.toList = s.engine.queue.toList := by rw [queue]; rfl
  have fewer (m : Message) (hm : counts outputs s'.engine.queue m = true) :
      counts outputs s.engine.queue m = true := by
    rw [counts, queue] at hm
    rw [counts]
    by_cases h : m.run = id
    · rw [h, Queue.abandon, Queue.slot_modifySlot_self _ _ hid] at hm
      simp at hm
    · rwa [Queue.abandon, Queue.slot_modifySlot_ne _ _ h] at hm
  rw [order, order, pending, pending, log, taking, rest, list]
  rw [Note.deliveries_append, show Note.deliveries [.abandoned id] = [] from rfl, List.append_nil]
  exact (List.Sublist.refl _).append ((List.monotone_filter_right _ fewer).map _)

/-- A run that is launched has the highest number. -/
theorem sorted_launch {launch : Launch} (hs : s.Sound)
    (sorted : (s.order outputs).Pairwise (· ≤ ·))
    (slots : s'.engine.queue.slots = s.engine.queue.slots.push {})
    (toList : s'.engine.queue.toList = s.engine.queue.toList ++
      (launch.refusal?.map fun o => .event s.engine.runs.size (.stopped o)).toList)
    (taking : s'.taking = s.taking) (log : s'.log = s.log ++ [.launched s.engine.runs.size launch]) :
    (s'.order outputs).Pairwise (· ≤ ·) := by
  have counts_eq : counts outputs s'.engine.queue = counts outputs s.engine.queue := by
    funext m
    rw [counts, slot_of_push slots, counts]
  have he : s'.order outputs = s.order outputs ++
      (((launch.refusal?.map fun o => Message.event s.engine.runs.size (.stopped o)).toList).filter
        (counts outputs s.engine.queue)).map Message.run := by
    simp [order, pending, counts_eq, log, taking, toList, Note.deliveries, Note.delivery?]
  rw [he]
  refine sorted_append (n := s.engine.runs.size) sorted (fun x hx => ?_) (fun y hy => ?_)
  · exact Nat.le_of_lt (order_lt outputs hs x hx)
  · obtain ⟨m, hm, rfl⟩ := List.mem_map.mp hy
    obtain ⟨o, _, rfl⟩ : ∃ o, launch.refusal? = some o ∧
        Message.event s.engine.runs.size (.stopped o) = m := by
      simpa using (List.mem_filter.mp hm).1
    rfl

theorem Reached.calm {ok : Label ω → Prop} {settings : Settings} {world : ω}
    (h : Reached I ok (initial settings world) s) (hid : id < s.engine.runs.size)
    (hok : ∀ l, ok l → l ≠ .other (.patience id)) : (s.engine.run id).Calm :=
  h.view (P := fun v => v.run.Calm) (fun _ _ gives => calm_fresh gives)
    (fun hl hv h => View.calm_step hv (hok _ hl) h) hid

/-- **The order of the runs.** What is delivered, and what is still to be, belongs to one run after
another; outputs count if no worker's patience has ended. -/
theorem Reached.sorted {ok : Label ω → Prop} {settings : Settings} {world : ω} (outputs : Bool)
    (h : Reached I ok (initial settings world) s)
    (hok : outputs = true → ∀ l, ok l → ∀ run, l ≠ .other (.patience run)) :
    (s.order outputs).Pairwise (· ≤ ·) := by
  induction h with
  | start => simp [order, initial, pending, Note.deliveries, Taking.messages, Queue.toList]
  | @step s s' l h hl hs ih =>
    cases step_cases h.sound hs with
    | aside runs queue taking log keeps => rwa [order, pending, queue, taking, log]
    | run id r r' ms ns here runs queue move taking log keeps =>
      refine sorted_run h.sound (fun ho => ?_) ih here runs queue move taking log
      have hr : s.engine.run id = r := by simp [Engine.run, here]
      exact hr ▸ h.calm (Array.getElem?_eq_some_iff.mp here).1 fun l hl => hok ho l hl id
    | silence id call call' current runs queue rest taking log =>
      refine ih.sublist (order_silence ?_ queue rest taking log)
      have := h.sound.holder id (by rw [holder, call]; rfl)
      rw [h.sound.slots]
      omega
    | launch launch r gives idle runs slots toList lastLine receiving call current taking log =>
      exact sorted_launch h.sound ih slots toList taking log
    | take ns runs current call receive log => exact ih.sublist (order_take receive h.sound.reads log)

end Ensemble
end ScriptHost
