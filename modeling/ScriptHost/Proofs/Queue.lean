import ScriptHost.Queue

/-!
# What is in the queue

How each operation changes the entries (`Queue.toList`) and the slots.

* `Extends`: a sender appends messages of its own run and changes no other slot.
* `pop?_some`: a receiver takes the oldest entry.
* `receive_fst`: what it receives is the first event that the entries deliver.
-/
namespace ScriptHost

@[simp] theorem Message.run_event (r : Nat) (e : Event) : (event r e).run = r := rfl

@[simp] theorem Message.run_line (r : Nat) : (line r).run = r := rfl

namespace Queue

variable {q q' : Queue} {r run : Nat} {m : Message} {ms : List Message} {f : Slot → Slot}

/-! ## Slots -/

theorem slot_modifySlot_self (q : Queue) (f : Slot → Slot) (h : r < q.slots.size) :
    (q.modifySlot r f).slot r = f (q.slot r) := by
  simp [modifySlot, slot, h, Array.getElem_modify]

theorem slot_modifySlot_ne (q : Queue) (f : Slot → Slot) (h : run ≠ r) :
    (q.modifySlot r f).slot run = q.slot run := by
  simp [modifySlot, slot, Array.getElem?_modify, h.symm]

theorem slot_of_size_le (h : q.slots.size ≤ r) : q.slot r = {} := by simp [slot, h]

@[simp] theorem modifySlot_toList : (q.modifySlot r f).toList = q.toList := rfl

@[simp] theorem modifySlot_size : (q.modifySlot r f).slots.size = q.slots.size := by
  simp [modifySlot]

theorem slot_modifySlot (q : Queue) (f : Slot → Slot) (r i : Nat) :
    (q.modifySlot r f).slot i = if i = r ∧ r < q.slots.size then f (q.slot i) else q.slot i := by
  by_cases h : i = r
  · subst h
    by_cases hs : i < q.slots.size
    · rw [slot_modifySlot_self q f hs, if_pos ⟨rfl, hs⟩]
    · rw [if_neg (hs ·.2), slot_of_size_le (by simpa using hs), slot_of_size_le (Nat.not_lt.mp hs)]
  · rw [slot_modifySlot_ne q f h, if_neg (h ·.1)]

/-- Changes of other kinds disown no run. -/
theorem modifySlot_abandoned (q : Queue) (same : ∀ k, (f k).abandoned = k.abandoned) (run r : Nat) :
    ((q.modifySlot run f).slot r).abandoned = (q.slot r).abandoned := by
  rw [slot_modifySlot]
  split
  · exact same _
  · rfl

/-! ## Senders -/

/-- `q'` is `q` with the messages `ms` of one run behind it; the slot of that run may have changed. -/
structure Extends (q q' : Queue) (run : Nat) (ms : List Message) : Prop where
  toList : q'.toList = q.toList ++ ms
  own : ∀ m ∈ ms, m.run = run
  slot : ∀ r ≠ run, q'.slot r = q.slot r
  size : q'.slots.size = q.slots.size
  lastLine : q'.lastLine = q.lastLine
  receiving : q'.receiving = q.receiving

theorem Extends.refl (q : Queue) (run : Nat) : q.Extends q run [] :=
  ⟨by simp, by simp, fun _ _ => rfl, rfl, rfl, rfl⟩

theorem extends_modifySlot (q : Queue) (run : Nat) (f : Slot → Slot) :
    q.Extends (q.modifySlot run f) run [] :=
  ⟨by simp, by simp, fun _ h => slot_modifySlot_ne q f h, by simp, rfl, rfl⟩

theorem extends_push (h : q.receiving = true) (hm : m.run = run) :
    q.Extends (q.push m) run [m] := by
  refine ⟨?_, by simp [hm], fun r _ => ?_, ?_, ?_, ?_⟩ <;> simp [push, h, Queue.toList, Queue.slot]

@[simp] theorem slot_push : (q.push m).slot r = q.slot r := by
  unfold push; split <;> rfl

/-! ## The receiver -/

/-- Taking the oldest entry leaves the others. -/
theorem pop?_some (h : q.pop? = some (m, q')) :
    q.toList = m :: q'.toList ∧ q'.slots = q.slots ∧ q'.lastLine = q.lastLine ∧
      q'.receiving = q.receiving := by
  unfold pop? at h
  split at h
  · rename_i hf
    cases h
    simp [Queue.toList, hf]
  · rename_i hf
    split at h
    · rename_i hb
      cases h
      simp [Queue.toList, hf, hb]
    · cases h

theorem pop?_of_toList (h : q.toList = m :: ms) : ∃ q', q.pop? = some (m, q') ∧ q'.toList = ms := by
  cases hp : q.pop? with
  | some x =>
    obtain ⟨m', q'⟩ := x
    rw [(pop?_some hp).1] at h
    cases h
    exact ⟨q', rfl, rfl⟩
  | none =>
    unfold pop? at hp
    split at hp
    · cases hp
    · split at hp
      · cases hp
      · simp_all [toList]

theorem deliverLine_ends (q : Queue) (n : UInt32) (front back : List Message) :
    deliverLine { q with front, back } n =
      ((q.deliverLine n).1, { (q.deliverLine n).2 with front, back }) := by
  unfold deliverLine
  by_cases h : q.lastLine = some n
  · rw [if_pos h, if_pos h]
  · rw [if_neg h, if_neg h]

/-- What a message delivers does not depend on the other entries. -/
theorem resolve_ends (q : Queue) (m : Message) (front back : List Message) :
    resolve { q with front, back } m =
      ((q.resolve m).1, { (q.resolve m).2 with front, back }) := by
  have slot (r : Nat) : Queue.slot { q with front, back } r = q.slot r := rfl
  cases ha : (q.slot m.run).abandoned with
  | true => simp [resolve, slot, ha]
  | false =>
    cases m with
    | event r x =>
      rw [Message.run_event] at ha
      cases x <;> simp [resolve, slot, ha]
    | line r =>
      rw [Message.run_line] at ha
      simp only [resolve, slot, ha, Message.run_line, Bool.false_eq_true, if_false]
      exact deliverLine_ends (q.clearQueued r) ((q.clearQueued r).slot r).line front back

theorem ends_resolve (q : Queue) (m : Message) :
    (q.resolve m).2.front = q.front ∧ (q.resolve m).2.back = q.back := by
  have h := congrArg Prod.snd (resolve_ends q m q.front q.back)
  have front := congrArg Queue.front h
  have back := congrArg Queue.back h
  exact ⟨front, back⟩

theorem deliverLine_rest (q : Queue) (n : UInt32) :
    (q.deliverLine n).2.toList = q.toList ∧ (q.deliverLine n).2.receiving = q.receiving := by
  unfold deliverLine
  split <;> exact ⟨rfl, rfl⟩

theorem resolve_rest (q : Queue) (m : Message) :
    (q.resolve m).2.toList = q.toList ∧ (q.resolve m).2.receiving = q.receiving := by
  unfold resolve
  split
  · exact ⟨rfl, rfl⟩
  · cases m with
    | event r e =>
      dsimp only
      split <;> exact ⟨rfl, rfl⟩
    | line r => exact deliverLine_rest (q.clearQueued r) _

theorem resolve_size (q : Queue) (m : Message) : (q.resolve m).2.slots.size = q.slots.size := by
  unfold resolve
  split
  · rfl
  · cases m with
    | event run e =>
      dsimp only
      split <;> rfl
    | line run =>
      dsimp only
      unfold deliverLine
      split <;> exact modifySlot_size

/-- The receiver disowns no run. -/
theorem resolve_abandoned (q : Queue) (m : Message) (r : Nat) :
    ((q.resolve m).2.slot r).abandoned = (q.slot r).abandoned := by
  have cleared (run : Nat) : ((q.clearQueued run).slot r).abandoned = (q.slot r).abandoned :=
    modifySlot_abandoned q (f := ({ · with queued := false })) (fun _ => rfl) run r
  unfold resolve
  split
  · rfl
  · cases m with
    | event run e =>
      dsimp only
      split <;> rfl
    | line run =>
      dsimp only
      unfold deliverLine
      split <;> exact cleared run

theorem drainFrom_rest (q : Queue) (seen : List Event) (ms : List Message) (r : Nat) :
    (q.drainFrom seen ms).2.toList = q.toList ∧
      ((q.drainFrom seen ms).2.slot r).abandoned = (q.slot r).abandoned := by
  induction ms generalizing q seen with
  | nil => exact ⟨rfl, rfl⟩
  | cons m rest ih =>
    have list := (resolve_rest q m).1
    have kept := resolve_abandoned q m r
    rw [drainFrom]
    rcases hx : q.resolve m with ⟨_ | e, q'⟩ <;> rw [hx] at list kept
    · exact ⟨(ih q' seen).1.trans list, (ih q' seen).2.trans kept⟩
    · exact ⟨(ih q' (e :: seen)).1.trans list, (ih q' (e :: seen)).2.trans kept⟩

/-- Nothing is left behind when all events are taken. -/
theorem drain_rest (q : Queue) (r : Nat) :
    q.drain.2.toList = [] ∧ (q.drain.2.slot r).abandoned = (q.slot r).abandoned :=
  drainFrom_rest { q with front := [], back := [] } [] q.toList r

/-- Nor does the first event that a list of messages delivers. -/
theorem takeFrom_ends (q : Queue) (ms front back : List Message) :
    (takeFrom { q with front, back } ms).1 = (q.takeFrom ms).1 := by
  induction ms generalizing q with
  | nil => rfl
  | cons m rest ih =>
    rw [takeFrom, takeFrom, resolve_ends]
    rcases q.resolve m with ⟨_ | x, q'⟩
    · exact ih q'
    · rfl

theorem takeFrom_append (q : Queue) (xs ys : List Message) :
    (q.takeFrom (xs ++ ys)).1 = (q.takeFrom xs).1.or ((q.takeFrom xs).2.takeFrom ys).1 := by
  induction xs generalizing q with
  | nil => exact (takeFrom_ends q ys [] q.back).symm
  | cons m rest ih =>
    rw [List.cons_append, takeFrom, takeFrom]
    rcases q.resolve m with ⟨_ | x, q'⟩
    · exact ih q'
    · rfl

theorem takeFrom_back (q : Queue) (ms : List Message) : (q.takeFrom ms).2.back = q.back := by
  induction ms generalizing q with
  | nil => rfl
  | cons m rest ih =>
    have back := (ends_resolve q m).2
    rw [takeFrom]
    rcases hx : q.resolve m with ⟨_ | x, q'⟩
    · rw [hx] at back
      exact (ih q').trans back
    · rw [hx] at back
      exact back

theorem takeFrom_abandoned (q : Queue) (ms : List Message) (r : Nat) :
    ((q.takeFrom ms).2.slot r).abandoned = (q.slot r).abandoned := by
  induction ms generalizing q with
  | nil => rfl
  | cons m rest ih =>
    have kept := resolve_abandoned q m r
    rw [takeFrom]
    rcases hx : q.resolve m with ⟨_ | e, q'⟩ <;> rw [hx] at kept
    · exact (ih q').trans kept
    · exact kept

theorem takeFrom_none (h : (q.takeFrom ms).1 = none) : (q.takeFrom ms).2.front = [] := by
  induction ms generalizing q with
  | nil => rfl
  | cons m rest ih =>
    rw [takeFrom] at h ⊢
    rcases hx : q.resolve m with ⟨_ | x, q'⟩
    · rw [hx] at h
      exact ih h
    · rw [hx] at h
      cases h

/-- Taking an event disowns no run. -/
theorem receive_abandoned (q : Queue) (r : Nat) :
    (q.receive.2.slot r).abandoned = (q.slot r).abandoned := by
  have front := takeFrom_abandoned q q.front r
  unfold receive
  rcases hx : q.takeFrom q.front with ⟨_ | e, q'⟩ <;> rw [hx] at front
  · exact (takeFrom_abandoned _ _ r).trans front
  · exact front

/-- The next event is the first that the entries deliver. -/
theorem receive_fst (q : Queue) : q.receive.1 = (q.takeFrom q.toList).1 := by
  have back := takeFrom_back q q.front
  rw [toList, takeFrom_append, receive]
  rcases hx : q.takeFrom q.front with ⟨_ | x, q'⟩
  · rw [hx] at back
    rw [← back]
    exact takeFrom_ends q' q'.back.reverse q'.front []
  · rfl

end Queue
end ScriptHost
