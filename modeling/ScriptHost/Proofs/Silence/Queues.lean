import ScriptHost.Proofs.Queue

/-!
# Queues that differ in a disowned run

Two queues are alike for a run when both have disowned it, agree about all other
slots, and one has the entries of the other but for some of that run.

* `Alike.receive`: the receiver cannot tell them apart.
* `Alike.push`, `Alike.modifySlot`, `Alike.openRun`: what is done to both keeps
  them alike, and so does what the run itself does to one of them
  (`Alike.extends`).
-/
namespace ScriptHost

/-- The list `ys` is `xs` without some messages of the run `id`. -/
inductive Thinned (id : Nat) : List Message → List Message → Prop where
  | nil : Thinned id [] []
  | keep {xs ys : List Message} (m : Message) (h : Thinned id xs ys) : Thinned id (m :: xs) (m :: ys)
  | skip {xs ys : List Message} (m : Message) (own : m.run = id) (h : Thinned id xs ys) :
    Thinned id (m :: xs) ys

namespace Thinned

variable {id : Nat} {xs ys xs' ys' : List Message}

theorem refl (xs : List Message) : Thinned id xs xs := by
  induction xs with
  | nil => exact .nil
  | cons m _ ih => exact .keep m ih

theorem append (h : Thinned id xs ys) (h' : Thinned id xs' ys') :
    Thinned id (xs ++ xs') (ys ++ ys') := by
  induction h with
  | nil => exact h'
  | keep m _ ih => exact .keep m ih
  | skip m own _ ih => exact .skip m own ih

theorem of_own (h : ∀ m ∈ xs, m.run = id) : Thinned id xs [] := by
  induction xs with
  | nil => exact .nil
  | cons m rest ih =>
    exact .skip m (h m List.mem_cons_self) (ih fun m hm => h m (List.mem_cons_of_mem _ hm))

end Thinned

namespace Queue

/-- The two queues agree in what decides about deliveries, and have disowned the run `id`. -/
structure Agrees (id : Nat) (q p : Queue) : Prop where
  slot : ∀ r ≠ id, q.slot r = p.slot r
  size : q.slots.size = p.slots.size
  gone : (q.slot id).abandoned = true
  gone' : (p.slot id).abandoned = true
  lastLine : q.lastLine = p.lastLine

/-- The two queues agree, and the second has the entries of the first but for some of the run `id`. -/
structure Alike (id : Nat) (q p : Queue) : Prop extends Agrees id q p where
  receiving : q.receiving = p.receiving
  thinned : Thinned id q.toList p.toList

variable {id r : Nat} {q p q' : Queue} {m : Message} {ms xs ys : List Message}

/-! ## Slots -/

theorem Agrees.modifySlot (h : q.Agrees id p) {f : Slot → Slot}
    (kept : ∀ k, k.abandoned = true → (f k).abandoned = true) (r : Nat) :
    (q.modifySlot r f).Agrees id (p.modifySlot r f) := by
  refine ⟨fun i hi => ?_, by simp [h.size], ?_, ?_, h.lastLine⟩
  · rw [slot_modifySlot, slot_modifySlot, h.slot i hi, h.size]
  · rw [slot_modifySlot]
    split
    · exact kept _ h.gone
    · exact h.gone
  · rw [slot_modifySlot]
    split
    · exact kept _ h.gone'
    · exact h.gone'

theorem Alike.modifySlot (h : q.Alike id p) {f : Slot → Slot}
    (kept : ∀ k, k.abandoned = true → (f k).abandoned = true) (r : Nat) :
    (q.modifySlot r f).Alike id (p.modifySlot r f) :=
  ⟨h.toAgrees.modifySlot kept r, h.receiving, h.thinned⟩

/-- A slot for one more run. -/
theorem Alike.openRun (h : q.Alike id p) (hid : id < q.slots.size) :
    q.openRun.1 = p.openRun.1 ∧ q.openRun.2.Alike id p.openRun.2 := by
  have slot (q : Queue) (i : Nat) :
      q.openRun.2.slot i = if i = q.slots.size then {} else q.slot i := by
    simp only [Queue.openRun, Queue.slot, Array.getElem?_push]
    split <;> rfl
  have hid' : id < p.slots.size := h.size ▸ hid
  refine ⟨h.size, ⟨fun i hi => ?_, ?_, ?_, ?_, h.lastLine⟩, h.receiving, h.thinned⟩
  · rw [slot, slot, h.slot i hi, h.size]
  · simp [Queue.openRun, h.size]
  · rw [slot, if_neg (Nat.ne_of_lt hid), h.gone]
  · rw [slot, if_neg (Nat.ne_of_lt hid'), h.gone']

/-! ## Entries -/

theorem push_toList (q : Queue) (m : Message) :
    (q.push m).toList = q.toList ++ if q.receiving then [m] else [] := by
  unfold push
  split <;> simp_all [toList]

theorem Alike.push (h : q.Alike id p) (m : Message) : (q.push m).Alike id (p.push m) := by
  have same (q : Queue) : (q.push m).slots = q.slots ∧ (q.push m).lastLine = q.lastLine ∧
      (q.push m).receiving = q.receiving := by
    unfold Queue.push
    split <;> exact ⟨rfl, rfl, rfl⟩
  refine ⟨⟨fun i hi => ?_, ?_, ?_, ?_, ?_⟩, ?_, ?_⟩
  · rw [slot_push, slot_push, h.slot i hi]
  · rw [(same q).1, (same p).1, h.size]
  · rw [slot_push, h.gone]
  · rw [slot_push, h.gone']
  · rw [(same q).2.1, (same p).2.1, h.lastLine]
  · rw [(same q).2.2, (same p).2.2, h.receiving]
  · rw [push_toList, push_toList, h.receiving]
    exact h.thinned.append (.refl _)

/-- What the run itself does to one of the queues. -/
theorem Alike.extends (h : q.Alike id p) (e : q.Extends q' id ms)
    (kept : (q'.slot id).abandoned = (q.slot id).abandoned) : q'.Alike id p := by
  refine ⟨⟨fun i hi => ?_, ?_, ?_, h.gone', ?_⟩, ?_, ?_⟩
  · rw [e.slot i hi, h.slot i hi]
  · rw [e.size, h.size]
  · rw [kept, h.gone]
  · rw [e.lastLine, h.lastLine]
  · rw [e.receiving, h.receiving]
  · rw [e.toList, ← List.append_nil p.toList]
    exact h.thinned.append (.of_own e.own)

/-! ## The receiver -/

theorem resolve_gone (own : m.run = id) (gone : (q.slot id).abandoned = true) :
    q.resolve m = (none, q) := by
  simp [resolve, own, gone]

theorem Agrees.deliverLine (h : q.Agrees id p) (n : UInt32) :
    (q.deliverLine n).1 = (p.deliverLine n).1 ∧ (q.deliverLine n).2.Agrees id (p.deliverLine n).2 := by
  unfold Queue.deliverLine
  rw [h.lastLine]
  split
  · exact ⟨rfl, h⟩
  · exact ⟨rfl, ⟨h.slot, h.size, h.gone, h.gone', rfl⟩⟩

theorem Agrees.resolve (h : q.Agrees id p) (m : Message) :
    (q.resolve m).1 = (p.resolve m).1 ∧ (q.resolve m).2.Agrees id (p.resolve m).2 := by
  by_cases own : m.run = id
  · rw [resolve_gone own h.gone, resolve_gone own h.gone']
    exact ⟨rfl, h⟩
  · have slot := h.slot _ own
    unfold Queue.resolve
    rw [slot]
    split
    · exact ⟨rfl, h⟩
    · cases m with
      | event r e =>
        refine ⟨rfl, ?_⟩
        dsimp only
        split
        · exact ⟨h.slot, h.size, h.gone, h.gone', rfl⟩
        · exact h
      | line r =>
        have cleared : (q.clearQueued r).Agrees id (p.clearQueued r) :=
          h.modifySlot (by intro _ gone; exact gone) r
        dsimp only
        rw [cleared.slot r own]
        exact cleared.deliverLine _

theorem Alike.deliverLine (h : q.Alike id p) (n : UInt32) :
    (q.deliverLine n).1 = (p.deliverLine n).1 ∧ (q.deliverLine n).2.Alike id (p.deliverLine n).2 := by
  obtain ⟨same, agrees⟩ := h.toAgrees.deliverLine n
  obtain ⟨list, receiving⟩ := deliverLine_rest q n
  obtain ⟨list', receiving'⟩ := deliverLine_rest p n
  exact ⟨same, agrees, by rw [receiving, receiving', h.receiving], by rw [list, list']; exact h.thinned⟩

theorem Alike.resolve (h : q.Alike id p) (m : Message) :
    (q.resolve m).1 = (p.resolve m).1 ∧ (q.resolve m).2.Alike id (p.resolve m).2 := by
  obtain ⟨same, agrees⟩ := h.toAgrees.resolve m
  obtain ⟨list, receiving⟩ := resolve_rest q m
  obtain ⟨list', receiving'⟩ := resolve_rest p m
  exact ⟨same, agrees, by rw [receiving, receiving', h.receiving], by rw [list, list']; exact h.thinned⟩

theorem Agrees.takeFrom (h : q.Agrees id p) (thinned : Thinned id xs ys) :
    (q.takeFrom xs).1 = (p.takeFrom ys).1 := by
  induction thinned generalizing q p with
  | nil => rfl
  | keep m _ ih =>
    obtain ⟨same, h⟩ := h.resolve m
    rw [Queue.takeFrom, Queue.takeFrom]
    rcases hq : q.resolve m with ⟨x, q'⟩
    rcases hp : p.resolve m with ⟨y, p'⟩
    rw [hq, hp] at same h
    cases same
    cases x with
    | none => exact ih h
    | some e => rfl
  | skip m own _ ih =>
    rw [Queue.takeFrom, resolve_gone own h.gone]
    exact ih h

/-- The event that would be received next is the same. -/
theorem Alike.receive (h : q.Alike id p) : q.receive.1 = p.receive.1 := by
  rw [receive_fst, receive_fst]
  exact h.toAgrees.takeFrom h.thinned

/-- The oldest entry of the first is the oldest of the second, or is missing there. -/
theorem Alike.pop (h : q.Alike id p) (hq : q.pop? = some (m, q')) :
    (∃ p', p.pop? = some (m, p') ∧ q'.Alike id p') ∨ m.run = id ∧ q'.Alike id p := by
  obtain ⟨list, slots, lastLine, receiving⟩ := pop?_some hq
  have slot (i : Nat) : q'.slot i = q.slot i := by rw [Queue.slot, slots, Queue.slot]
  have agrees : q'.Agrees id p :=
    ⟨fun i hi => (slot i).trans (h.slot i hi), by rw [slots, h.size], by rw [slot, h.gone], h.gone',
      by rw [lastLine, h.lastLine]⟩
  have thinned := h.thinned
  rw [list] at thinned
  generalize hp : p.toList = ys at thinned
  cases thinned with
  | keep _ rest =>
    obtain ⟨p', pop, list'⟩ := pop?_of_toList hp
    obtain ⟨_, slots', lastLine', receiving'⟩ := pop?_some pop
    have slot' (i : Nat) : p'.slot i = p.slot i := by rw [Queue.slot, slots', Queue.slot]
    refine .inl ⟨p', pop, ⟨fun i hi => ?_, ?_, agrees.gone, ?_, ?_⟩, ?_, ?_⟩
    · rw [slot', agrees.slot i hi]
    · rw [slots', agrees.size]
    · rw [slot', h.gone']
    · rw [lastLine', agrees.lastLine]
    · rw [receiving, receiving', h.receiving]
    · rwa [list']
  | skip _ own rest => exact .inr ⟨own, agrees, receiving.trans h.receiving, hp ▸ rest⟩

end Queue
end ScriptHost
