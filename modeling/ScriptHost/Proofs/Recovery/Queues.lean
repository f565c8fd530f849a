import ScriptHost.Proofs.Silence.Queues

/-!
# Queues that differ in runs that were refused

A launch that is refused takes a number and a slot, and queues that it has
stopped. So where one history has some more refused launches than another, the
runs behind them have other numbers. `Extra` tells which numbers are in one of
the histories only, and `Extra.place` where the others are.

* `Extra.Among`: the same entries, with those of the extra runs among them.
* `Queue.Added`: what is done to both queues keeps them so, under the number
  that the run has in each.
* `Added.more`: one more launch is refused in the first.
-/
namespace ScriptHost

/-- The runs that one history has and another has not: so many, from a number on. -/
structure Extra where
  first : Nat
  count : Nat
  deriving DecidableEq, Repr

namespace Extra

variable {x : Extra} {i j n : Nat}

/-- The number is that of a run which the other history has not. -/
def has (x : Extra) (i : Nat) : Bool := decide (x.first ≤ i) && decide (i < x.first + x.count)

/-- The number that a run of the other history has in this one. -/
def place (x : Extra) (j : Nat) : Nat := if j < x.first then j else j + x.count

/-- One more run behind them. -/
def more (x : Extra) : Extra := { x with count := x.count + 1 }

theorem has_iff : x.has i = true ↔ x.first ≤ i ∧ i < x.first + x.count := by
  simp [has]

@[simp] theorem has_place (x : Extra) (j : Nat) : x.has (x.place j) = false := by
  rw [← Bool.not_eq_true, has_iff, place]
  split <;> omega

@[simp] theorem place_inj : x.place i = x.place j ↔ i = j := by
  unfold place
  split <;> split <;> omega

theorem ne_place (h : x.has i = true) (j : Nat) : i ≠ x.place j := by
  rintro rfl
  rw [has_place] at h
  cases h

theorem exists_place (h : x.has i = false) : ∃ j, x.place j = i := by
  rw [← Bool.not_eq_true, has_iff] at h
  by_cases hi : i < x.first
  · exact ⟨i, if_pos hi⟩
  · refine ⟨i - x.count, ?_⟩
    rw [place, if_neg] <;> omega

theorem place_of_lt (h : j < x.first) : x.place j = j := if_pos h

theorem place_of_le (h : x.first ≤ j) : x.place j = j + x.count := if_neg (Nat.not_lt.mpr h)

theorem place_lt (h : x.first ≤ n) : x.place j < n + x.count ↔ j < n := by
  unfold place
  split <;> omega

/-- Without extra runs every number is the same in both. -/
theorem place_of_none (h : x.count = 0) (j : Nat) : x.place j = j := by simp [place, h]

theorem has_of_none (h : x.count = 0) (i : Nat) : x.has i = false := by
  rw [← Bool.not_eq_true, has_iff]
  omega

theorem more_has : x.more.has i = true ↔ x.has i = true ∨ i = x.first + x.count := by
  simp only [has_iff, more]
  omega

end Extra

/-- The message under the number that its run has in the other history. -/
def Message.place (x : Extra) : Message → Message
  | .event r e => .event (x.place r) e
  | .line r => .line (x.place r)

@[simp] theorem Message.run_place (x : Extra) (m : Message) : (m.place x).run = x.place m.run := by
  cases m <;> rfl

theorem Message.place_of_lt {x : Extra} {m : Message} (h : m.run < x.first) : m.place x = m := by
  cases m with
  | event r e => exact congrArg (Message.event · e) (Extra.place_of_lt h)
  | line r => exact congrArg Message.line (Extra.place_of_lt h)

/-- The first list is the second, with messages among it that extra runs have stopped. -/
inductive Extra.Among (x : Extra) : List Message → List Message → Prop where
  | nil : Among x [] []
  | kept {xs ys : List Message} (m : Message) (h : Among x xs ys) :
    Among x (m.place x :: xs) (m :: ys)
  | extra {xs ys : List Message} (i : Nat) (o : Outcome) (hi : x.has i = true) (h : Among x xs ys) :
    Among x (.event i (.stopped o) :: xs) ys

namespace Extra.Among

variable {x : Extra} {xs ys xs' ys' : List Message}

theorem append (h : x.Among xs ys) (h' : x.Among xs' ys') : x.Among (xs ++ xs') (ys ++ ys') := by
  induction h with
  | nil => exact h'
  | kept m _ ih => exact .kept m ih
  | extra i o hi _ ih => exact .extra i o hi ih

/-- Without extra runs the lists are the same. -/
theorem refl (h : x.count = 0) (xs : List Message) : x.Among xs xs := by
  induction xs with
  | nil => exact .nil
  | cons m _ ih =>
    have here : m.place x = m := by cases m <;> simp [Message.place, Extra.place_of_none h]
    have kept := Among.kept m ih
    rwa [here] at kept

theorem filter_eq (h : x.Among xs ys) : xs.filter (!x.has ·.run) = ys.map (·.place x) := by
  induction h with
  | nil => rfl
  | kept m _ ih => simp [ih]
  | extra i o hi _ ih => simp [hi, ih]

/-- One more number is that of an extra run, and it is not among those of the second list. -/
theorem more (h : x.Among xs ys) (lt : ∀ m ∈ ys, m.run < x.first) : x.more.Among xs ys := by
  induction h with
  | nil => exact .nil
  | kept m _ ih =>
    obtain ⟨own, rest⟩ := List.forall_mem_cons.mp lt
    have same : m.place x.more = m.place x :=
      (Message.place_of_lt (x := x.more) own).trans (Message.place_of_lt own).symm
    exact same ▸ .kept m (ih rest)
  | extra i o hi _ ih => exact .extra i o (Extra.more_has.mpr (.inl hi)) (ih lt)

end Extra.Among

namespace Queue

variable {x : Extra} {q q' p p' : Queue} {m : Message}

/-- The first queue is the second with the slots and the messages of extra runs. -/
structure Added (x : Extra) (q p : Queue) : Prop where
  first : x.first ≤ p.slots.size
  size : q.slots.size = p.slots.size + x.count
  slot : ∀ j, q.slot (x.place j) = p.slot j
  fresh : ∀ i, x.has i = true → q.slot i = {}
  lastLine : q.lastLine = p.lastLine
  receiving : q.receiving = p.receiving
  among : x.Among q.toList p.toList

namespace Added

theorem refl (h : x.count = 0) (first : x.first ≤ q.slots.size) : q.Added x q := by
  refine ⟨first, by rw [h, Nat.add_zero], fun j => ?_, fun i hi => ?_, rfl, rfl, .refl h _⟩
  · rw [Extra.place_of_none h]
  · rw [Extra.has_of_none h] at hi
    cases hi

/-! ## Slots -/

theorem modifySlot (h : q.Added x p) (j : Nat) (f : Slot → Slot) :
    (q.modifySlot (x.place j) f).Added x (p.modifySlot j f) := by
  refine ⟨by simp [h.first], by simp [h.size], fun i => ?_, fun i hi => ?_, h.lastLine, h.receiving,
    h.among⟩
  · simp only [slot_modifySlot, h.slot, h.size, Extra.place_lt h.first, Extra.place_inj]
  · rw [slot_modifySlot, if_neg fun own => Extra.ne_place hi j own.1, h.fresh i hi]

theorem openRun_slot (q : Queue) (i : Nat) : q.openRun.2.slot i = q.slot i := by
  simp only [Queue.openRun, Queue.slot, Array.getElem?_push]
  split
  · subst i
    simp
  · rfl

theorem openRun (h : q.Added x p) :
    q.openRun.1 = x.place p.openRun.1 ∧ q.openRun.2.Added x p.openRun.2 := by
  refine ⟨?_, ⟨?_, ?_, fun j => ?_, fun i hi => ?_, h.lastLine, h.receiving, h.among⟩⟩
  · exact h.size.trans (Extra.place_of_le h.first).symm
  · have := h.first
    simp only [Queue.openRun, Array.size_push]
    omega
  · simp [Queue.openRun, h.size, Nat.add_right_comm]
  · rw [openRun_slot, openRun_slot, h.slot]
  · rw [openRun_slot, h.fresh i hi]

/-! ## Entries -/

theorem of_same (h : q.Added x p) (slots : q'.slots = q.slots) (slots' : p'.slots = p.slots)
    (lastLine : q'.lastLine = p'.lastLine) (receiving : q'.receiving = p'.receiving)
    (among : x.Among q'.toList p'.toList) : q'.Added x p' := by
  have slot {q q' : Queue} (same : q'.slots = q.slots) (i : Nat) : q'.slot i = q.slot i := by
    rw [Queue.slot, same, Queue.slot]
  refine ⟨slots' ▸ h.first, by rw [slots, slots', h.size], fun j => ?_, fun i hi => ?_, lastLine,
    receiving, among⟩
  · rw [slot slots, slot slots', h.slot]
  · rw [slot slots, h.fresh i hi]

theorem push_rest (q : Queue) (m : Message) : (q.push m).slots = q.slots ∧
    (q.push m).lastLine = q.lastLine ∧ (q.push m).receiving = q.receiving := by
  unfold Queue.push
  split <;> exact ⟨rfl, rfl, rfl⟩

theorem push (h : q.Added x p) (m : Message) : (q.push (m.place x)).Added x (p.push m) := by
  obtain ⟨slots, lastLine, receiving⟩ := push_rest q (m.place x)
  obtain ⟨slots', lastLine', receiving'⟩ := push_rest p m
  refine h.of_same slots slots' (by rw [lastLine, lastLine', h.lastLine])
    (by rw [receiving, receiving', h.receiving]) ?_
  rw [push_toList, push_toList, h.receiving]
  refine h.among.append ?_
  split
  · exact .kept m .nil
  · exact .nil

/-- One more launch is refused in the first. -/
theorem more (h : q.Added x p) (last : p.slots.size = x.first)
    (lt : ∀ m ∈ p.toList, m.run < x.first) (o : Outcome) :
    q.openRun.1 = x.first + x.count ∧
      (q.openRun.2.send q.openRun.1 (.stopped o)).Added x.more p := by
  have number : q.openRun.1 = x.first + x.count := by rw [← last]; exact h.size
  have slot (i : Nat) : (q.openRun.2.send q.openRun.1 (.stopped o)).slot i = q.slot i := by
    rw [send, slot_push, openRun_slot]
  obtain ⟨slots, lastLine, receiving⟩ := push_rest q.openRun.2 (.event q.openRun.1 (.stopped o))
  refine ⟨number, ⟨Nat.le_of_eq last.symm, ?_, fun j => ?_, fun i hi => ?_, ?_, ?_, ?_⟩⟩
  · simp only [send, slots]
    simp [Queue.openRun, h.size, Extra.more, Nat.add_assoc]
  · rw [slot]
    by_cases hj : j < x.first
    · rw [Extra.place_of_lt (x := x.more) hj, ← h.slot j, Extra.place_of_lt hj]
    · have past : x.more.place j = j + (x.count + 1) := if_neg hj
      have size := h.size
      rw [past, slot_of_size_le (q := p) (by omega), slot_of_size_le (by omega)]
  · rw [slot]
    rcases Extra.more_has.mp hi with hi | rfl
    · exact h.fresh i hi
    · exact slot_of_size_le (Nat.le_of_eq number)
  · exact lastLine.trans h.lastLine
  · exact receiving.trans h.receiving
  · rw [send, push_toList, ← List.append_nil p.toList]
    refine (h.among.more lt).append ?_
    split
    · exact .extra _ o (Extra.more_has.mpr (.inr number)) .nil
    · exact .nil

/-! ## The receiver -/

theorem deliverLine (h : q.Added x p) (n : UInt32) :
    (q.deliverLine n).1 = (p.deliverLine n).1 ∧ (q.deliverLine n).2.Added x (p.deliverLine n).2 := by
  unfold Queue.deliverLine
  rw [h.lastLine]
  split
  · exact ⟨rfl, h⟩
  · exact ⟨rfl, h.of_same rfl rfl rfl h.receiving h.among⟩

/-- An event is delivered in both, or in neither. -/
theorem resolve_event (h : q.Added x p) (r : Nat) (e : Event) :
    (q.resolve (.event (x.place r) e)).1 = (p.resolve (.event r e)).1 ∧
      (q.resolve (.event (x.place r) e)).2.Added x (p.resolve (.event r e)).2 := by
  have slot : q.slot (Message.event (x.place r) e).run = p.slot (Message.event r e).run := h.slot r
  unfold Queue.resolve
  rw [slot]
  split
  · exact ⟨rfl, h⟩
  · refine ⟨rfl, ?_⟩
    dsimp only
    split
    · exact h.of_same rfl rfl rfl h.receiving h.among
    · exact h

/-- The oldest entry of the first is the oldest of the second, or that of an extra run. -/
theorem pop (h : q.Added x p) (hq : q.pop? = some (m, q')) :
    (∃ n p', m = n.place x ∧ p.pop? = some (n, p') ∧ q'.Added x p') ∨
      (∃ i o, x.has i = true ∧ m = .event i (.stopped o)) ∧ q'.Added x p := by
  obtain ⟨list, slots, lastLine, receiving⟩ := pop?_some hq
  have among := h.among
  rw [list] at among
  generalize hp : p.toList = ys at among
  cases among with
  | kept n rest =>
    obtain ⟨p', pop, list'⟩ := pop?_of_toList hp
    obtain ⟨_, slots', lastLine', receiving'⟩ := pop?_some pop
    refine .inl ⟨n, p', rfl, pop, h.of_same slots slots' ?_ ?_ ?_⟩
    · rw [lastLine, lastLine', h.lastLine]
    · rw [receiving, receiving', h.receiving]
    · rwa [list']
  | extra i o hi rest =>
    exact .inr ⟨⟨i, o, hi, rfl⟩, h.of_same slots rfl (lastLine.trans h.lastLine)
      (receiving.trans h.receiving) (hp ▸ rest)⟩

end Added
end Queue
end ScriptHost
