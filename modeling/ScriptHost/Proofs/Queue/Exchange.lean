import ScriptHost.Proofs.Queue

/-!
# Senders and the receiver at one queue

The engine opens runs, runs are spoken for by handles that are cloned and
dropped, and the receiver asks for the next event, either at once or by waiting
for it. Both ways of asking are a loop of rounds: a round takes the oldest
entry and resolves it, and the call is over when that delivers something. A
call that waits may give way between two rounds and may be given up there.

`Exchange` is the queue with these parties and a log of what they did.

* `Exchange.rounds_receive`: the rounds of one call make up `Queue.receive`.
* `Exchange.Disowned`: a run is disowned from the moment on in which somebody
  gives it up, and every entry that is taken is logged so.
* `Exchange.first_in_first_out`: what was sent is taken in order, and of what
  was taken the events of runs that were not disowned by then are delivered.
-/
namespace ScriptHost

/-- The run and the event of an entry that is no line marker. -/
def Message.event? : Message → Option (Nat × Event)
  | .event r e => some (r, e)
  | .line _ => none

namespace Queue

variable {q q' : Queue} {m : Message} {ms : List Message} {seen : List Event}

/-! ## One entry at a time -/

theorem takeFrom_front (q : Queue) (ms front : List Message) :
    takeFrom { q with front } ms = q.takeFrom ms := by
  induction ms generalizing q front with
  | nil => rfl
  | cons m rest ih =>
    have back := (ends_resolve q m).2
    rw [takeFrom, takeFrom, resolve_ends q m front q.back]
    rcases hx : q.resolve m with ⟨_ | e, q'⟩ <;> rw [hx] at back <;> simp only at back ⊢ <;>
      rw [← back]
    exact ih q' front

/-- When `front` is used up, the entries behind it come next. -/
def turnBack : Option Event × Queue → Option Event × Queue
  | (some e, q) => (some e, q)
  | (none, q) => takeFrom { q with back := [] } q.back.reverse

theorem receive_eq (q : Queue) : q.receive = turnBack (q.takeFrom q.front) := by
  unfold receive turnBack
  rcases q.takeFrom q.front with ⟨_ | e, q'⟩ <;> rfl

/-- Nothing is behind what was turned. -/
theorem turnBack_takeFrom (hb : q.back = []) (ms : List Message) :
    turnBack (q.takeFrom ms) = q.takeFrom ms := by
  have back := takeFrom_back q ms
  have front : (q.takeFrom ms).1 = none → (q.takeFrom ms).2.front = [] := takeFrom_none
  rcases hx : q.takeFrom ms with ⟨_ | e, slots, front', back', lastLine, receiving⟩ <;>
    rw [hx] at back front
  · obtain rfl : back' = [] := back.trans hb
    obtain rfl : front' = [] := front rfl
    rfl
  · rfl

/-- The next event is what the oldest entry delivers, or else the next event behind it. -/
theorem receive_pop (q : Queue) :
    q.receive = match q.pop? with
      | none => (none, q)
      | some (m, q) =>
        match q.resolve m with
        | (some e, q) => (some e, q)
        | (none, q) => q.receive := by
  rw [receive_eq]
  unfold pop?
  cases hf : q.front with
  | cons m rest =>
    have back := (ends_resolve q m).2
    simp only [takeFrom, resolve_ends q m rest q.back]
    rcases hx : q.resolve m with ⟨_ | e, q'⟩ <;> rw [hx] at back <;> simp only at back ⊢ <;>
      rw [← back]
    · rw [receive_eq, takeFrom_front q' rest rest]
    · rfl
  | nil =>
    simp only [takeFrom, turnBack]
    cases hb : q.back.reverse with
    | nil =>
      obtain ⟨slots, front, back, lastLine, receiving⟩ := q
      simp_all [takeFrom]
    | cons m rest =>
      simp only [takeFrom, resolve_ends q m rest [], resolve_ends q m [] []]
      rcases hx : q.resolve m with ⟨_ | e, q'⟩ <;> simp only
      rw [receive_eq, takeFrom_front { q' with back := [] } rest [],
        takeFrom_front { q' with back := [] } rest rest, turnBack_takeFrom rfl]

/-! ### What is still to be delivered -/

theorem drainFrom_seen (q : Queue) (seen : List Event) (ms : List Message) :
    (q.drainFrom seen ms).1 = seen.reverse ++ (q.drainFrom [] ms).1 := by
  induction ms generalizing q seen with
  | nil => simp [drainFrom]
  | cons m rest ih =>
    rw [drainFrom, drainFrom]
    rcases q.resolve m with ⟨_ | e, q'⟩
    · exact ih q' seen
    · simp only
      rw [ih q' (e :: seen), ih q' [e]]
      simp

theorem drainFrom_ends (q : Queue) (seen : List Event) (ms front back : List Message) :
    (drainFrom { q with front, back } seen ms).1 = (q.drainFrom seen ms).1 := by
  induction ms generalizing q seen with
  | nil => rfl
  | cons m rest ih =>
    rw [drainFrom, drainFrom, resolve_ends]
    rcases q.resolve m with ⟨_ | e, q'⟩
    · exact ih q' seen
    · exact ih q' (e :: seen)

theorem drain_fst (q : Queue) : q.drain.1 = (q.drainFrom [] q.toList).1 :=
  drainFrom_ends q [] q.toList [] []

theorem pop?_ends (h : q.pop? = some (m, q')) : ∃ front back, q' = { q with front, back } := by
  unfold pop? at h
  split at h
  · cases h
    exact ⟨_, q.back, rfl⟩
  · split at h
    · cases h
      exact ⟨_, [], rfl⟩
    · cases h

/-- An entry that is taken delivers first what all entries deliver. -/
theorem drain_pop (h : q.pop? = some (m, q')) :
    q.drain.1 = (q'.resolve m).1.toList ++ (q'.resolve m).2.drain.1 := by
  have list := (pop?_some h).1
  have same := ends_resolve q' m
  obtain ⟨front, back, rfl⟩ := pop?_ends h
  have rest : Queue.toList (resolve { q with front, back } m).2 = front ++ back.reverse := by
    rw [toList, same.1, same.2]
  rw [drain_fst, drain_fst, rest, list, drainFrom, resolve_ends q m front back]
  rcases q.resolve m with ⟨_ | e, p⟩
  · exact (drainFrom_ends p [] _ front back).symm
  · simp only
    rw [drainFrom_seen p [e], drainFrom_ends p [] _ front back]
    rfl

theorem resolve_of_abandoned (h : (q.slot m.run).abandoned = true) : q.resolve m = (none, q) :=
  if_pos h

theorem resolve_event {r : Nat} {e : Event} (h : (q.slot r).abandoned = false) :
    (q.resolve (.event r e)).1 = some e := by
  simp [resolve, h]

/-! ## The parties -/

/-- What the engine and the runs do at the queue. -/
inductive Saying where
  | openRun
  | cloneSender
  | dropSender
  | cloneRun (run : Nat)
  | dropRun (run : Nat)
  | send (run : Nat) (e : Event)
  | line (run : Nat) (n : UInt32)
  | abandon (run : Nat)
  deriving DecidableEq

/-- The event that is sent. -/
def Saying.event? : Saying → Option (Nat × Event)
  | .send r e => some (r, e)
  | _ => none

/-- How the receiver asks for the next event: it takes what is there, or waits until there is one. -/
inductive Asking where
  | now
  | wait
  deriving DecidableEq

/-- What is done at a queue. -/
inductive Act where
  | say (s : Saying)
  | ask (a : Asking)
  /-- One round of the loop of the receiver's call. -/
  | round
  /-- A call that waits is given up. -/
  | giveUp

/-- What a sender does. -/
def Act.saying? : Act → Option Saying
  | .say s => some s
  | _ => none

/-- What has been done at a queue. -/
inductive Entry where
  | said (s : Saying)
  /-- An entry left the queue; its run was disowned by then, or not. -/
  | took (m : Message) (abandoned : Bool)
  /-- A call returned what an entry delivers. -/
  | gave (m : Message) (e : Event)
  /-- A call returned because nothing was there. -/
  | nothing
  /-- A call that waited returned because nothing will ever be there. -/
  | ended
  deriving DecidableEq

namespace Entry

def sent? : Entry → Option (Nat × Event)
  | .said s => s.event?
  | _ => none

def taken? : Entry → Option (Message × Bool)
  | .took m abandoned => some (m, abandoned)
  | _ => none

def given? : Entry → Option Event
  | .gave _ e => some e
  | _ => none

def passed? : Entry → Option (Nat × Event)
  | .gave m e => m.event?.map fun (run, _) => (run, e)
  | _ => none

/-- A call found nothing to return. -/
def isVain : Entry → Bool
  | .nothing | .ended => true
  | _ => false

/-- What is logged when a message that left the queue is resolved. -/
def resolving (q : Queue) (m : Message) : List Entry :=
  .took m (q.slot m.run).abandoned :: ((q.resolve m).1.map (gave m)).toList

end Entry

/-- A queue with its parties. -/
structure Exchange where
  queue : Queue := {}
  /-- How many clones of the engine's end there are. -/
  senders : Nat := 1
  /-- The runs that are spoken for, once for each handle. -/
  handles : List Nat := []
  /-- The receiver's call. -/
  asking : Option Asking := none
  log : List Entry := []

namespace Saying

/-- It takes a sender or a handle on the run. -/
def isAble (x : Exchange) : Saying → Bool
  | .openRun | .cloneSender | .dropSender => 0 < x.senders
  | .cloneRun r | .dropRun r | .send r _ | .line r _ | .abandon r => x.handles.contains r

def onQueue (q : Queue) : Saying → Queue
  | .openRun => q.openRun.2
  | .send r e => q.send r e
  | .line r n => q.publish r n
  | .abandon r => q.abandon r
  | .cloneSender | .dropSender | .cloneRun _ | .dropRun _ => q

def onSenders (n : Nat) : Saying → Nat
  | .cloneSender => n + 1
  | .dropSender => n - 1
  | _ => n

/-- The handles afterwards; a new run gets the number `next`. -/
def onHandles (next : Nat) (handles : List Nat) : Saying → List Nat
  | .openRun => next :: handles
  | .cloneRun r => r :: handles
  | .dropRun r => handles.erase r
  | _ => handles

end Saying

namespace Exchange

/-- Nobody is left who could send. -/
def isClosed (x : Exchange) : Bool := x.senders = 0 && x.handles.isEmpty

/-- A sender does what it can do. -/
def say (x : Exchange) (s : Saying) : Exchange :=
  if s.isAble x then
    { x with
      queue := s.onQueue x.queue
      senders := s.onSenders x.senders
      handles := s.onHandles x.queue.openRun.1 x.handles
      log := x.log ++ [.said s] }
  else x

/-- One round of a call. -/
def round (x : Exchange) (a : Asking) : Exchange :=
  match x.queue.pop? with
  | none =>
    match a with
    | .now => { x with asking := none, log := x.log ++ [.nothing] }
    | .wait => if x.isClosed then { x with asking := none, log := x.log ++ [.ended] } else x
  | some (m, q) =>
    let (e, queue) := q.resolve m
    { x with
      queue, asking := if e.isSome then none else x.asking
      log := x.log ++ Entry.resolving q m }

/-- What cannot be done leaves all as it is. -/
def act (x : Exchange) : Act → Exchange
  | .say s => x.say s
  | .ask a => if x.asking = none then { x with asking := some a } else x
  | .round =>
    match x.asking with
    | none => x
    | some a => x.round a
  | .giveUp => if x.asking = some .wait then { x with asking := none } else x

/-! ### What the log tells -/

/-- The events sent, in the order in which they were sent. -/
def sent (x : Exchange) : List (Nat × Event) := x.log.filterMap Entry.sent?

/-- The entries taken, and whether their run was disowned by then. -/
def taken (x : Exchange) : List (Message × Bool) := x.log.filterMap Entry.taken?

/-- The events delivered. -/
def given (x : Exchange) : List Event := x.log.filterMap Entry.given?

/-- The events delivered that were sent as such. -/
def passed (x : Exchange) : List (Nat × Event) := x.log.filterMap Entry.passed?

/-- The events delivered, and behind them those that the queue would deliver now. -/
def stream (x : Exchange) : List Event := x.given ++ x.queue.drain.1

variable {x y : Exchange} {s : Saying} {a : Asking}

/-! ## What was sent is taken in order -/

theorem resolving_sent (q : Queue) (m : Message) :
    (Entry.resolving q m).filterMap Entry.sent? = [] := by
  unfold Entry.resolving
  rcases (q.resolve m).1 with _ | e <;> rfl

theorem resolving_taken (q : Queue) (m : Message) :
    (Entry.resolving q m).filterMap Entry.taken? = [(m, (q.slot m.run).abandoned)] := by
  unfold Entry.resolving
  rcases (q.resolve m).1 with _ | e <;> rfl

theorem resolving_given (q : Queue) (m : Message) :
    (Entry.resolving q m).filterMap Entry.given? = (q.resolve m).1.toList := by
  unfold Entry.resolving
  rcases (q.resolve m).1 with _ | e <;> rfl

/-- An entry passes the event it was sent with, unless its run is disowned. -/
theorem resolving_passed (q : Queue) (m : Message) :
    (Entry.resolving q m).filterMap Entry.passed? =
      ([(m, (q.slot m.run).abandoned)].filter (!·.2)).filterMap (·.1.event?) := by
  unfold Entry.resolving
  cases ha : (q.slot m.run).abandoned with
  | true =>
    rw [resolve_of_abandoned ha]
    rfl
  | false =>
    cases m with
    | event r e =>
      have alive : (q.slot r).abandoned = false := ha
      rw [resolve_event alive]
      rfl
    | line r => rcases (q.resolve (.line r)).1 with _ | e <;> rfl

theorem resolving_isVain (q : Queue) (m : Message) : ∀ n ∈ Entry.resolving q m, n.isVain = false := by
  unfold Entry.resolving
  rcases (q.resolve m).1 with _ | e <;> simp [Entry.isVain]

/-- Of the entries, a sender adds the event it sends, if it sends one. -/
theorem onQueue_events (hr : q.receiving = true) (s : Saying) :
    (s.onQueue q).receiving = true ∧
      (s.onQueue q).toList.filterMap Message.event? =
        q.toList.filterMap Message.event? ++ s.event?.toList := by
  cases s with
  | send r e =>
    have ext : q.Extends (q.push (.event r e)) r [.event r e] := extends_push hr rfl
    exact ⟨ext.receiving.trans hr, by
      rw [Saying.onQueue, send, ext.toList, List.filterMap_append]
      rfl⟩
  | line r n =>
    have ext : Extends _ (((q.storeLine r n).markQueued r).2.push (.line r)) r [.line r] :=
      extends_push hr rfl
    unfold Saying.onQueue publish
    cases hq : ((q.storeLine r n).markQueued r).1 with
    | true =>
      simp only [hq, if_true]
      exact ⟨hr, (List.append_nil _).symm⟩
    | false =>
      simp only [hq, Bool.false_eq_true, if_false]
      refine ⟨ext.receiving.trans hr, ?_⟩
      rw [ext.toList, List.filterMap_append]
      rfl
  | _ => exact ⟨hr, (List.append_nil _).symm⟩

/-- What holds at every time. -/
structure Kept (x : Exchange) : Prop where
  receiving : x.queue.receiving = true
  order : x.sent = (x.taken.map Prod.fst ++ x.queue.toList).filterMap Message.event?
  passed : x.passed = (x.taken.filter (!·.2)).filterMap (·.1.event?)
  ended : .ended ∈ x.log → x.isClosed = true ∧ x.queue.toList = []

theorem kept_fresh : ({} : Exchange).Kept := ⟨rfl, rfl, rfl, nofun⟩

/-- Behind the end nobody says anything. -/
theorem say_of_isClosed (h : x.isClosed = true) (s : Saying) : x.say s = x := by
  obtain ⟨hs, hh⟩ : x.senders = 0 ∧ x.handles = [] := by simpa [isClosed] using h
  have unable : s.isAble x = false := by cases s <;> simp [Saying.isAble, hs, hh]
  rw [say, unable]
  rfl

theorem Kept.say (h : x.Kept) (s : Saying) : (x.say s).Kept := by
  by_cases closed : x.isClosed = true
  · rw [say_of_isClosed closed]
    exact h
  unfold Exchange.say
  split
  · obtain ⟨receiving, events⟩ := onQueue_events h.receiving s
    refine ⟨receiving, ?_, ?_, fun he => ?_⟩
    · have order := h.order
      simp only [sent, taken, List.filterMap_append] at order ⊢
      rw [events, order, ← List.append_assoc]
      cases hs : s.event? <;> simp [hs, Entry.sent?, Entry.taken?]
    · have silent : [Entry.said s].filterMap Entry.passed? = [] ∧
          [Entry.said s].filterMap Entry.taken? = [] := ⟨rfl, rfl⟩
      simp only [Exchange.passed, taken, List.filterMap_append, silent, List.append_nil]
      exact h.passed
    · exact absurd (h.ended (by simpa using he)).1 closed
  · exact h

/-- Either a round finds no entry, or it takes the oldest. -/
theorem round_cases (x : Exchange) (a : Asking) :
    (x.queue.pop? = none ∧
      ((a = .now ∧ x.round a = { x with asking := none, log := x.log ++ [.nothing] }) ∨
        (a = .wait ∧ x.isClosed = true ∧
          x.round a = { x with asking := none, log := x.log ++ [.ended] }) ∨
        (a = .wait ∧ x.isClosed = false ∧ x.round a = x))) ∨
      ∃ m q, x.queue.pop? = some (m, q) ∧ x.round a =
        { x with
          queue := (q.resolve m).2
          asking := if (q.resolve m).1.isSome then none else x.asking
          log := x.log ++ Entry.resolving q m } := by
  unfold round
  cases hp : x.queue.pop? with
  | none =>
    refine .inl ⟨rfl, ?_⟩
    cases a with
    | now => exact .inl ⟨rfl, rfl⟩
    | wait =>
      cases hc : x.isClosed with
      | true => exact .inr (.inl ⟨rfl, rfl, by simp⟩)
      | false => exact .inr (.inr ⟨rfl, rfl, by simp⟩)
  | some mq => exact .inr ⟨mq.1, mq.2, rfl, rfl⟩

theorem toList_of_pop?_none (h : q.pop? = none) : q.toList = [] := by
  cases hl : q.toList with
  | nil => rfl
  | cons m ms =>
    obtain ⟨q', hq, -⟩ := pop?_of_toList hl
    rw [hq] at h
    cases h

/-- A call that found nothing leaves a note of that and nothing else. -/
theorem Kept.vain (h : x.Kept) {n : Entry} (hn : n.isVain = true)
    (closed : n = .ended → x.isClosed = true ∧ x.queue.toList = []) :
    Kept { x with asking := none, log := x.log ++ [n] } := by
  have same : ({ x with asking := none, log := x.log ++ [n] } : Exchange).sent = x.sent ∧
      ({ x with asking := none, log := x.log ++ [n] } : Exchange).taken = x.taken ∧
      ({ x with asking := none, log := x.log ++ [n] } : Exchange).passed = x.passed := by
    cases n <;> cases hn <;> simp [sent, taken, Exchange.passed, Entry.sent?, Entry.taken?,
      Entry.passed?]
  refine ⟨h.receiving, ?_, ?_, fun he => ?_⟩
  · rw [same.1, same.2.1]
    exact h.order
  · rw [same.2.1, same.2.2]
    exact h.passed
  · rcases List.mem_append.mp he with he | he
    · exact h.ended he
    · exact closed (List.mem_singleton.mp he).symm

/-- The oldest entry is taken and passes, or is left out. -/
theorem Kept.resolving (h : x.Kept) {m : Message} {q : Queue} (hp : x.queue.pop? = some (m, q))
    (asking : Option Asking) :
    Kept { x with queue := (q.resolve m).2, asking, log := x.log ++ Entry.resolving q m } := by
  obtain ⟨list, -, -, receiving⟩ := pop?_some hp
  obtain ⟨rest, keeps⟩ := resolve_rest q m
  refine ⟨keeps.trans (receiving.trans h.receiving), ?_, ?_, fun he => ?_⟩
  · have order := h.order
    rw [list, ← List.singleton_append] at order
    simp only [sent, taken, List.filterMap_append] at order
    simp only [sent, taken, List.filterMap_append, resolving_sent, resolving_taken, rest, order,
      List.map_append, List.append_assoc, List.append_nil]
    rfl
  · have passed := h.passed
    simp only [Exchange.passed, taken] at passed
    simp only [Exchange.passed, taken, List.filterMap_append, List.filter_append, passed,
      resolving_passed, resolving_taken]
  · rcases List.mem_append.mp he with he | he
    · have := (h.ended he).2
      rw [list] at this
      cases this
    · cases resolving_isVain q m _ he

theorem Kept.round (h : x.Kept) (a : Asking) : (x.round a).Kept := by
  rcases round_cases x a with ⟨empty, ⟨-, hx⟩ | ⟨-, hc, hx⟩ | ⟨-, -, hx⟩⟩ | ⟨m, q, hp, hx⟩
  · rw [hx]
    exact h.vain rfl nofun
  · rw [hx]
    exact h.vain rfl fun _ => ⟨hc, toList_of_pop?_none empty⟩
  · rw [hx]
    exact h
  · rw [hx]
    exact h.resolving hp _

theorem Kept.act (h : x.Kept) (t : Act) : (x.act t).Kept := by
  cases t with
  | say s => exact h.say s
  | ask a =>
    unfold Exchange.act
    simp only
    split
    · exact ⟨h.receiving, h.order, h.passed, h.ended⟩
    · exact h
  | round =>
    unfold Exchange.act
    cases x.asking with
    | none => exact h
    | some a => exact h.round a
  | giveUp =>
    unfold Exchange.act
    simp only
    split
    · exact ⟨h.receiving, h.order, h.passed, h.ended⟩
    · exact h

theorem kept_foldl (acts : List Act) (h : x.Kept) : (acts.foldl act x).Kept := by
  induction acts generalizing x with
  | nil => exact h
  | cons t acts ih => exact ih (h.act t)

/-! ## Runs that were disowned -/

/-- What a sender does disowns the run that it gives up, and no other. -/
theorem onQueue_abandoned (q : Queue) (s : Saying) (known : ∀ r, s = .abandon r → r < q.slots.size)
    (r : Nat) : ((s.onQueue q).slot r).abandoned = true ↔
      (q.slot r).abandoned = true ∨ s = .abandon r := by
  cases s with
  | abandon i =>
    rw [Saying.onQueue, Queue.abandon, slot_modifySlot]
    by_cases hi : r = i
    · subst hi
      simp [known r rfl]
    · simp [hi, Ne.symm hi]
  | line i n =>
    have stored : (((q.storeLine i n).markQueued i).2.slot r).abandoned = (q.slot r).abandoned :=
      (modifySlot_abandoned (q.storeLine i n) (f := ({ · with queued := true })) (fun _ => rfl) i r).trans
        (modifySlot_abandoned q (f := ({ · with line := n })) (fun _ => rfl) i r)
    simp only [Saying.onQueue, publish]
    split <;> simp [stored]
  | openRun =>
    have same : (q.openRun.2.slot r).abandoned = (q.slot r).abandoned := by
      simp only [openRun, slot, Array.getElem?_push]
      split
      · subst_vars
        simp
      · rfl
    simp [Saying.onQueue, same]
  | send i e => simp [Saying.onQueue, send]
  | _ => simp [Saying.onQueue]

/-- Handles are of runs that were opened. -/
theorem onHandles_lt (q : Queue) (handles : List Nat) (s : Saying) (known : ∀ r ∈ handles, r < q.slots.size)
    (able : ∀ r, s = .cloneRun r → r ∈ handles) :
    ∀ r ∈ s.onHandles q.openRun.1 handles, r < (s.onQueue q).slots.size := by
  intro r hr
  cases s with
  | openRun =>
    simp only [Saying.onQueue, openRun, Array.size_push]
    rcases List.mem_cons.mp hr with rfl | hr
    · exact Nat.lt_succ_self _
    · exact Nat.lt_succ_of_lt (known r hr)
  | cloneRun i =>
    rcases List.mem_cons.mp hr with rfl | hr
    · exact known r (able r rfl)
    · exact known r hr
  | dropRun i => exact known r (List.mem_of_mem_erase hr)
  | line i n =>
    have size : (((q.storeLine i n).markQueued i).2).slots.size = q.slots.size := by
      simp [storeLine, markQueued]
    have grown : (Saying.onQueue q (.line i n)).slots.size = q.slots.size := by
      simp only [Saying.onQueue, publish]
      split
      · exact size
      · unfold push
        split <;> exact size
    exact grown ▸ known r hr
  | send i e =>
    have grown : (Saying.onQueue q (.send i e)).slots.size = q.slots.size := by
      simp only [Saying.onQueue, send, push]
      split <;> rfl
    exact grown ▸ known r hr
  | abandon i =>
    have grown : (Saying.onQueue q (.abandon i)).slots.size = q.slots.size := modifySlot_size
    exact grown ▸ known r hr
  | _ => exact known r hr

/-- An entry is logged as one of a disowned run if and only if somebody has given up that run
before. -/
def Marked (log : List Entry) : Prop :=
  ∀ before m gone after, log = before ++ .took m gone :: after →
    (gone = true ↔ .said (.abandon m.run) ∈ before)

theorem Marked.snoc {log : List Entry} {n : Entry} (h : Marked log)
    (hn : ∀ m gone, n = .took m gone → (gone = true ↔ .said (.abandon m.run) ∈ log)) :
    Marked (log ++ [n]) := by
  intro before m gone after split
  rcases after.eq_nil_or_concat with rfl | ⟨after, last, rfl⟩
  · obtain ⟨rfl, same⟩ := List.append_inj' split rfl
    exact hn m gone (List.singleton_inj.mp same)
  · rw [List.concat_eq_append, ← List.cons_append, ← List.append_assoc] at split
    exact h before m gone after (List.append_inj' split rfl).1

/-- A run is disowned from the moment on in which somebody gives it up. -/
structure Disowned (x : Exchange) : Prop where
  known : ∀ r ∈ x.handles, r < x.queue.slots.size
  slots : ∀ r, (x.queue.slot r).abandoned = true ↔ .said (.abandon r) ∈ x.log
  marked : Marked x.log

theorem disowned_fresh : ({} : Exchange).Disowned where
  known := nofun
  slots r := by simp [slot]
  marked := by
    intro before m gone after split
    simp at split

theorem Disowned.say (h : x.Disowned) (s : Saying) : (x.say s).Disowned := by
  unfold Exchange.say
  split
  · rename_i able
    have of_handle {r : Nat} (able : x.handles.contains r = true) : r ∈ x.handles := by simpa using able
    have gone (r : Nat) (hs : s = .abandon r) : r < x.queue.slots.size := by
      subst hs
      exact h.known r (of_handle able)
    refine ⟨onHandles_lt x.queue x.handles s h.known fun r hs => ?_, fun r => ?_, h.marked.snoc nofun⟩
    · subst hs
      exact of_handle able
    · rw [onQueue_abandoned x.queue s gone r, h.slots r]
      simp [eq_comm]
  · exact h

theorem Disowned.vain (h : x.Disowned) {n : Entry} (hn : n.isVain = true) :
    Disowned { x with asking := none, log := x.log ++ [n] } := by
  refine ⟨h.known, fun r => ?_, h.marked.snoc ?_⟩
  · cases n <;> cases hn <;> simp [h.slots r]
  · rintro m gone rfl
    cases hn

theorem Disowned.resolving (h : x.Disowned) {m : Message} {q : Queue}
    (hp : x.queue.pop? = some (m, q)) (asking : Option Asking) :
    Disowned { x with queue := (q.resolve m).2, asking, log := x.log ++ Entry.resolving q m } := by
  obtain ⟨-, slots, -, -⟩ := pop?_some hp
  have same (r : Nat) : q.slot r = x.queue.slot r := by rw [slot, slots, slot]
  have size : (q.resolve m).2.slots.size = x.queue.slots.size := by
    rw [resolve_size, slots]
  have taken : Marked (x.log ++ [.took m (q.slot m.run).abandoned]) := by
    refine h.marked.snoc fun m' gone hm => ?_
    cases hm
    rw [same, h.slots]
  refine ⟨size ▸ h.known, fun r => ?_, ?_⟩
  · rw [resolve_abandoned, same, h.slots r]
    unfold Entry.resolving
    rcases (q.resolve m).1 with _ | e <;> simp
  · unfold Entry.resolving
    rcases (q.resolve m).1 with _ | e
    · exact taken
    · have both := taken.snoc (n := .gave m e) fun _ _ h => by cases h
      rwa [List.append_assoc] at both

theorem Disowned.round (h : x.Disowned) (a : Asking) : (x.round a).Disowned := by
  rcases round_cases x a with ⟨-, ⟨-, hx⟩ | ⟨-, -, hx⟩ | ⟨-, -, hx⟩⟩ | ⟨m, q, hp, hx⟩
  · rw [hx]
    exact h.vain rfl
  · rw [hx]
    exact h.vain rfl
  · rw [hx]
    exact h
  · rw [hx]
    exact h.resolving hp _

theorem Disowned.act (h : x.Disowned) (t : Act) : (x.act t).Disowned := by
  have rest (asking : Option Asking) : Disowned { x with asking } := ⟨h.known, h.slots, h.marked⟩
  cases t with
  | say s => exact h.say s
  | ask a =>
    unfold Exchange.act
    simp only
    split
    · exact rest _
    · exact h
  | round =>
    unfold Exchange.act
    cases x.asking with
    | none => exact h
    | some a => exact h.round a
  | giveUp =>
    unfold Exchange.act
    simp only
    split
    · exact rest _
    · exact h

theorem disowned_foldl (acts : List Act) (h : x.Disowned) : (acts.foldl Exchange.act x).Disowned := by
  induction acts generalizing x with
  | nil => exact h
  | cons t acts ih => exact ih (h.act t)

/-! ## However the receiver asks -/

/-- The receiver, whatever it does, takes from what it would have been given. -/
theorem round_stream (x : Exchange) (a : Asking) : (x.round a).stream = x.stream := by
  rcases round_cases x a with ⟨-, ⟨-, hx⟩ | ⟨-, -, hx⟩ | ⟨-, -, hx⟩⟩ | ⟨m, q, hp, hx⟩ <;> rw [hx]
  · simp [stream, given, Entry.given?]
  · simp [stream, given, Entry.given?]
  · simp only [stream, given, List.filterMap_append, resolving_given, drain_pop hp,
      List.append_assoc]

theorem act_stream (x : Exchange) {t : Act} (ht : ∀ s, t ≠ .say s) : (x.act t).stream = x.stream := by
  cases t with
  | say s => exact absurd rfl (ht s)
  | ask a =>
    unfold act
    simp only
    split <;> rfl
  | round =>
    unfold act
    cases x.asking with
    | none => rfl
    | some a => exact round_stream x a
  | giveUp =>
    unfold act
    simp only
    split <;> rfl

/-- Two exchanges with the same queue and senders and the same log, but for calls that found
nothing; in the second the receiver never waits. -/
structure Same (x y : Exchange) : Prop where
  queue : y.queue = x.queue
  senders : y.senders = x.senders
  handles : y.handles = x.handles
  log : y.log.filter (!·.isVain) = x.log.filter (!·.isVain)
  now : y.asking ≠ some .wait

theorem Same.say (h : Same x y) (s : Saying) : Same (x.say s) (y.say s) := by
  have able : s.isAble y = s.isAble x := by
    cases s <;> simp [Saying.isAble, h.senders, h.handles]
  unfold Exchange.say
  rw [able]
  split
  · refine ⟨by rw [h.queue], by rw [h.senders], by rw [h.queue, h.handles], ?_, h.now⟩
    simp [h.log]
  · exact h

/-- A round of any call is a round of a call that does not wait. -/
theorem Same.round (h : Same x y) (hy : y.asking = some .now) (a : Asking) :
    Same (x.round a) (y.round .now) := by
  rcases round_cases y .now with ⟨hp, ⟨-, hy'⟩ | ⟨⟨⟩, -⟩ | ⟨⟨⟩, -⟩⟩ | ⟨m, q, hp, hy'⟩
  · -- nothing is there: this call is over, whatever the other one does
    have vain : (y.log ++ [Entry.nothing]).filter (!·.isVain) = x.log.filter (!·.isVain) := by
      rw [← h.log]
      simp [Entry.isVain]
    rw [h.queue] at hp
    rw [hy']
    rcases round_cases x a with ⟨-, ⟨-, hx⟩ | ⟨-, -, hx⟩ | ⟨-, -, hx⟩⟩ | ⟨m, q, hp', -⟩
    · rw [hx]
      exact ⟨h.queue, h.senders, h.handles, by rw [vain]; simp [Entry.isVain], nofun⟩
    · rw [hx]
      exact ⟨h.queue, h.senders, h.handles, by rw [vain]; simp [Entry.isVain], nofun⟩
    · rw [hx]
      exact ⟨h.queue, h.senders, h.handles, vain, nofun⟩
    · rw [hp] at hp'
      cases hp'
  · rw [h.queue] at hp
    rcases round_cases x a with ⟨hp', -⟩ | ⟨m', q', hp', hx⟩ <;> rw [hp] at hp' <;> cases hp'
    rw [hx, hy']
    refine ⟨rfl, h.senders, h.handles, ?_, ?_⟩
    · simp [h.log]
    · simp only [hy]
      split <;> exact nofun

/-- Whatever the receiver does can be done without waiting. -/
theorem Same.act (h : Same x y) (t : Act) :
    ∃ acts : List Act, .ask .wait ∉ acts ∧ acts.filterMap Act.saying? = [t].filterMap Act.saying? ∧
      Same (x.act t) (acts.foldl Exchange.act y) := by
  cases t with
  | say s => exact ⟨[.say s], by simp, rfl, h.say s⟩
  | ask a =>
    refine ⟨[], by simp, rfl, ?_⟩
    unfold Exchange.act
    simp only
    split <;> exact ⟨h.queue, h.senders, h.handles, h.log, h.now⟩
  | giveUp =>
    refine ⟨[], by simp, rfl, ?_⟩
    unfold Exchange.act
    simp only
    split <;> exact ⟨h.queue, h.senders, h.handles, h.log, h.now⟩
  | round =>
    cases hx : x.asking with
    | none => exact ⟨[], by simp, rfl, by simpa [Exchange.act, hx] using h⟩
    | some a =>
      have goes : x.act .round = x.round a := by simp [Exchange.act, hx]
      rw [goes]
      cases hy : y.asking with
      | some b =>
        cases b with
        | wait => exact absurd hy h.now
        | now => exact ⟨[.round], by simp, rfl, by simpa [Exchange.act, hy] using h.round hy a⟩
      | none =>
        -- the call that was given up, or that is only begun now
        have asked : Same x { y with asking := some .now } :=
          ⟨h.queue, h.senders, h.handles, h.log, nofun⟩
        exact ⟨[.ask .now, .round], by simp, rfl, by
          simpa [Exchange.act, hy] using asked.round rfl a⟩

theorem Same.foldl (h : Same x y) (acts : List Act) :
    ∃ others : List Act, .ask .wait ∉ others ∧
      others.filterMap Act.saying? = acts.filterMap Act.saying? ∧
      Same (acts.foldl Exchange.act x) (others.foldl Exchange.act y) := by
  induction acts generalizing x y with
  | nil => exact ⟨[], by simp, rfl, h⟩
  | cons t acts ih =>
    obtain ⟨first, hf, told, next⟩ := h.act t
    obtain ⟨rest, hr, told', last⟩ := ih next
    refine ⟨first ++ rest, by simp [hf, hr], ?_, by rw [List.foldl_append]; exact last⟩
    rw [List.filterMap_append, told, told', ← List.filterMap_append, List.singleton_append]

/-! ## The rounds of one call -/

/-- If nobody comes between, the rounds of a call make up `Queue.receive`; a call that waits reports
the end if it finds nothing and nobody is left who could send. -/
theorem rounds_receive (h : x.asking = some a) :
    ∃ n, let y := (List.replicate n Act.round).foldl act x
      y.queue = x.queue.receive.2 ∧ y.given = x.given ++ x.queue.receive.1.toList ∧
      (x.queue.receive.1 = none → a = .wait → x.isClosed = true → .ended ∈ y.log) := by
  induction hk : x.queue.toList.length using Nat.strongRecOn generalizing x with
  | ind k ih =>
    subst hk
    have goes : x.act .round = x.round a := by simp [act, h]
    rw [receive_pop]
    rcases round_cases x a with ⟨hp, found⟩ | ⟨m, q, hp, hx⟩
    · refine ⟨1, ?_⟩
      simp only [List.replicate_one, List.foldl_cons, List.foldl_nil, goes, hp, Option.toList_none,
        List.append_nil]
      rcases found with ⟨rfl, hx⟩ | ⟨rfl, -, hx⟩ | ⟨rfl, hc, hx⟩ <;> rw [hx]
      · exact ⟨rfl, by simp [given, Entry.given?], nofun⟩
      · exact ⟨rfl, by simp [given, Entry.given?], by simp⟩
      · exact ⟨rfl, rfl, fun _ _ hc' => by rw [hc] at hc'; cases hc'⟩
    · have shorter : (x.round a).queue.toList.length < x.queue.toList.length := by
        rw [hx, (pop?_some hp).1]
        simp [(resolve_rest q m).1]
      have given' : (x.round a).given = x.given ++ (q.resolve m).1.toList := by
        rw [hx]
        simp only [given, List.filterMap_append, resolving_given]
      have queue' : (x.round a).queue = (q.resolve m).2 := by rw [hx]
      have closed' : (x.round a).isClosed = x.isClosed := by rw [hx]; rfl
      have asking' : (x.round a).asking = if (q.resolve m).1.isSome then none else some a := by
        rw [hx, ← h]
      simp only [hp]
      rcases hm : q.resolve m with ⟨_ | e, q'⟩
      · rw [hm] at asking' queue' given'
        obtain ⟨n, hn⟩ := ih _ shorter asking' rfl
        refine ⟨n + 1, ?_⟩
        simp only [List.replicate_succ, List.foldl_cons, goes]
        rw [queue', given', closed', Option.toList_none, List.append_nil] at hn
        exact hn
      · rw [hm] at queue' given'
        refine ⟨1, ?_⟩
        simp only [List.replicate_one, List.foldl_cons, List.foldl_nil, goes]
        exact ⟨queue', given', nofun⟩

/-- **First in, first out, up to abandonment.** Whatever senders and the receiver do, in any order:
the events sent are those of the entries taken and behind them those of the entries queued; of the
events taken exactly those are delivered whose run was not disowned by then, that is which nobody
had given up. Nothing the receiver does, giving up a call included, changes the events delivered and
to be delivered, and a receiver that never waits is given the same by the same senders. An entry of
a disowned run leaves the queue and nothing else happens; and the end is reported only when all
senders are gone and the queue is empty. -/
theorem first_in_first_out (acts : List Act) :
    let x := acts.foldl act {}
    x.sent = (x.taken.map Prod.fst ++ x.queue.toList).filterMap Message.event? ∧
      x.passed = (x.taken.filter (!·.2)).filterMap (·.1.event?) ∧
      Marked x.log ∧ (∀ r, (x.queue.slot r).abandoned = true ↔ .said (.abandon r) ∈ x.log) ∧
      (∀ t, (∀ s, t ≠ .say s) → (x.act t).stream = x.stream) ∧
      (∃ others : List Act, .ask .wait ∉ others ∧
        others.filterMap Act.saying? = acts.filterMap Act.saying? ∧
        let y := others.foldl act {}
        y.queue = x.queue ∧ y.log.filter (!·.isVain) = x.log.filter (!·.isVain)) ∧
      (∀ a m q, x.queue.pop? = some (m, q) → (x.queue.slot m.run).abandoned = true →
        q.slots = x.queue.slots ∧ q.lastLine = x.queue.lastLine ∧
          x.round a = { x with queue := q, log := x.log ++ [.took m true] }) ∧
      (.ended ∈ x.log → x.isClosed = true ∧ x.queue.toList = []) := by
  intro x
  have kept : x.Kept := kept_foldl acts kept_fresh
  have disowned : x.Disowned := disowned_foldl acts disowned_fresh
  have same : Same ({} : Exchange) {} := ⟨rfl, rfl, rfl, rfl, nofun⟩
  obtain ⟨others, patient, told, alike⟩ := same.foldl acts
  refine ⟨kept.order, kept.passed, disowned.marked, disowned.slots, fun t ht => act_stream x ht,
    ⟨others, patient, told, alike.queue, alike.log⟩, fun a m q hp ha => ?_, kept.ended⟩
  obtain ⟨-, slots, lastLine, -⟩ := pop?_some hp
  have gone : (q.slot m.run).abandoned = true := by
    rw [slot, slots]
    exact ha
  refine ⟨slots, lastLine, ?_⟩
  rcases round_cases x a with ⟨hp', -⟩ | ⟨m', q', hp', hx⟩ <;> rw [hp] at hp' <;> cases hp'
  rw [hx, Entry.resolving, resolve_of_abandoned gone, gone]
  rfl

/-- A run is opened and given up between two of its events; a call that waited for the first was
dropped before. -/
def givenUpBetween : List Act :=
  [.say .openRun, .ask .wait, .round, .giveUp, .say (.send 0 .started), .ask .wait, .round,
    .say (.send 0 (.output "late")), .say (.abandon 0), .say (.dropRun 0), .say .dropSender,
    .ask .wait, .round, .round]

/-- The first event is delivered, the second is taken and dropped, and then the end is reported. -/
theorem first_in_first_out_givenUp :
    let x := givenUpBetween.foldl act {}
    Marked x.log ∧ (x.queue.slot 0).abandoned = true ∧
      x.taken = [(.event 0 .started, false), (.event 0 (.output "late"), true)] ∧
      x.passed = [(0, .started)] ∧ x.isClosed = true := by
  obtain ⟨-, passed, marked, disowned, -, -, -, ended⟩ := first_in_first_out givenUpBetween
  have taken : (givenUpBetween.foldl act {}).taken =
      [(.event 0 .started, false), (.event 0 (.output "late"), true)] := by decide +kernel
  refine ⟨marked, (disowned 0).mpr (by decide +kernel), taken, ?_, (ended (by decide +kernel)).1⟩
  rw [passed, taken]
  rfl

end Exchange
end Queue
end ScriptHost
