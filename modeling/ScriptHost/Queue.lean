import ScriptHost.Event

/-!
# The queue of notifications

All runs of an engine send through one queue, and the controller takes one
event at a time, in the order in which they were sent.

Every run has a *slot*. Line reports go through it: a run stores its line in
the slot and queues a marker only when none is queued; the receiver that meets
a marker clears the flag and then reads the line that is current by then. A
run that was abandoned is silent: the receiver drops what it sent and sends.

Each function here is one indivisible step of its side; `publish` and
`resolve` put the steps of one call together.
-/
namespace ScriptHost

/-- What the senders of one run share with the receiver. Mirrors `RunSlot`. -/
structure Slot where
  /-- The line stored last. -/
  line : UInt32 := 0
  /-- A marker of this run is in the queue, or about to be put there. -/
  queued : Bool := false
  abandoned : Bool := false
  deriving DecidableEq, Repr, Inhabited

/-- An entry of the queue, with the number of the run that sent it. Mirrors `Message`. -/
inductive Message where
  | event (run : Nat) (e : Event)
  /-- Stands for the line the run's slot holds when the marker is taken. -/
  | line (run : Nat)
  deriving DecidableEq, Repr

/-- The number of the run that sent a message. -/
def Message.run : Message → Nat
  | .event r _ | .line r => r

/-- The queue with both of its ends. Mirrors `EventSender` and `EngineEvents`. -/
structure Queue where
  slots : Array Slot := #[]
  /-- Oldest entries first. -/
  front : List Message := []
  /-- Entries behind `front`, newest first. -/
  back : List Message := []
  /-- The line delivered last since the last start. -/
  lastLine : Option UInt32 := none
  receiving : Bool := true
  deriving Inhabited

namespace Queue

/-- The entries, oldest first. -/
def toList (q : Queue) : List Message := q.front ++ q.back.reverse

/-- A slot for one more run. Mirrors `EventSender.for_run`. -/
def openRun (q : Queue) : Nat × Queue :=
  (q.slots.size, { q with slots := q.slots.push {} })

/-- The slot of a run. -/
def slot (q : Queue) (run : Nat) : Slot := q.slots[run]?.getD {}

def modifySlot (q : Queue) (run : Nat) (f : Slot → Slot) : Queue :=
  { q with slots := q.slots.modify run f }

/-- Appends an entry; without a receiver it is lost. -/
def push (q : Queue) (m : Message) : Queue :=
  if q.receiving then { q with back := m :: q.back } else q

/-- The oldest entry. -/
def pop? (q : Queue) : Option (Message × Queue) :=
  match q.front with
  | m :: rest => some (m, { q with front := rest })
  | [] =>
    match q.back.reverse with
    | m :: rest => some (m, { q with front := rest, back := [] })
    | [] => none

/-- Sends an event of a run. Mirrors `RunEvents.send`. -/
def send (q : Queue) (run : Nat) (e : Event) : Queue := q.push (.event run e)

/-- Stores the current line of a run. -/
def storeLine (q : Queue) (run : Nat) (line : UInt32) : Queue :=
  q.modifySlot run ({ · with line := line })

/-- Sets the flag of a run and tells what it was. -/
def markQueued (q : Queue) (run : Nat) : Bool × Queue :=
  ((q.slot run).queued, q.modifySlot run ({ · with queued := true }))

/-- Makes `line` the current line of a run. Mirrors `RunEvents.line`. -/
def publish (q : Queue) (run : Nat) (line : UInt32) : Queue :=
  let (queued, q) := (q.storeLine run line).markQueued run
  if queued then q else q.push (.line run)

/-- Disowns a run. Mirrors `RunEvents.abandon`. -/
def abandon (q : Queue) (run : Nat) : Queue :=
  q.modifySlot run ({ · with abandoned := true })

/-- The receiver is gone: what is queued is lost with it. -/
def close (q : Queue) : Queue := { q with receiving := false, front := [], back := [] }

/-- Clears the flag of a run. -/
def clearQueued (q : Queue) (run : Nat) : Queue :=
  q.modifySlot run ({ · with queued := false })

/-- Delivers a line unless it is the one delivered last. Mirrors the end of
`EngineEvents.resolve`. -/
def deliverLine (q : Queue) (line : UInt32) : Option Event × Queue :=
  if q.lastLine = some line then (none, q)
  else (some (.currentLine line), { q with lastLine := some line })

/-- What a message that was taken from the queue delivers, if anything. Mirrors
`EngineEvents.resolve`. -/
def resolve (q : Queue) (m : Message) : Option Event × Queue :=
  if (q.slot m.run).abandoned then (none, q)
  else match m with
    | .event _ e => (some e, if e = .started then { q with lastLine := none } else q)
    | .line run =>
      let q := q.clearQueued run
      q.deliverLine (q.slot run).line

/-- The first event that one of `entries` delivers; the entries behind it stay in front. -/
def takeFrom (q : Queue) : List Message → Option Event × Queue
  | [] => (none, { q with front := [] })
  | m :: rest =>
    match q.resolve m with
    | (some e, q) => (some e, { q with front := rest })
    | (none, q) => takeFrom q rest

/-- The next event, if one is queued. Mirrors `EngineEvents.try_recv`. -/
def receive (q : Queue) : Option Event × Queue :=
  match q.takeFrom q.front with
  | (some e, q) => (some e, q)
  | (none, q) => takeFrom { q with back := [] } q.back.reverse

/-- The events that `entries` deliver, behind those in `seen` (newest first). -/
def drainFrom (q : Queue) (seen : List Event) : List Message → List Event × Queue
  | [] => (seen.reverse, q)
  | m :: rest =>
    match q.resolve m with
    | (some e, q) => drainFrom q (e :: seen) rest
    | (none, q) => drainFrom q seen rest

/-- All events that are queued. -/
def drain (q : Queue) : List Event × Queue :=
  drainFrom { q with front := [], back := [] } [] q.toList

end Queue
end ScriptHost
