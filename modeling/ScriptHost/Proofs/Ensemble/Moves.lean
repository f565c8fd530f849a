import ScriptHost.Proofs.Ensemble
import ScriptHost.Proofs.Ensemble.Unthreaded
import ScriptHost.Proofs.Queue

/-!
# What a worker or a pump can do

`RunMove` lists the moves of one run: how the run and its slot change, what is
sent and what is noted. `workerStep_move`, `pumpStep_move` and their like show
that the running functions make no others, so that later proofs look at the list
and not at the functions.
-/
namespace ScriptHost

/-- Writes what can be written. -/
def Channel.put (c : Channel) (bytes : List UInt8) : Channel := (c.write bytes).toOption.getD c

/-- What a pump does after a look at its channel. -/
def Pump.after : Channel.Read → Pump
  | .text t => .sending t
  | .eof => .finishing
  | .pending => .reading

/-- A worker goes on from one stage to another without anybody hearing of it. -/
inductive Stage.Inner {σ : Type} (d : Drained) : Stage σ → Stage σ → Prop where
  | rest (x : Stage σ) : Inner d x x
  | launch (s : σ) : Inner d .announced (.executing s)
  | work (s s' : σ) : Inner d (.executing s) (.executing s')
  | skip (s : σ) : Inner d (.executing s) (.testing s)
  | test (s s' : σ) : Inner d (.testing s) (.executing s')
  | finish (s s' : σ) : Inner d (.executing s) (.finalizing s' .finished)
  | trip (s s' : σ) : Inner d (.executing s) (.finalizing s' .cancelled)
  | fail (s : σ) (text : String) : Inner d (.executing s) (.reporting s text)
  | clear (s s' : σ) (o : Outcome) : Inner d (.finalizing s o) (.finalizing s' o)
  | cleared (s : σ) (o : Outcome) : Inner d (.finalizing s o) (.closing o)
  | drained (o : Outcome) (h : d ≠ .waiting) : Inner d (.draining o) (.stopping o)
  | past (o : Outcome) : Inner d (.stopping o) (.leaving o)
  | cease : Inner d .ending .gone

theorem Stage.Inner.isAlive_of {σ : Type} {d : Drained} {x y : Stage σ} (h : Stage.Inner d x y)
    (hy : y.isAlive = true) : x.isAlive = true := by
  cases h with
  | rest _ => exact hy
  | _ => rfl

theorem Stage.Inner.isMute_of {σ : Type} {d : Drained} {x y : Stage σ} (h : Stage.Inner d x y)
    (hx : x.isMute = true) : y.isMute = true := by
  cases h with
  | rest _ => exact hx
  | cease => rfl
  | _ => cases hx

variable {ω σ : Type}

/-- The moves of the run `id`: the run and its slot before and after, the messages sent and the
notes taken. -/
inductive RunMove (id : Nat) :
    Label ω → Run σ → Slot → Run σ → Slot → List Message → List Note → Prop where
  /-- The stage, the phase, the token and the trip are between the worker and the controller. -/
  | inner {l r k} (stage : Stage σ) (phase : Phase) (token tripped : Bool)
      (h : Stage.Inner r.drained r.stage stage) :
    RunMove id l r k { r with stage, phase, token, tripped } k [] []
  | announce {l r k} (h : r.stage = .created) :
    RunMove id l r k { r with stage := .announced } k [.event id .started] []
  | store {l r k} (s : σ) (n : UInt32) (h : r.stage = .executing s) :
    RunMove id l r k { r with stage := .lineStored s } { k with line := n } [] [.published id n]
  | mark {l r k} (s : σ) (h : r.stage = .lineStored s) :
    RunMove id l r k { r with stage := if k.queued then .testing s else .lineMarked s }
      { k with queued := true } [] []
  | push {l r k} (s : σ) (h : r.stage = .lineMarked s) :
    RunMove id l r k { r with stage := .testing s } k [.line id] []
  | write {l r k} (s s' : σ) (bytes : List UInt8) (h : r.stage = .executing s) :
    RunMove id l r k { r with channel := r.channel.put bytes, stage := .executing s' } k []
      [.wrote id bytes]
  | report {l r k} (s s' : σ) (t : String) (h : r.stage = .reporting s t) :
    RunMove id l r k
      { r with channel := r.channel.put (t ++ "\n").toUTF8.toList, stage := .finalizing s' .failed } k []
      [.reported id t]
  | finalize {l r k} (s s' : σ) (o : Outcome) (bytes : List UInt8) (h : r.stage = .finalizing s o) :
    RunMove id l r k { r with channel := r.channel.put bytes, stage := .finalizing s' o } k []
      [.finalized id bytes]
  | close {l r k} (o : Outcome) (h : r.stage = .closing o) :
    RunMove id l r k { r with channel := r.channel.closeWriter, stage := .draining o } k [] []
  | leave {l r k} (o : Outcome) (h : r.stage = .leaving o) :
    RunMove id l r k { r with stage := .ending } k [.event id (.stopped o)] []
  | expire {r k} (o : Outcome) (h : r.stage = .draining o) :
    RunMove id (.other (.patience id)) r k { r with stage := .stopping o } k [] []
  | look {l r k} (g : Grant) (h : r.pump = .reading) :
    RunMove id l r k
      { r with channel := (r.channel.look g).2, pump := .after (r.channel.look g).1 } k [] []
  | forward {l r k} (t : String) (h : r.pump = .sending t) :
    RunMove id l r k { r with pump := .reading } k [.event id (.output t)] []
  | finish {l r k} (h : r.pump = .finishing) :
    RunMove id l r k
      { r with pump := .ended, drained := .signalled, channel := r.channel.closeReader } k [] []
  | fault {r k} (h : r.pump = .reading) :
    RunMove id (.other (.fault id)) r k { r with pump := .finishing } k [] []
  | abort {l r k} (h : k.abandoned = true) : RunMove id l r k r.abortPump k [] []

namespace RunMove

variable {id : Nat} {l : Label ω} {r r' : Run σ} {k k' : Slot} {ms : List Message} {ns : List Note}

/-- Nothing happens. -/
theorem rest (id : Nat) (l : Label ω) (r : Run σ) (k : Slot) : RunMove id l r k r k [] [] :=
  .inner r.stage r.phase r.token r.tripped (.rest _)

theorem sent_own (h : RunMove id l r k r' k' ms ns) : ∀ m ∈ ms, m.run = id := by
  cases h <;> simp [Message.run]

theorem notes_own (h : RunMove id l r k r' k' ms ns) : ∀ n ∈ ns, n.run = id := by
  cases h <;> simp [Note.run]

theorem abandoned_eq (h : RunMove id l r k r' k' ms ns) : k'.abandoned = k.abandoned := by
  cases h <;> rfl

/-- A worker that has said everything stays so. -/
theorem isMute_of (h : RunMove id l r k r' k' ms ns) (hm : r.stage.isMute = true) :
    r'.stage.isMute = true := by
  cases h with
  | inner stage _ _ _ h => exact h.isMute_of hm
  | abort _ =>
    unfold Run.abortPump
    split <;> exact hm
  | look _ _ | forward _ _ | finish _ | fault _ => exact hm
  | _ => simp_all [Stage.isMute]

/-- A worker that has ended stays so. -/
theorem isAlive_of (h : RunMove id l r k r' k' ms ns) (ha : r'.stage.isAlive = true) :
    r.stage.isAlive = true := by
  cases h with
  | inner stage _ _ _ h => exact h.isAlive_of ha
  | abort _ =>
    unfold Run.abortPump at ha
    split at ha <;> exact ha
  | look _ _ | forward _ _ | finish _ | fault _ => exact ha
  | _ => simp_all [Stage.isAlive]

end RunMove

/-! ## The running functions -/

open Run

variable {r : Run σ} {q : Queue} {id : Nat}

/-- What a step of the run `id` comes to, with the queue before and after it. -/
def IsMove (id : Nat) (l : Label ω) (r : Run σ) (q : Queue) (r' : Run σ) (q' : Queue)
    (ns : List Note) : Prop :=
  ∃ ms, q.Extends q' id ms ∧ RunMove id l r (q.slot id) r' (q'.slot id) ms ns

theorem isMove_of_same {l : Label ω} {r' : Run σ} {ns : List Note}
    (h : RunMove id l r (q.slot id) r' (q.slot id) [] ns) : IsMove id l r q r' q ns :=
  ⟨[], .refl q id, h⟩

theorem isMove_of_push {l : Label ω} {r' : Run σ} {ns : List Note} {m : Message}
    (hq : q.receiving = true) (h : RunMove id l r (q.slot id) r' (q.slot id) [m] ns) :
    IsMove id l r q r' (q.push m) ns :=
  ⟨[m], Queue.extends_push hq (h.sent_own m (by simp)), by rwa [Queue.slot_push]⟩

theorem isMove_of_modifySlot {l : Label ω} {r' : Run σ} {ns : List Note} {f : Slot → Slot}
    (hid : id < q.slots.size) (h : RunMove id l r (q.slot id) r' (f (q.slot id)) [] ns) :
    IsMove id l r q r' (q.modifySlot id f) ns :=
  ⟨[], Queue.extends_modifySlot q id f, by rwa [Queue.slot_modifySlot_self q f hid]⟩

theorem execute_move (I : Interpreter ω σ) (l : Label ω) {s : σ} (w : ω)
    (hs : r.stage = .executing s) (hid : id < q.slots.size) :
    IsMove id l r q (execute I id s ⟨{ r with stage := .absent }, q, w⟩).run
      (execute I id s ⟨{ r with stage := .absent }, q, w⟩).queue (Ensemble.notesOf I id r) := by
  have inner (stage : Stage σ) (h : Stage.Inner r.drained (.executing s) stage) :
      IsMove id l r q { r with stage } q [] :=
    isMove_of_same (.inner stage r.phase r.token r.tripped (hs ▸ h))
  cases hx : I.signal s with
  | working | waiting =>
    simp only [execute, Ensemble.notesOf, hs, hx]
    exact inner _ (.work s (I.work s w).1)
  | line n =>
    simp only [execute, Ensemble.notesOf, hs, hx]
    split
    · exact isMove_of_modifySlot hid (.store s _ hs)
    · exact inner _ (.skip s)
  | write bytes =>
    have put : r.channel.put bytes = (r.channel.write bytes).toOption.getD r.channel := rfl
    have move (s' : σ) : IsMove id l r q _ q _ := isMove_of_same (.write s s' bytes hs)
    simp only [execute, Ensemble.notesOf, hs, hx]
    cases hw : r.channel.write bytes with
    | ok c =>
      rw [put, hw] at move
      exact move _
    | error e =>
      rw [put, hw] at move
      exact move _
  | ended failure =>
    simp only [execute, Ensemble.notesOf, hs, hx, afterScript]
    split
    · exact inner _ (.trip s _)
    · cases failure with
      | none => exact inner _ (.finish s _)
      | some t => exact inner _ (.fail s t)

theorem finalize_move (I : Interpreter ω σ) (l : Label ω) {s : σ} {o : Outcome} (w : ω)
    (hs : r.stage = .finalizing s o) :
    IsMove id l r q (finalize I s o ⟨{ r with stage := .absent }, q, w⟩).run
      (finalize I s o ⟨{ r with stage := .absent }, q, w⟩).queue (Ensemble.notesOf I id r) := by
  have inner (stage : Stage σ) (h : Stage.Inner r.drained (.finalizing s o) stage) :
      IsMove id l r q { r with stage } q [] :=
    isMove_of_same (.inner stage r.phase r.token r.tripped (hs ▸ h))
  cases hx : I.signal s with
  | working | waiting | line =>
    simp only [finalize, Ensemble.notesOf, hs, hx]
    exact inner _ (.clear s _ o)
  | write bytes =>
    have put : r.channel.put bytes = (r.channel.write bytes).toOption.getD r.channel := rfl
    have move (s' : σ) : IsMove id l r q _ q _ := isMove_of_same (.finalize s s' o bytes hs)
    simp only [finalize, Ensemble.notesOf, hs, hx]
    cases hw : r.channel.write bytes with
    | ok c =>
      rw [put, hw] at move
      exact move _
    | error e =>
      rw [put, hw] at move
      exact move _
  | ended =>
    simp only [finalize, Ensemble.notesOf, hs, hx]
    exact inner _ (.cleared s o)

theorem workerStep_move (I : Interpreter ω σ) (l : Label ω) (r : Run σ) (w : ω)
    (hid : id < q.slots.size) (hq : q.receiving = true) :
    IsMove id l r q (workerStep I id ⟨r, q, w⟩).run (workerStep I id ⟨r, q, w⟩).queue
      (Ensemble.notesOf I id r) := by
  have inner (stage : Stage σ) (phase : Phase) (tripped : Bool)
      (h : Stage.Inner r.drained r.stage stage) :
      IsMove id l r q { r with stage, phase, tripped } q [] :=
    isMove_of_same (.inner stage phase r.token tripped h)
  cases hs : r.stage with
  | executing s =>
    simp only [workerStep, hs]
    exact execute_move I l w hs hid
  | created =>
    simp only [workerStep, hs, Ensemble.notesOf]
    exact isMove_of_push hq (.announce hs)
  | announced =>
    simp only [workerStep, hs, Ensemble.notesOf]
    exact inner _ _ _ (hs ▸ .launch _)
  | lineStored s =>
    simp only [workerStep, hs, Ensemble.notesOf, Queue.markQueued]
    exact isMove_of_modifySlot hid (.mark s hs)
  | lineMarked s =>
    simp only [workerStep, hs, Ensemble.notesOf]
    exact isMove_of_push hq (.push s hs)
  | testing s =>
    simp only [workerStep, hs, Ensemble.notesOf]
    exact inner _ _ _ (hs ▸ .test s _)
  | reporting s t =>
    simp only [workerStep, hs, Ensemble.notesOf]
    exact isMove_of_same (.report s _ t hs)
  | finalizing s o =>
    simp only [workerStep, hs]
    exact finalize_move I l w hs
  | closing o =>
    simp only [workerStep, hs, Ensemble.notesOf]
    exact isMove_of_same (.close o hs)
  | draining o =>
    simp only [workerStep, hs, Ensemble.notesOf]
    split
    · exact inner _ _ _ (hs ▸ .rest _)
    · rename_i hd
      exact inner _ _ _ (hs ▸ .drained o hd)
  | stopping o =>
    simp only [workerStep, hs, Ensemble.notesOf]
    exact inner _ _ _ (hs ▸ .past o)
  | leaving o =>
    simp only [workerStep, hs, Ensemble.notesOf]
    exact isMove_of_push hq (.leave o hs)
  | ending =>
    simp only [workerStep, hs, Ensemble.notesOf]
    exact inner _ _ _ (hs ▸ .cease)
  | absent | gone =>
    simp only [workerStep, hs, Ensemble.notesOf]
    exact inner _ _ _ (hs ▸ .rest _)

theorem pumpStep_move (g : Grant) (l : Label ω) (r : Run σ) (hq : q.receiving = true) :
    IsMove id l r q (r.pumpStep g id q).1 (r.pumpStep g id q).2 [] := by
  cases hp : r.pump with
  | reading =>
    have move : IsMove id l r q _ q _ := isMove_of_same (.look g hp)
    rcases hx : r.channel.look g with ⟨x, c⟩
    rw [hx] at move
    cases x <;> (simp only [pumpStep, hp, hx]; exact move)
  | sending t =>
    simp only [pumpStep, hp]
    exact isMove_of_push hq (.forward t hp)
  | finishing =>
    simp only [pumpStep, hp]
    exact isMove_of_same (.finish hp)
  | ended =>
    simp only [pumpStep, hp]
    exact isMove_of_same (.rest id l r _)

theorem expire_move (r : Run σ) (k : Slot) :
    RunMove (ω := ω) id (.other (.patience id)) r k r.expire k [] [] := by
  unfold expire
  split
  · exact .expire _ ‹_›
  · exact .rest _ _ r k

theorem failRead_move (r : Run σ) (k : Slot) :
    RunMove (ω := ω) id (.other (.fault id)) r k r.failRead k [] [] := by
  unfold failRead
  split
  · exact .fault ‹_›
  · exact .rest _ _ r k

end ScriptHost
