import Mathlib.Data.List.Chain
import ScriptHost.Proofs.Delivery.Grammar

/-!
# The lines of a run

A worker publishes a line in three steps: it stores the line, sets the flag of
its run, and queues a marker if the flag was clear. The receiver clears the flag
before it loads the line. `View.Coalesced` is what this keeps: there is a marker
on its way exactly if the flag is set, and a line that was not delivered has one,
or soon will.

* `one_marker`: never are two markers of a run in the queue.
* `lines_sublist`: the lines delivered between two starts were published in that
  order, and no two neighbours are equal.
* `last_line`: at rest, the line delivered last is the line published last.
-/
namespace ScriptHost

/-- The lines the worker has stored. -/
def Note.lines (ns : List Note) : List UInt32 :=
  ns.filterMap fun
    | .published _ n => some n
    | _ => none

/-- The line an event reports. -/
def Event.line? : Event → Option UInt32
  | .currentLine n => some n
  | _ => none

/-- The lines reported. -/
def Event.lines (es : List Event) : List UInt32 := es.filterMap Event.line?

@[simp] theorem Note.lines_append (xs ys : List Note) :
    Note.lines (xs ++ ys) = Note.lines xs ++ Note.lines ys := List.filterMap_append

@[simp] theorem Event.lines_append (xs ys : List Event) :
    Event.lines (xs ++ ys) = Event.lines xs ++ Event.lines ys := List.filterMap_append

/-- A line behind others, unless it is the last of them. -/
def withLine (told : List UInt32) (n : UInt32) : List UInt32 :=
  if told.getLast? = some n then told else told ++ [n]

theorem getLast_withLine (told : List UInt32) (n : UInt32) : (withLine told n).getLast? = some n := by
  unfold withLine
  split
  · assumption
  · simp

theorem isChain_withLine {told : List UInt32} {n : UInt32} (h : told.IsChain (· ≠ ·)) :
    (withLine told n).IsChain (· ≠ ·) := by
  unfold withLine
  split
  · exact h
  · rename_i hn
    refine List.isChain_append.mpr ⟨h, .singleton n, fun x hx y hy => ?_⟩
    rintro rfl
    cases hy
    exact hn hx

/-- A line may be added if it is the last of those published. -/
theorem withLine_sublist {told published : List UInt32} {n : UInt32} (h : told.Sublist published)
    (hn : published.getLast? = some n) : (withLine told n).Sublist published := by
  unfold withLine
  split
  · exact h
  · rename_i hne
    obtain ⟨init, rfl⟩ := List.getLast?_eq_some_iff.mp hn
    obtain ⟨xs, ys, rfl, hx, hy⟩ := List.sublist_append_iff.mp h
    rcases List.sublist_singleton.mp hy with rfl | rfl
    · rw [List.append_nil]
      exact hx.append (List.Sublist.refl _)
    · simp at hne

def Message.isMarker : Message → Bool
  | .line _ => true
  | .event _ _ => false

/-- Markers in hand whose flag is still set. -/
def Taking.markers : Taking → Nat
  | .testing m => if m.isMarker then 1 else 0
  | .clearing _ => 1
  | _ => 0

def Taking.isLoading : Taking → Bool
  | .loading _ => true
  | _ => false

/-- Markers about to be queued. -/
def Stage.markers {σ : Type} : Stage σ → Nat
  | .lineMarked _ => 1
  | _ => 0

def Stage.isStored {σ : Type} : Stage σ → Bool
  | .lineStored _ => true
  | _ => false

theorem Stage.Inner.isStored {σ : Type} {d : Drained} {x y : Stage σ} (h : Stage.Inner d x y) :
    y.isStored = x.isStored := by
  cases h <;> rfl

theorem Stage.Inner.markers {σ : Type} {d : Drained} {x y : Stage σ} (h : Stage.Inner d x y) :
    y.markers = x.markers := by
  cases h <;> rfl

variable {ω σ : Type} {id : Nat} {last : Option UInt32} {l : Label ω} {v v' : View σ}
  {r r' : Run σ} {k k' : Slot} {ms : List Message} {ns : List Note}

/-- A move that has nothing to do with lines. -/
structure RunMove.Quiet (r : Run σ) (k : Slot) (r' : Run σ) (k' : Slot) (ms : List Message)
    (ns : List Note) : Prop where
  slot : k' = k
  stored : r'.stage.isStored = r.stage.isStored
  markers : r'.stage.markers = r.stage.markers
  published : Note.lines ns = []
  sent : ∀ m ∈ ms, m.isMarker = false

/-- A worker does not send a line as an event. -/
theorem RunMove.plain (h : RunMove id l r k r' k' ms ns) :
    ∀ m ∈ ms, ∀ r n, m ≠ .event r (.currentLine n) := by
  cases h <;> simp

/-- Of the moves of a run, three are about lines. -/
theorem RunMove.line_cases (h : RunMove id l r k r' k' ms ns) :
    Quiet r k r' k' ms ns ∨
    (∃ s n, r.stage = .executing s ∧ r'.stage = .lineStored s ∧ k' = { k with line := n } ∧
      ms = [] ∧ ns = [.published id n]) ∨
    (∃ s, r.stage = .lineStored s ∧ r'.stage = (if k.queued then .testing s else .lineMarked s) ∧
      k' = { k with queued := true } ∧ ms = [] ∧ ns = []) ∨
    (∃ s, r.stage = .lineMarked s ∧ r'.stage = .testing s ∧ k' = k ∧
      ms = [.line id] ∧ ns = []) := by
  cases h with
  | store s n h => exact .inr (.inl ⟨s, n, h, rfl, rfl, rfl, rfl⟩)
  | mark s h => exact .inr (.inr (.inl ⟨s, h, rfl, rfl, rfl, rfl⟩))
  | push s h => exact .inr (.inr (.inr ⟨s, h, rfl, rfl, rfl, rfl⟩))
  | inner stage _ _ _ h => exact .inl ⟨rfl, h.isStored, h.markers, rfl, nofun⟩
  | announce h | leave o h =>
    exact .inl ⟨rfl, by rw [h]; rfl, by rw [h]; rfl, rfl, by simp [Message.isMarker]⟩
  | write s s' b h | report s s' t h | finalize s s' o b h | close o h | expire o h =>
    exact .inl ⟨rfl, by rw [h]; rfl, by rw [h]; rfl, rfl, nofun⟩
  | look | finish | fault => exact .inl ⟨rfl, rfl, rfl, rfl, nofun⟩
  | forward => exact .inl ⟨rfl, rfl, rfl, rfl, by simp [Message.isMarker]⟩
  | abort =>
    unfold Run.abortPump
    split <;> exact .inl ⟨rfl, rfl, rfl, rfl, nofun⟩

namespace View

/-- The markers of the run that are on their way. -/
def markers (v : View σ) : Nat :=
  v.queued.countP Message.isMarker + v.hand.markers + v.run.stage.markers

/-- The lines delivered once the receiver is done with the one it compares. -/
def lines (v : View σ) : List UInt32 :=
  let told := Event.lines (Note.heard v.notes)
  match v.hand with
  | .comparing _ n => withLine told n
  | _ => told

theorem begins_lines (v : View σ) : Event.lines (Note.heard v.notes) <+: v.lines := by
  have hp (told : List UInt32) (n : UInt32) : told <+: withLine told n := by
    unfold withLine
    split
    · exact List.prefix_rfl
    · exact List.prefix_append _ _
  unfold lines
  split
  · exact hp _ _
  · exact List.prefix_rfl

/-- The line stored is still to be looked at. -/
def stale (v : View σ) : Bool := v.run.stage.isStored || v.slot.queued || v.hand.isLoading

/-- No line of the run is on its way as an event. -/
def Plain (v : View σ) : Prop := ∀ m ∈ v.pending, ∀ r n, m ≠ .event r (.currentLine n)

theorem plain_fresh (id : Nat) (launch : Launch) (r : Run σ) : (fresh id launch r).Plain := by
  intro m hm
  obtain ⟨o, _, rfl⟩ : ∃ o, launch.refusal? = some o ∧ Message.event id (.stopped o) = m := by
    simpa [fresh, pending, Taking.messages] using hm
  simp

theorem Plain.step (hv : v.Plain) (h : Step id last l v v') : v'.Plain := by
  have fewer {w : View σ} (hw : ∀ m ∈ w.pending, m ∈ v.pending) : w.Plain := fun m hm => hv m (hw m hm)
  cases h with
  | run h =>
    intro m hm
    rw [pending, ← List.append_assoc, List.mem_append] at hm
    exact hm.elim (hv m) (h.plain m)
  | silence => exact hv
  | dequeue h hq =>
    refine fewer ?_
    simp [pending, h, hq, Taking.messages]
  | drop | deliver | same | tell => exact fewer fun m hm => List.mem_append_right _ hm
  | turn h | clear h | load h =>
    refine fewer ?_
    simp [pending, h, Taking.messages]

/-- What the steps about lines keep. -/
structure Coalesced (v : View σ) : Prop where
  flag : v.markers = if v.slot.queued then 1 else 0
  line : ∀ n, (Note.lines v.notes).getLast? = some n → v.slot.line = n
  begun : v.stale = true → Note.lines v.notes ≠ []
  current : v.stale = false → v.lines.getLast? = (Note.lines v.notes).getLast?
  sublist : v.lines.Sublist (Note.lines v.notes)
  chain : v.lines.IsChain (· ≠ ·)

theorem coalesced_fresh {launch : Launch} (gives : launch.Gives r) :
    (fresh id launch r).Coalesced := by
  have quiet (h1 : r.stage.isStored = false) (h2 : r.stage.markers = 0) :
      (fresh id launch r).Coalesced := by
    have hc : (fresh id launch r).queued.countP Message.isMarker = 0 :=
      List.countP_eq_zero.mpr fun m hm => by
        obtain ⟨o, _, rfl⟩ : ∃ o, launch.refusal? = some o ∧ Message.event id (.stopped o) = m := by
          simpa [fresh] using hm
        exact Bool.false_ne_true
    have hs : (fresh id launch r).stale = false := by simp [stale, fresh, h1, Taking.isLoading]
    refine ⟨?_, fun n hn => ?_, fun h => ?_, fun _ => rfl, List.Sublist.refl _, .nil⟩
    · rw [markers, hc]
      simp [fresh, h2, Taking.markers]
    · cases hn
    · rw [hs] at h
      cases h
  cases gives <;> exact quiet rfl rfl

/-- What holds is kept by a step that leaves the slot, the lines and the markers as they are. -/
theorem Coalesced.of_eq (hv : v.Coalesced) (slot : v'.slot = v.slot) (markers : v'.markers = v.markers)
    (published : Note.lines v'.notes = Note.lines v.notes)
    (stale : v'.stale = v.stale) (lines : v'.lines = v.lines) : v'.Coalesced where
  flag := by rw [slot, markers]; exact hv.flag
  line := by rw [slot, published]; exact hv.line
  begun := by rw [stale, published]; exact hv.begun
  current := by rw [stale, published, lines]; exact hv.current
  sublist := by rw [published, lines]; exact hv.sublist
  chain := by rw [lines]; exact hv.chain

theorem Coalesced.quiet (hv : v.Coalesced) (h : RunMove id l v.run v.slot r' k' ms ns)
    (hq : RunMove.Quiet v.run v.slot r' k' ms ns) :
    (⟨r', k', v.hand, v.queued ++ ms, v.notes ++ ns⟩ : View σ).Coalesced := by
  refine hv.of_eq hq.slot ?_ ?_ ?_ ?_
  · have : ms.countP Message.isMarker = 0 := List.countP_eq_zero.mpr fun m hm => by simp [hq.sent m hm]
    simp [markers, hq.markers, this]
  · simp [hq.published]
  · simp [stale, hq.stored, hq.slot]
  · simp [lines, h.heard]

theorem Coalesced.store {s : σ} {n : UInt32} (hv : v.Coalesced) (h : v.run.stage = .executing s)
    (stage : r'.stage = .lineStored s) :
    (⟨r', { v.slot with line := n }, v.hand, v.queued, v.notes ++ [.published id n]⟩ :
      View σ).Coalesced := by
  have lines' : Note.lines (v.notes ++ [.published id n]) = Note.lines v.notes ++ [n] := by
    simp [Note.lines]
  have told : (⟨r', { v.slot with line := n }, v.hand, v.queued, v.notes ++ [.published id n]⟩ :
      View σ).lines = v.lines := by
    have heard : Note.heard [.published id n] = [] := rfl
    simp [View.lines, heard]
  refine ⟨?_, fun m hm => ?_, fun _ => ?_, fun hs => ?_, ?_, ?_⟩
  · have := hv.flag
    simpa [markers, h, stage, Stage.markers] using this
  · simpa [lines'] using hm
  · simp [lines']
  · simp [View.stale, stage, Stage.isStored] at hs
  · rw [told, lines']
    exact hv.sublist.trans (List.sublist_append_left _ _)
  · rw [told]
    exact hv.chain

theorem Coalesced.mark {s : σ} (hv : v.Coalesced) (h : v.run.stage = .lineStored s)
    (stage : r'.stage = if v.slot.queued then .testing s else .lineMarked s) :
    (⟨r', { v.slot with queued := true }, v.hand, v.queued, v.notes⟩ : View σ).Coalesced := by
  refine ⟨?_, hv.line, fun _ => hv.begun ?_, fun hs => ?_, hv.sublist, hv.chain⟩
  · have := hv.flag
    rw [markers, h] at this
    simp only [markers, stage]
    cases hq : v.slot.queued <;> simp_all [Stage.markers]
  · simp [View.stale, h, Stage.isStored]
  · simp [View.stale] at hs

theorem Coalesced.push {s : σ} (hv : v.Coalesced) (h : v.run.stage = .lineMarked s)
    (stage : r'.stage = .testing s) :
    (⟨r', v.slot, v.hand, v.queued ++ [.line id], v.notes⟩ : View σ).Coalesced := by
  refine hv.of_eq rfl ?_ rfl ?_ rfl
  · simp only [markers, h, stage, Stage.markers, List.countP_append]
    have : [Message.line id].countP Message.isMarker = 1 := rfl
    omega
  · simp [View.stale, h, stage, Stage.isStored]

theorem Coalesced.run (hv : v.Coalesced) (h : RunMove id l v.run v.slot r' k' ms ns) :
    (⟨r', k', v.hand, v.queued ++ ms, v.notes ++ ns⟩ : View σ).Coalesced := by
  rcases h.line_cases with hq | ⟨s, n, hs, hs', rfl, rfl, rfl⟩ | ⟨s, hs, hs', rfl, rfl, rfl⟩ |
    ⟨s, hs, hs', rfl, rfl, rfl⟩
  · exact hv.quiet h hq
  · rw [List.append_nil]
    exact hv.store hs hs'
  · rw [List.append_nil, List.append_nil]
    exact hv.mark hs hs'
  · rw [List.append_nil]
    exact hv.push hs hs'

/-! ## The receiver -/

theorem Coalesced.dequeue {m : Message} {rest : List Message} (hv : v.Coalesced)
    (h : v.hand = .resting) (hq : v.queued = m :: rest) :
    ({ v with hand := .testing m, queued := rest } : View σ).Coalesced := by
  refine hv.of_eq rfl ?_ rfl ?_ ?_
  · simp only [markers, h, hq, Taking.markers, List.countP_cons]
    omega
  · simp [View.stale, h, Taking.isLoading]
  · simp [View.lines, h]

/-- Something that is delivered and is no line. -/
theorem Coalesced.deliver {e : Event} (hv : v.Coalesced) (plain : v.Plain)
    (h : v.hand = .testing (.event id e)) :
    ({ v with hand := .resting, notes := v.notes ++ [.delivered id e] } : View σ).Coalesced := by
  have he : Event.lines [e] = [] := by
    have := plain (.event id e) (by simp [pending, h, Taking.messages]) id
    cases e with
    | currentLine n => exact absurd rfl (this n)
    | _ => rfl
  refine hv.of_eq rfl ?_ ?_ ?_ ?_
  · simp [markers, h, Taking.markers, Message.isMarker]
  · simp [Note.lines]
  · simp [View.stale, h, Taking.isLoading]
  · simp [View.lines, h, he]

theorem Coalesced.turn (hv : v.Coalesced) (h : v.hand = .testing (.line id)) :
    ({ v with hand := .clearing id } : View σ).Coalesced := by
  refine hv.of_eq rfl ?_ rfl ?_ ?_
  · simp [markers, h, Taking.markers, Message.isMarker]
  · simp [View.stale, h, Taking.isLoading]
  · simp [View.lines, h]

/-- The marker in hand was the only one. -/
theorem Coalesced.clear (hv : v.Coalesced) (h : v.hand = .clearing id) :
    ({ v with slot := { v.slot with queued := false }, hand := .loading id } : View σ).Coalesced := by
  have flag := hv.flag
  have queued : v.slot.queued = true := by
    by_contra hq
    rw [if_neg hq, markers, h, show (Taking.clearing id).markers = 1 from rfl] at flag
    omega
  have told : ({ v with slot := { v.slot with queued := false }, hand := .loading id } :
      View σ).lines = v.lines := by
    simp [View.lines, h]
  refine ⟨?_, hv.line, fun _ => hv.begun ?_, fun hs => ?_, ?_, ?_⟩
  · rw [if_pos queued, markers, h, show (Taking.clearing id).markers = 1 from rfl] at flag
    simp only [markers, show (Taking.loading id).markers = 0 from rfl]
    simp only [Bool.false_eq_true, if_false]
    omega
  · simp [View.stale, queued]
  · simp [View.stale, Taking.isLoading] at hs
  · rw [told]
    exact hv.sublist
  · rw [told]
    exact hv.chain

/-- The line loaded is the one published last. -/
theorem Coalesced.load (hv : v.Coalesced) (h : v.hand = .loading id) :
    ({ v with hand := .comparing id v.slot.line } : View σ).Coalesced := by
  have told : v.lines = Event.lines (Note.heard v.notes) := by simp [View.lines, h]
  have told' : ({ v with hand := .comparing id v.slot.line } : View σ).lines =
      withLine v.lines v.slot.line := by rw [told]; rfl
  have published : Note.lines v.notes ≠ [] := hv.begun (by simp [View.stale, h, Taking.isLoading])
  have last : (Note.lines v.notes).getLast? = some v.slot.line := by
    have := List.getLast?_eq_some_getLast published
    rwa [hv.line _ this]
  refine ⟨?_, hv.line, fun _ => published, fun _ => ?_, ?_, ?_⟩
  · have := hv.flag
    simpa [markers, h, Taking.markers] using this
  · rw [told', getLast_withLine, last]
  · rw [told']
    exact withLine_sublist hv.sublist last
  · rw [told']
    exact isChain_withLine hv.chain

theorem Coalesced.compared {n : UInt32} {ns : List Note} (hv : v.Coalesced)
    (h : v.hand = .comparing id n) (published : Note.lines ns = [])
    (told : Event.lines (Note.heard (v.notes ++ ns)) = withLine (Event.lines (Note.heard v.notes)) n) :
    ({ v with hand := .resting, notes := v.notes ++ ns } : View σ).Coalesced := by
  refine hv.of_eq rfl ?_ ?_ ?_ ?_
  · simp [markers, h, Taking.markers]
  · simp [published]
  · simp [View.stale, h, Taking.isLoading]
  · simp only [View.lines, h, told]

theorem Coalesced.step (hv : v.slot.abandoned = false → v.Coalesced) (plain : v.Plain)
    (sync : ∀ n, v.hand = .comparing id n → v.slot.abandoned = false →
      last = (Event.lines (Note.heard v.notes)).getLast?)
    (h : Step id last l v v') (ha' : v'.slot.abandoned = false) : v'.Coalesced := by
  cases h with
  | run h => exact (hv (h.abandoned_eq ▸ ha')).run h
  | silence => cases ha'
  | dequeue h hq => exact (hv ha').dequeue h hq
  | drop h ha =>
    rw [show v.slot.abandoned = false from ha'] at ha
    cases ha
  | deliver h ha => exact (hv ha).deliver plain h
  | turn h ha => exact (hv ha).turn h
  | clear h ha => exact (hv ha).clear h
  | load h ha => exact (hv ha).load h
  | @same n h ha hl =>
    have : ({ v with hand := .resting, notes := v.notes ++ [] } : View σ).Coalesced := by
      refine (hv ha).compared h rfl ?_
      rw [List.append_nil, withLine, if_pos ((sync n h ha).symm.trans hl)]
    simpa using this
  | @tell n h ha hl =>
    refine (hv ha).compared h rfl ?_
    rw [withLine, if_neg fun he => hl ((sync n h ha).trans he), Note.heard_append, Event.lines_append]
    rfl

end View
end ScriptHost
