import ScriptHost.Proofs.Delivery.Segment
import ScriptHost.Proofs.Ensemble.View

/-!
# The trail of a run

The events heard of a run and, behind them, the messages that are still on their
way make its *trail*. Worker and pump add to its end, the receiver moves the
border between what is heard and what is not.

* `Calm`: what the pump of a run may be at, given how far the worker is.
* `Told`: the trail of a run can be read up to the position its worker has
  reached, and what was heard of it can be read.

`voices false` leaves the outputs out of a trail. What is left can be read however
impatient the worker is; with the outputs it can be read if no worker's patience
has ended.
-/
namespace ScriptHost

/-- The event delivered, if a note tells of one. -/
def Note.event? : Note → Option Event
  | .delivered _ e => some e
  | _ => none

/-- The events delivered. -/
def Note.heard (ns : List Note) : List Event := ns.filterMap Note.event?

/-- The event a message may become; a marker stands for some line. -/
def Message.outline : Message → Event
  | .event _ e => e
  | .line _ => .currentLine 0

/-- The message the receiver has in hand. -/
def Taking.messages : Taking → List Message
  | .resting => []
  | .testing m => [m]
  | .clearing run | .loading run | .comparing run _ => [.line run]

/-- The events that are looked at: all of them, or all but the outputs. -/
def Event.voices (outputs : Bool) : Event → Bool
  | .output _ => outputs
  | _ => true

theorem Event.voices_true (e : Event) : e.voices true = true := by cases e <;> rfl

/-- The position of a run whose worker is so far. -/
def Stage.position {σ : Type} : Stage σ → Position
  | .created => .silent
  | .absent | .ending | .gone => .past
  | _ => .open

/-- The outcome the worker will announce. -/
def Stage.outcome? {σ : Type} : Stage σ → Option Outcome
  | .finalizing _ o | .closing o | .draining o | .stopping o | .leaving o => some o
  | _ => none

/-- The worker is done with waiting for its output to be taken. -/
def Stage.isPast {σ : Type} : Stage σ → Bool
  | .absent | .stopping _ | .leaving _ | .ending | .gone => true
  | _ => false

theorem Stage.Inner.created {σ : Type} {d : Drained} {x y : Stage σ} (h : Stage.Inner d x y)
    (hy : y = .created) : x = .created := by
  cases h <;> first | exact hy | cases hy

theorem Stage.Inner.isPast {σ : Type} {d : Drained} {x y : Stage σ} (h : Stage.Inner d x y)
    (hy : y.isPast = true) : x.isPast = true ∨ d ≠ .waiting := by
  cases h with
  | rest => exact .inl hy
  | drained _ h => exact .inr h
  | past | cease => exact .inl rfl
  | _ => cases hy

theorem Stage.Inner.position {σ : Type} {d : Drained} {x y : Stage σ} (h : Stage.Inner d x y) :
    y.position = x.position := by
  cases h <;> rfl

theorem Stage.Inner.outcome {σ : Type} {d : Drained} {x y : Stage σ} (h : Stage.Inner d x y) :
    y.outcome? = x.outcome? ∨ ∃ o, y.outcome? = some o ∧ o.ofScript = true := by
  cases h with
  | finish | trip => exact .inr ⟨_, rfl, rfl⟩
  | _ => exact .inl rfl

variable {ω σ : Type} {id : Nat} {last : Option UInt32} {l : Label ω} {v v' : View σ}
  {r r' : Run σ} {k k' : Slot} {ms : List Message} {ns : List Note}

@[simp] theorem Note.heard_append (xs ys : List Note) :
    Note.heard (xs ++ ys) = Note.heard xs ++ Note.heard ys := List.filterMap_append

@[simp] theorem Note.heard_launched (r : Nat) (l : Launch) : Note.heard [.launched r l] = [] := rfl

@[simp] theorem Note.heard_delivered (r : Nat) (e : Event) :
    Note.heard [.delivered r e] = [e] := rfl

@[simp] theorem Note.heard_abandoned (r : Nat) : Note.heard [.abandoned r] = [] := rfl

/-- A run does not hear itself. -/
theorem RunMove.heard (h : RunMove id l r k r' k' ms ns) : Note.heard ns = [] := by
  cases h <;> rfl

/-! ## The pump and the worker -/

/-- What the pump may be at, given how far the worker is. -/
structure Run.Calm (r : Run σ) : Prop where
  /-- Nothing was written yet. -/
  created : r.stage = .created → r.channel.pieces = [] ∧ r.channel.writing = true ∧
    r.channel.reader = {} ∧ ∀ t, r.pump ≠ .sending t
  drained : r.drained ≠ .waiting → r.pump = .ended
  past : r.stage.isPast = true → r.pump = .ended

theorem calm_fresh {launch : Launch} (gives : launch.Gives r) : r.Calm := by
  cases gives with
  | works => constructor <;> simp [Stage.isPast]
  | fails => constructor <;> simp [Run.failed]

/-- A look at a channel on which nothing was written finds nothing. -/
theorem look_untouched {c : Channel} (g : Grant) (hp : c.pieces = []) (hw : c.writing = true)
    (hr : c.reader = {}) : c.look g = (.pending, c) := by
  obtain ⟨pieces, writing, reading, reader⟩ := c
  simp only at hp hw hr
  subst hp hw hr
  cases g <;> simp [Channel.look, Channel.take, Channel.buffer, Reader.take]

theorem Run.Calm.move (hr : r.Calm) (hl : l ≠ .other (.patience id))
    (h : RunMove id l r k r' k' ms ns) : r'.Calm := by
  cases h with
  | inner stage phase token tripped h =>
    refine ⟨fun hc => hr.created (h.created hc), hr.drained, fun ho => ?_⟩
    rcases h.isPast ho with h | h
    · exact hr.past h
    · exact hr.drained h
  | mark s h =>
    refine ⟨?_, hr.drained, ?_⟩ <;> split <;> nofun
  | announce | store | push | write | report | finalize | close => exact ⟨nofun, hr.drained, nofun⟩
  | leave o h => exact ⟨nofun, hr.drained, fun _ => hr.past (by rw [h]; rfl)⟩
  | expire => exact absurd rfl hl
  | look g h =>
    refine ⟨fun hc => ?_, fun hd => ?_, fun ho => ?_⟩
    · obtain ⟨h1, h2, h3, _⟩ := hr.created hc
      simp only [look_untouched g h1 h2 h3]
      exact ⟨h1, h2, h3, nofun⟩
    · exact absurd (hr.drained hd) (by rw [h]; nofun)
    · exact absurd (hr.past ho) (by rw [h]; nofun)
  | forward t h =>
    refine ⟨fun hc => ?_, fun hd => ?_, fun ho => ?_⟩
    · exact absurd h ((hr.created hc).2.2.2 t)
    · exact absurd (hr.drained hd) (by rw [h]; nofun)
    · exact absurd (hr.past ho) (by rw [h]; nofun)
  | finish h =>
    refine ⟨fun hc => ?_, fun _ => rfl, fun _ => rfl⟩
    obtain ⟨h1, h2, h3, _⟩ := hr.created hc
    exact ⟨h1, h2, h3, nofun⟩
  | fault h =>
    refine ⟨fun hc => ?_, fun hd => ?_, fun ho => ?_⟩
    · obtain ⟨h1, h2, h3, _⟩ := hr.created hc
      exact ⟨h1, h2, h3, nofun⟩
    · exact absurd (hr.drained hd) (by rw [h]; nofun)
    · exact absurd (hr.past ho) (by rw [h]; nofun)
  | abort h =>
    unfold Run.abortPump
    split
    · exact hr
    · refine ⟨fun hc => ?_, fun _ => rfl, fun _ => rfl⟩
      obtain ⟨h1, h2, h3, _⟩ := hr.created hc
      exact ⟨h1, h2, h3, nofun⟩

namespace View

theorem calm_step (hv : v.run.Calm) (hl : l ≠ .other (.patience id)) (h : Step id last l v v') :
    v'.run.Calm := by
  cases h with
  | run h => exact hv.move hl h
  | _ => exact hv

end View

theorem Run.Calm.open_of_sending {t : String} (hr : r.Calm) (h : r.pump = .sending t) :
    r.stage.position = .open := by
  have h1 : r.stage ≠ .created := fun hc => (hr.created hc).2.2.2 t h
  have h2 : r.stage.isPast ≠ true := fun ho => by rw [hr.past ho] at h; cases h
  cases hs : r.stage <;> simp_all [Stage.position, Stage.isPast]

/-! ## What is told -/

/-- The position to which a sequence of events leads; `outputs` tells whether outputs count. -/
def Position.after (outputs : Bool) (launch : Launch) (es : List Event) : Option Position :=
  (start launch).read (es.filter (Event.voices outputs))

theorem Position.after_true (launch : Launch) (es : List Event) :
    after true launch es = (start launch).read es := by
  rw [after, List.filter_eq_self.mpr fun e _ => e.voices_true]

theorem Position.after_append (outputs : Bool) (launch : Launch) (xs ys : List Event) :
    after outputs launch (xs ++ ys) =
      (after outputs launch xs).bind (·.read (ys.filter (Event.voices outputs))) := by
  rw [after, List.filter_append, read_append, after]

/-- A line between other events may be left out, or be another line. -/
theorem Position.after_line {outputs : Bool} {launch : Launch} {xs ys : List Event} {n : UInt32}
    {p : Position} (h : after outputs launch (xs ++ .currentLine n :: ys) = some p) :
    after outputs launch (xs ++ ys) = some p ∧
      ∀ m, after outputs launch (xs ++ .currentLine m :: ys) = some p := by
  have hv (m : UInt32) : Event.voices outputs (.currentLine m) = true := rfl
  simp only [after, List.filter_append, List.filter_cons_of_pos (hv _)] at h ⊢
  exact ⟨read_report rfl h, fun m => read_other rfl rfl h⟩

/-- What a run sends at a move leads from where its worker was to where it is then. -/
theorem RunMove.tells {outputs : Bool} (h : RunMove id l r k r' k' ms ns)
    (calm : outputs = true → r.Calm) (ofScript : ∀ o, r.stage.outcome? = some o → o.ofScript = true) :
    r.stage.position.read ((ms.map Message.outline).filter (Event.voices outputs)) =
      some r'.stage.position := by
  cases h with
  | inner stage _ _ _ h => exact congrArg some h.position.symm
  | announce h => rw [h]; rfl
  | store s n h => rw [h]; rfl
  | mark s h =>
    rw [h]
    split <;> rfl
  | push s h => rw [h]; rfl
  | write s s' bytes h => rw [h]; rfl
  | report s s' t h => rw [h]; rfl
  | finalize s s' o bytes h => rw [h]; rfl
  | close o h => rw [h]; rfl
  | leave o h =>
    have ho := ofScript o (by rw [h]; rfl)
    have hn : Position.open.next (.stopped o) = some .past := if_pos ho
    rw [h]
    change (Position.open.next (.stopped o)).bind (·.read []) = _
    rw [hn]
    rfl
  | expire o h => rw [h]; rfl
  | look | finish | fault => rfl
  | forward t h =>
    cases outputs with
    | false => rfl
    | true =>
      rw [(calm rfl).open_of_sending h]
      rfl
  | abort =>
    unfold Run.abortPump
    split <;> rfl

theorem RunMove.ofScript (h : RunMove id l r k r' k' ms ns)
    (hr : ∀ o, r.stage.outcome? = some o → o.ofScript = true) :
    ∀ o, r'.stage.outcome? = some o → o.ofScript = true := by
  cases h with
  | inner stage _ _ _ h =>
    intro o ho
    rcases h.outcome with h | ⟨o', h, ho'⟩
    · exact hr o (by rw [← h]; exact ho)
    · rw [show stage.outcome? = some o from ho] at h
      cases h
      exact ho'
  | announce | store | push | write | leave => nofun
  | mark => split <;> nofun
  | report s s' t h =>
    rintro o ⟨⟩
    rfl
  | finalize s s' o bytes h | close o h | expire o h =>
    intro o' ho'
    cases ho'
    exact hr o (by rw [h]; rfl)
  | look | forward | finish | fault => exact hr
  | abort =>
    unfold Run.abortPump
    split <;> exact hr

namespace View

/-- The messages of the run that were sent and not yet heard. -/
def pending (v : View σ) : List Message := v.hand.messages ++ v.queued

/-- What was heard of the run, and what is on its way. -/
def trail (v : View σ) : List Event := Note.heard v.notes ++ v.pending.map Message.outline

/-- The trail of a run leads to where its worker is, and what was heard of it leads somewhere. -/
structure Told (outputs : Bool) (launch : Launch) (v : View σ) : Prop where
  ofScript : ∀ o, v.run.stage.outcome? = some o → o.ofScript = true
  heard : ∃ p, Position.after outputs launch (Note.heard v.notes) = some p
  trail : v.slot.abandoned = false →
    Position.after outputs launch v.trail = some v.run.stage.position

theorem told_fresh {outputs : Bool} {launch : Launch} (gives : launch.Gives r) :
    (fresh id launch r).Told outputs launch := by
  cases gives with
  | works => exact ⟨nofun, ⟨.silent, rfl⟩, fun _ => rfl⟩
  | fails h =>
    rename_i o _ _
    refine ⟨nofun, ⟨_, rfl⟩, fun _ => ?_⟩
    have hp : Position.start launch = .doomed o := by simp [Position.start, h]
    have hn : (Position.doomed o).next (.stopped o) = some .past := if_pos rfl
    simp only [View.trail, pending, fresh, h, Note.heard_launched, hp, Position.after]
    change ((Position.doomed o).next (.stopped o)).bind (·.read []) = _
    rw [hn]
    rfl

theorem trail_run (v : View σ) (h : RunMove id l v.run v.slot r' k' ms ns) :
    (⟨r', k', v.hand, v.queued ++ ms, v.notes ++ ns⟩ : View σ).trail =
      v.trail ++ ms.map Message.outline := by
  simp [View.trail, pending, h.heard]

theorem Told.run {outputs : Bool} {launch : Launch} (hv : v.Told outputs launch)
    (calm : outputs = true → v.run.Calm) (h : RunMove id l v.run v.slot r' k' ms ns) :
    (⟨r', k', v.hand, v.queued ++ ms, v.notes ++ ns⟩ : View σ).Told outputs launch := by
  refine ⟨h.ofScript hv.ofScript, ?_, fun ha => ?_⟩
  · simpa [h.heard] using hv.heard
  · rw [trail_run v h, Position.after_append, hv.trail (h.abandoned_eq ▸ ha)]
    exact h.tells calm hv.ofScript

/-- What the receiver can do to a trail: a marker in it becomes a line, or goes. -/
inductive Retold : List Event → List Event → Prop where
  | same (es : List Event) : Retold es es
  | line (xs ys : List Event) (n : UInt32) :
    Retold (xs ++ .currentLine 0 :: ys) (xs ++ .currentLine n :: ys)
  | drop (xs ys : List Event) : Retold (xs ++ .currentLine 0 :: ys) (xs ++ ys)

/-- A step that is no move of the run leaves it as it is. Either the run is disowned, and nothing is
heard of it, or its trail is told in another way. -/
theorem Step.retold (h : Step id last l v v') :
    (∃ r k ms ns, RunMove id l v.run v.slot r k ms ns ∧
      v' = ⟨r, k, v.hand, v.queued ++ ms, v.notes ++ ns⟩) ∨
    v'.run = v.run ∧
      (v'.slot.abandoned = true ∧ Note.heard v'.notes = Note.heard v.notes ∨
        v'.slot.abandoned = false ∧ v.slot.abandoned = false ∧ Retold v.trail v'.trail ∧
          (v'.notes = v.notes ∨ ∃ e, v'.notes = v.notes ++ [.delivered id e])) := by
  cases h with
  | run h => exact .inl ⟨_, _, _, _, h, rfl⟩
  | silence h => exact .inr ⟨rfl, .inl ⟨rfl, by simp⟩⟩
  | @dequeue m rest h hq =>
    refine .inr ⟨rfl, ?_⟩
    cases ha : v.slot.abandoned with
    | true => exact .inl ⟨rfl, rfl⟩
    | false =>
      refine .inr ⟨rfl, rfl, ?_, .inl rfl⟩
      have : (⟨v.run, v.slot, .testing m, rest, v.notes⟩ : View σ).trail = v.trail := by
        simp [View.trail, pending, h, hq, Taking.messages]
      exact this ▸ .same _
  | drop h ha => exact .inr ⟨rfl, .inl ⟨ha, rfl⟩⟩
  | @deliver e h ha =>
    refine .inr ⟨rfl, .inr ⟨ha, ha, ?_, .inr ⟨e, rfl⟩⟩⟩
    have : (⟨v.run, v.slot, .resting, v.queued, v.notes ++ [.delivered id e]⟩ : View σ).trail =
        v.trail := by
      simp [View.trail, pending, h, Taking.messages, Message.outline]
    exact this ▸ .same _
  | turn h ha | clear h ha | load h ha =>
    refine .inr ⟨rfl, .inr ⟨ha, ha, ?_, .inl rfl⟩⟩
    simp only [View.trail, pending, h, Taking.messages]
    exact .same _
  | same h ha hl =>
    refine .inr ⟨rfl, .inr ⟨ha, ha, ?_, .inl rfl⟩⟩
    simp only [View.trail, pending, h, Taking.messages, List.map_append]
    exact .drop _ _
  | @tell n h ha hl =>
    refine .inr ⟨rfl, .inr ⟨ha, ha, ?_, .inr ⟨_, rfl⟩⟩⟩
    simp only [View.trail, pending, h, Taking.messages, List.map_append, Note.heard_append,
      Note.heard_delivered, List.append_assoc]
    exact .line _ _ n

theorem after_retold {outputs : Bool} {launch : Launch} {xs ys : List Event} {p : Position}
    (h : Retold xs ys) (hp : Position.after outputs launch xs = some p) :
    Position.after outputs launch ys = some p := by
  cases h with
  | same => exact hp
  | line _ _ n => exact (Position.after_line hp).2 n
  | drop => exact (Position.after_line hp).1

theorem Told.step {outputs : Bool} {launch : Launch} (hv : v.Told outputs launch)
    (calm : outputs = true → v.run.Calm) (h : Step id last l v v') : v'.Told outputs launch := by
  rcases h.retold with ⟨r, k, ms, ns, hm, rfl⟩ | ⟨run, ⟨ha', heard⟩ | ⟨_, ha, retold, _⟩⟩
  · exact hv.run calm hm
  · exact ⟨run ▸ hv.ofScript, heard ▸ hv.heard, fun hf => by rw [ha'] at hf; cases hf⟩
  · have trail := after_retold retold (hv.trail ha)
    refine ⟨run ▸ hv.ofScript, ?_, fun _ => run ▸ trail⟩
    rw [View.trail, Position.after_append] at trail
    obtain ⟨p, hp, _⟩ := Option.bind_eq_some_iff.mp trail
    exact ⟨p, hp⟩

end View
end ScriptHost
