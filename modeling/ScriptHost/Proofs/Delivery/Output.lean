import ScriptHost.Proofs.Channel
import ScriptHost.Proofs.Delivery.Grammar

/-!
# The output of a run

`Run.Flow` ties what a run has written to what was said of it: the bytes went
through its channel, and once the pump has met their end, all of their text was
said. The script writes until it has ended, then the worker writes the error
text of a script that has failed, and then finalizers write.

* `output_whole`: when the stop of a run is delivered, the texts delivered
  before it make the text of all its bytes, in the order in which they were
  written.
* `output_whole_finalized`: what a finalizer writes comes behind the error text.
-/
namespace ScriptHost

/-! ## What is written and what is said -/

/-- The text of an event; only an output has one. -/
def Event.text : Event → String
  | .output t => t
  | _ => ""

/-- The texts of the outputs, put together. -/
def Event.texts (es : List Event) : String := String.join (es.map Event.text)

/-- What the script of a run has written. -/
def Note.writes (ns : List Note) : List UInt8 :=
  ns.flatMap fun
    | .wrote _ bytes => bytes
    | _ => []

/-- The error texts the worker has written. -/
def Note.reports (ns : List Note) : List String :=
  ns.filterMap fun
    | .reported _ failure => some failure
    | _ => none

/-- What the finalizers of a script have written. -/
def Note.finals (ns : List Note) : List UInt8 :=
  ns.flatMap fun
    | .finalized _ bytes => bytes
    | _ => []

/-- An error text as it is written. -/
def Note.reportBytes (failure : String) : List UInt8 := (failure ++ "\n").toUTF8.toList

/-- What was written with what is noted. -/
def Note.bytes : Note → List UInt8
  | .wrote _ bytes | .finalized _ bytes => bytes
  | .reported _ failure => reportBytes failure
  | _ => []

/-- All that was written in a run, in the order in which it was written. -/
def Note.written (ns : List Note) : List UInt8 := ns.flatMap Note.bytes

/-- Something was written. -/
def Note.isOutput : Note → Bool
  | .wrote _ _ | .reported _ _ | .finalized _ _ => true
  | _ => false

/-- The script has written first, then its worker, and its finalizers last. -/
def Note.InOrder (ns : List Note) : Prop :=
  Note.written ns =
    Note.writes ns ++ (Note.reports ns).flatMap Note.reportBytes ++ Note.finals ns

/-- An error was reported if that is how the script ended. -/
def Outcome.Settles (o : Outcome) (reports : List String) : Prop :=
  if o = .failed then ∃ t, reports = [t] else reports = []

@[simp] theorem Event.texts_nil : Event.texts [] = "" := rfl

theorem Event.texts_append (xs ys : List Event) :
    Event.texts (xs ++ ys) = Event.texts xs ++ Event.texts ys := by
  simp [Event.texts]

@[simp] theorem Note.reports_append (xs ys : List Note) :
    Note.reports (xs ++ ys) = Note.reports xs ++ Note.reports ys := List.filterMap_append

@[simp] theorem Note.writes_append (xs ys : List Note) :
    Note.writes (xs ++ ys) = Note.writes xs ++ Note.writes ys := List.flatMap_append

@[simp] theorem Note.finals_append (xs ys : List Note) :
    Note.finals (xs ++ ys) = Note.finals xs ++ Note.finals ys := List.flatMap_append

@[simp] theorem Note.written_append (xs ys : List Note) :
    Note.written (xs ++ ys) = Note.written xs ++ Note.written ys := List.flatMap_append

@[simp] theorem Note.writes_wrote (r : Nat) (bytes : List UInt8) :
    Note.writes [.wrote r bytes] = bytes := List.append_nil bytes

@[simp] theorem Note.finals_wrote (r : Nat) (bytes : List UInt8) :
    Note.finals [.wrote r bytes] = [] := rfl

@[simp] theorem Note.written_wrote (r : Nat) (bytes : List UInt8) :
    Note.written [.wrote r bytes] = bytes := List.append_nil bytes

@[simp] theorem Note.reports_wrote (r : Nat) (bytes : List UInt8) :
    Note.reports [.wrote r bytes] = [] := rfl

@[simp] theorem Note.writes_reported (r : Nat) (t : String) :
    Note.writes [.reported r t] = [] := rfl

@[simp] theorem Note.reports_reported (r : Nat) (t : String) :
    Note.reports [.reported r t] = [t] := rfl

@[simp] theorem Note.finals_reported (r : Nat) (t : String) :
    Note.finals [.reported r t] = [] := rfl

@[simp] theorem Note.written_reported (r : Nat) (t : String) :
    Note.written [.reported r t] = Note.reportBytes t := List.append_nil _

@[simp] theorem Note.writes_finalized (r : Nat) (bytes : List UInt8) :
    Note.writes [.finalized r bytes] = [] := rfl

@[simp] theorem Note.reports_finalized (r : Nat) (bytes : List UInt8) :
    Note.reports [.finalized r bytes] = [] := rfl

@[simp] theorem Note.finals_finalized (r : Nat) (bytes : List UInt8) :
    Note.finals [.finalized r bytes] = bytes := List.append_nil bytes

@[simp] theorem Note.written_finalized (r : Nat) (bytes : List UInt8) :
    Note.written [.finalized r bytes] = bytes := List.append_nil bytes

/-- Notes of other things tell of no output. -/
theorem Note.unwritten {ns : List Note} (quiet : ∀ n ∈ ns, n.isOutput = false) :
    Note.writes ns = [] ∧ Note.reports ns = [] ∧ Note.finals ns = [] ∧ Note.written ns = [] := by
  refine ⟨List.flatMap_eq_nil_iff.mpr fun n hn => ?_, List.filterMap_eq_nil_iff.mpr fun n hn => ?_,
    List.flatMap_eq_nil_iff.mpr fun n hn => ?_, List.flatMap_eq_nil_iff.mpr fun n hn => ?_⟩ <;>
  · have := quiet n hn
    cases n <;> first | rfl | cases this

/-- The worker still holds the end of the channel that is written to. -/
def Stage.isOpen {σ : Type} : Stage σ → Bool
  | .absent | .draining _ | .stopping _ | .leaving _ | .ending | .gone => false
  | _ => true

/-- What is noted of the end of a script whose worker is so far. -/
def Stage.Accords {σ : Type} (x : Stage σ) (ns : List Note) : Prop :=
  match x with
  | .finalizing _ o | .closing o | .draining o | .stopping o | .leaving o => o.Settles (Note.reports ns)
  | .ending | .gone => True
  | _ => Note.reports ns = [] ∧ Note.finals ns = []

/-- What the pump has read and not yet sent. -/
def Pump.text : Pump → String
  | .sending t => t
  | _ => ""

variable {ω σ : Type} {id : Nat} {last : Option UInt32} {l : Label ω} {v v' : View σ}
  {r r' : Run σ} {k k' : Slot} {ms : List Message} {ns notes : List Note} {said : String}
  {o : Outcome}

theorem Stage.Inner.isOpen {d : Drained} {x y : Stage σ} (h : Stage.Inner d x y) :
    y.isOpen = x.isOpen := by
  cases h <;> rfl

theorem Stage.Inner.accords {d : Drained} {x y : Stage σ} (h : Stage.Inner d x y)
    (hx : x.Accords notes) : y.Accords notes := by
  cases h with
  | finish | trip => simpa [Stage.Accords, Outcome.Settles] using hx.1
  | _ => exact hx

/-- Notes of other things change nothing. -/
theorem Stage.Accords.append {x : Stage σ} (h : x.Accords notes)
    (quiet : ∀ n ∈ ns, n.isOutput = false) : x.Accords (notes ++ ns) := by
  obtain ⟨-, reports, finals, -⟩ := Note.unwritten quiet
  unfold Stage.Accords at h ⊢
  rwa [Note.reports_append, reports, List.append_nil, Note.finals_append, finals, List.append_nil]

theorem Note.InOrder.append (h : Note.InOrder notes) (quiet : ∀ n ∈ ns, n.isOutput = false) :
    Note.InOrder (notes ++ ns) := by
  obtain ⟨writes, reports, finals, written⟩ := Note.unwritten quiet
  rw [Note.InOrder, Note.written_append, Note.writes_append, Note.reports_append, Note.finals_append,
    writes, reports, finals, written]
  simpa [Note.InOrder] using h

/-- Of what a run has written, `said` is the text that was sent; the rest is in the channel or with
the pump. -/
structure Run.Flow (r : Run σ) (notes : List Note) (said : String) : Prop where
  conveys : r.channel.Conveys (Note.written notes) (said ++ r.pump.text)
  ends : r.stage.isOpen = true → r.channel.writing = true ∧ r.channel.reading = true
  done : r.pump = .finishing ∨ r.pump = .ended →
    r.stage.isOpen = false ∧ said = Utf8.lossy (Note.written notes)
  accords : r.stage.Accords notes
  inOrder : Note.InOrder notes

theorem flow_fresh {launch : Launch} (gives : launch.Gives r) :
    r.Flow [.launched id launch] "" := by
  cases gives with
  | works => exact ⟨Channel.conveys_fresh, fun _ => ⟨rfl, rfl⟩, nofun, ⟨rfl, rfl⟩, rfl⟩
  | fails => exact ⟨Channel.conveys_fresh, nofun, fun _ => ⟨rfl, rfl⟩, ⟨rfl, rfl⟩, rfl⟩

/-- A move that writes nothing, says nothing and leaves channel and pump as they are. -/
theorem Run.Flow.of_stage (hr : r.Flow notes said) {said' : String}
    (quiet : ∀ n ∈ ns, n.isOutput = false) (same : said' = said) (channel : r'.channel = r.channel)
    (pump : r'.pump = r.pump) (isOpen : r'.stage.isOpen = r.stage.isOpen)
    (accords : r.stage.Accords notes → r'.stage.Accords notes) : r'.Flow (notes ++ ns) said' := by
  have hn : Note.written (notes ++ ns) = Note.written notes := by
    rw [Note.written_append, (Note.unwritten quiet).2.2.2, List.append_nil]
  refine ⟨?_, ?_, ?_, (accords hr.accords).append quiet, hr.inOrder.append quiet⟩
  · rw [channel, pump, same, hn]; exact hr.conveys
  · rw [channel, isOpen]; exact hr.ends
  · rw [pump, isOpen, same, hn]; exact hr.done

theorem Channel.Conveys.of_ends {c : Channel} {written : List UInt8} {text : String}
    (h : c.Conveys written text) (writing reading : Bool) (hw : writing = true → c.writing = true) :
    ({ c with writing, reading } : Channel).Conveys written text :=
  ⟨h.split, fun he => ⟨by
    have := (h.ended he).1
    cases writing <;> simp_all, (h.ended he).2⟩⟩

/-- While the worker can write, the pump has not met the end. -/
theorem Run.Flow.not_done (hr : r.Flow notes said) (ho : r.stage.isOpen = true)
    (hd : r.pump = .finishing ∨ r.pump = .ended) : False := by
  rw [(hr.done hd).1] at ho
  cases ho

/-- A write of a worker that holds its end of the channel. -/
theorem Run.Flow.put (hr : r.Flow notes said) (ho : r.stage.isOpen = true) {stage : Stage σ} {n : Note}
    (accords : stage.Accords (notes ++ [n])) (inOrder : Note.InOrder (notes ++ [n])) :
    ({ r with channel := r.channel.put n.bytes, stage } : Run σ).Flow (notes ++ [n]) said := by
  obtain ⟨hw, hrd⟩ := hr.ends ho
  have hn : Note.written (notes ++ [n]) = Note.written notes ++ n.bytes := by
    rw [Note.written_append, Note.written, Note.written, List.flatMap_singleton]
  refine ⟨?_, fun _ => ?_, fun hd => (hr.not_done ho hd).elim, accords, inOrder⟩
  · rw [hn]
    exact Channel.put_conveys hr.conveys hw hrd _
  · exact ⟨(Channel.put_ends _ _).1.trans hw, (Channel.put_ends _ _).2.trans hrd⟩

theorem Run.Flow.write {s s' : σ} (hr : r.Flow notes said) (h : r.stage = .executing s)
    (bytes : List UInt8) :
    ({ r with channel := r.channel.put bytes, stage := .executing s' } : Run σ).Flow
      (notes ++ [.wrote id bytes]) said := by
  obtain ⟨reports, finals⟩ : Note.reports notes = [] ∧ Note.finals notes = [] := by
    have := hr.accords
    rwa [h] at this
  have inOrder := hr.inOrder
  refine hr.put (n := .wrote id bytes) (by rw [h]; rfl) ?_ ?_
  · exact ⟨by simp [reports], by simp [finals]⟩
  · simp_all [Note.InOrder]

theorem Run.Flow.report {s s' : σ} {t : String} (hr : r.Flow notes said) (h : r.stage = .reporting s t) :
    ({ r with channel := r.channel.put (Note.reportBytes t), stage := .finalizing s' .failed } : Run σ).Flow
      (notes ++ [.reported id t]) said := by
  obtain ⟨reports, finals⟩ : Note.reports notes = [] ∧ Note.finals notes = [] := by
    have := hr.accords
    rwa [h] at this
  have inOrder := hr.inOrder
  refine hr.put (n := .reported id t) (by rw [h]; rfl) ⟨t, by simp [reports]⟩ ?_
  simp_all [Note.InOrder]

theorem Run.Flow.finalize {s s' : σ} (hr : r.Flow notes said) (h : r.stage = .finalizing s o)
    (bytes : List UInt8) :
    ({ r with channel := r.channel.put bytes, stage := .finalizing s' o } : Run σ).Flow
      (notes ++ [.finalized id bytes]) said := by
  have settles : o.Settles (Note.reports notes) := by
    have := hr.accords
    rwa [h] at this
  have inOrder : Note.written notes = _ := hr.inOrder
  refine hr.put (n := .finalized id bytes) (by rw [h]; rfl) ?_ ?_
  · simpa [Stage.Accords] using settles
  · simp [Note.InOrder, inOrder]

theorem Run.Flow.look (hr : r.Flow notes said) (h : r.pump = .reading) (g : Grant) :
    ({ r with channel := (r.channel.look g).2, pump := .after (r.channel.look g).1 } : Run σ).Flow
      notes said := by
  have hc := hr.conveys
  rw [h, show Pump.reading.text = "" from rfl, String.append_empty] at hc
  obtain ⟨h1, h2⟩ := Channel.look_conveys hc g
  obtain ⟨h3, h4⟩ := Channel.look_ends r.channel g
  refine ⟨?_, fun ho => ?_, fun hd => ?_, hr.accords, hr.inOrder⟩
  · have ht : (Pump.after (r.channel.look g).1).text = (r.channel.look g).1.string := by
      cases (r.channel.look g).1 <;> rfl
    simp only [ht]
    exact h1
  · exact ⟨h3.trans (hr.ends ho).1, h4.trans (hr.ends ho).2⟩
  · have he : (r.channel.look g).1 = .eof := by
      simp only at hd
      cases hx : (r.channel.look g).1 <;> rw [hx] at hd <;> first | rfl | simp [Pump.after] at hd
    obtain ⟨hw, ht⟩ := h2 he
    refine ⟨?_, ht⟩
    cases ho : r.stage.isOpen with
    | false => rfl
    | true =>
      rw [(hr.ends ho).1] at hw
      cases hw

theorem Run.Flow.move (hr : r.Flow notes said) (ha : k.abandoned = false)
    (hl : l ≠ .other (.fault id)) (h : RunMove id l r k r' k' ms ns) :
    r'.Flow (notes ++ ns) (said ++ Event.texts (ms.map Message.outline)) := by
  have silent : said ++ "" = said := String.append_empty
  cases h with
  | inner stage _ _ _ h =>
    exact hr.of_stage nofun silent rfl rfl h.isOpen h.accords
  | announce h | store s n h | push s h =>
    exact hr.of_stage (by simp [Note.isOutput]) silent rfl rfl (by rw [h]; rfl) (fun hx => by rwa [h] at hx)
  | mark s h =>
    refine hr.of_stage nofun silent rfl rfl ?_ fun hx => ?_
    · rw [h]
      split <;> rfl
    · rw [h] at hx
      split <;> exact hx
  | write s s' bytes h =>
    rw [List.map_nil, Event.texts_nil, silent]
    exact hr.write h bytes
  | report s s' t h =>
    rw [List.map_nil, Event.texts_nil, silent]
    exact hr.report h
  | finalize s s' o bytes h =>
    rw [List.map_nil, Event.texts_nil, silent]
    exact hr.finalize h bytes
  | close o h =>
    rw [List.map_nil, Event.texts_nil, silent, List.append_nil]
    have ho : r.stage.isOpen = true := by rw [h]; rfl
    refine ⟨hr.conveys.of_ends false _ nofun, nofun, fun hd => (hr.not_done ho hd).elim, ?_, hr.inOrder⟩
    have := hr.accords
    rwa [h] at this
  | leave o h =>
    exact hr.of_stage nofun silent rfl rfl (by rw [h]; rfl) (fun _ => trivial)
  | expire o h =>
    exact hr.of_stage nofun silent rfl rfl (by rw [h]; rfl) (fun hx => by rwa [h] at hx)
  | look g h =>
    rw [List.map_nil, Event.texts_nil, silent, List.append_nil]
    exact hr.look h g
  | forward t h =>
    have ht : Event.texts [.output t] = t := by simp [Event.texts, Event.text]
    have hc := hr.conveys
    rw [h] at hc
    rw [List.append_nil]
    refine ⟨?_, hr.ends, nofun, hr.accords, hr.inOrder⟩
    simpa [Message.outline, ht, Pump.text] using hc
  | finish h =>
    rw [List.map_nil, Event.texts_nil, silent, List.append_nil]
    obtain ⟨ho, hs⟩ := hr.done (.inl h)
    have hc := hr.conveys
    rw [h] at hc
    refine ⟨hc.of_ends _ false (fun hw => hw), fun ho' => ?_, fun _ => ⟨ho, hs⟩, hr.accords, hr.inOrder⟩
    rw [ho] at ho'
    cases ho'
  | fault => exact absurd rfl hl
  | abort h =>
    rw [ha] at h
    cases h

/-- A worker that has said everything writes no report. -/
theorem RunMove.reports_of_mute (h : RunMove id l r k r' k' ms ns) (he : r.stage.isMute = true) :
    Note.reports ns = [] := by
  cases h with
  | report s s' t h =>
    rw [h] at he
    cases he
  | _ => rfl

/-- A stop that is sent tells how the script ended. -/
theorem RunMove.stopped {o : Outcome} (h : RunMove id l r k r' k' ms ns)
    (ho : .stopped o ∈ ms.map Message.outline) :
    r.stage = .leaving o ∧ r'.stage = .ending ∧ Note.reports ns = [] := by
  cases h with
  | leave o' h =>
    obtain rfl : o = o' := by simpa [Message.outline] using ho
    exact ⟨h, rfl, rfl⟩
  | _ => simp [Message.outline] at ho

namespace View

/-- All that was written is on its way, and a stop tells how the script ended. -/
structure Poured (v : View σ) : Prop where
  flow : v.run.Flow v.notes (Event.texts v.trail)
  stopped : ∀ o, .stopped o ∈ v.trail → o.Settles (Note.reports v.notes) ∧ v.run.stage.isMute = true

theorem poured_fresh {launch : Launch} (gives : launch.Gives r) : (fresh id launch r).Poured := by
  cases gives with
  | works => exact ⟨flow_fresh (.works _ _), nofun⟩
  | fails h p n =>
    rename_i o
    have ht : (fresh id launch (Run.failed p n : Run σ)).trail = [.stopped o] := by
      simp [fresh, View.trail, pending, h, Taking.messages, Message.outline]
    refine ⟨?_, fun o' ho' => ?_⟩
    · rw [ht]
      exact flow_fresh (.fails h p n)
    · rw [ht] at ho'
      obtain rfl : o' = o := by simpa using ho'
      refine ⟨?_, rfl⟩
      cases launch <;> cases h <;> rfl

theorem Poured.run (hv : v.Poured) (ha : v.slot.abandoned = false) (hl : l ≠ .other (.fault id))
    (h : RunMove id l v.run v.slot r' k' ms ns) :
    (⟨r', k', v.hand, v.queued ++ ms, v.notes ++ ns⟩ : View σ).Poured := by
  constructor
  · rw [trail_run v h, Event.texts_append]
    exact hv.flow.move ha hl h
  · intro o ho
    rw [trail_run v h, List.mem_append] at ho
    simp only [Note.reports_append]
    rcases ho with ho | ho
    · obtain ⟨hs, he⟩ := hv.stopped o ho
      rw [h.reports_of_mute he, List.append_nil]
      exact ⟨hs, h.isMute_of he⟩
    · obtain ⟨h1, h2, h3⟩ := h.stopped ho
      have := hv.flow.accords
      rw [h1] at this
      rw [h3, List.append_nil, h2]
      exact ⟨this, rfl⟩

theorem texts_retold {xs ys : List Event} (h : Retold xs ys) :
    Event.texts ys = Event.texts xs ∧ ∀ o, .stopped o ∈ ys → .stopped o ∈ xs := by
  cases h with
  | same => exact ⟨rfl, fun _ h => h⟩
  | line | drop =>
    refine ⟨by simp [Event.texts, Event.text], fun o ho => ?_⟩
    simpa using ho

theorem Poured.step (hv : v.slot.abandoned = false → v.Poured) (hl : l ≠ .other (.fault id))
    (h : Step id last l v v') (ha' : v'.slot.abandoned = false) : v'.Poured := by
  rcases h.retold with ⟨r, k, ms, ns, hm, rfl⟩ | ⟨run, ⟨ha, _⟩ | ⟨_, ha, retold, notes⟩⟩
  · have ha : v.slot.abandoned = false := hm.abandoned_eq ▸ ha'
    exact (hv ha).run ha hl hm
  · rw [ha] at ha'
    cases ha'
  · obtain ⟨ns, noted, quiet⟩ : ∃ ns, v'.notes = v.notes ++ ns ∧ ∀ n ∈ ns, n.isOutput = false := by
      rcases notes with e | ⟨e, he⟩
      · exact ⟨[], by rw [e, List.append_nil], nofun⟩
      · exact ⟨_, he, by simp [Note.isOutput]⟩
    obtain ⟨texts, stops⟩ := texts_retold retold
    refine ⟨?_, fun o ho => ?_⟩
    · rw [run, noted]
      exact (hv ha).flow.of_stage quiet texts rfl rfl rfl fun h => h
    · rw [run, noted, Note.reports_append, (Note.unwritten quiet).2.1, List.append_nil]
      exact (hv ha).stopped o (stops o ho)

end View

namespace Ensemble

variable {I : Interpreter ω σ} {s : Ensemble ω σ} {settings : Settings} {world : ω} {o : Outcome}

theorem Reached.poured {ok : Label ω → Prop} (h : Reached I ok (initial settings world) s)
    (hid : id < s.engine.runs.size) (hok : ∀ l, ok l → l ≠ .other (.fault id))
    (ha : (s.engine.queue.slot id).abandoned = false) : (s.view id).Poured :=
  h.view (P := fun v => v.slot.abandoned = false → v.Poured)
    (fun _ _ gives _ => View.poured_fresh gives)
    (fun hl hv h ha => View.Poured.step hv (hok _ hl) h ha) hid ha

/-- **No output is lost, doubled or changed.** If a run is not disowned, its worker's patience does
not end and no look at its channel fails, then nothing is delivered of it behind its stop, and the
texts delivered before make the text of all bytes that were written: by the script until it has
ended, behind them, if it failed, its error text and a newline, and then by its finalizers. -/
theorem output_whole {ls : List (Label ω)} (h : exec I (initial settings world) ls = some s)
    (smooth : ∀ l ∈ ls, l ≠ .other (.patience id) ∧ l ≠ .other (.fault id))
    (kept : .abandoned id ∉ s.log) (stopped : .delivered id (.stopped o) ∈ s.log) :
    ∃ before, s.heard id = before ++ [.stopped o] ∧
      Event.texts before = Utf8.lossy (Note.writes (s.notes id) ++
        (Note.reports (s.notes id)).flatMap Note.reportBytes ++ Note.finals (s.notes id)) ∧
      o.Settles (Note.reports (s.notes id)) := by
  have h : Reached I (fun l => l ≠ .other (.patience id) ∧ l ≠ .other (.fault id))
    (initial settings world) s := reached_of_exec .start h smooth
  have hid : id < s.engine.runs.size := h.sound.log _ stopped
  have silent := h.kept kept
  have ho : .stopped o ∈ s.heard id :=
    List.mem_filterMap.mpr ⟨_, List.mem_filter.mpr ⟨stopped, by simp⟩, rfl⟩
  obtain ⟨launch, _, told⟩ := h.told true hid fun _ _ hl => hl.1
  have poured := h.poured hid (fun _ hl => hl.2) silent
  have calm := h.calm hid fun _ hl => hl.1
  -- all that was sent is heard
  have trail : (s.view id).trail = s.heard id := by
    have ht := told.trail silent
    rw [View.trail, Position.after_true] at ht
    obtain ⟨p, h1, h2⟩ := Position.read_left ht
    obtain ⟨rfl, _⟩ := Position.read_stopped h1 ho
    rw [View.trail, (Position.read_past h2).1, List.append_nil]
    rfl
  obtain ⟨p, hp⟩ := told.heard
  rw [Position.after_true] at hp
  obtain ⟨_, before, hb⟩ := Position.read_stopped hp ho
  obtain ⟨settles, mute⟩ := poured.stopped o (trail ▸ ho)
  have past : (s.view id).run.pump = .ended := by
    refine calm.past ?_
    have mute : (s.engine.run id).stage.isMute = true := mute
    cases hs : (s.engine.run id).stage <;> rw [hs] at mute <;> first | rfl | cases mute
  have said := (poured.flow.done (.inr past)).2
  refine ⟨before, hb, ?_, settles⟩
  have hb : s.heard id = before ++ [.stopped o] := hb
  have inOrder : Note.written (s.notes id) = _ := poured.flow.inOrder
  rw [trail, hb, Event.texts_append, show (s.view id).notes = s.notes id from rfl, inOrder] at said
  exact (String.append_empty (s := Event.texts before)).symm.trans said

/-- A script fails, and its finalizer writes a letter; all that is sent is taken. -/
def finalizedLast : List (Label (List Signal)) :=
  [.start .works] ++ .replicate 7 (.other (.worker 0)) ++ .replicate 5 (.other (.pump 0 (.upTo 8))) ++
    .replicate 3 (.other (.worker 0)) ++ .replicate 6 .take

/-- The error text of a script that has failed is not always the last of its output: neither behind what
it wrote until it ended, nor behind all that it wrote. -/
theorem output_whole_finalized :
    ¬ ∀ ls s o before, exec replay (initial {} [.ended (some "no"), .write [0x61]]) ls = some s →
      (∀ l ∈ ls, l ≠ .other (.patience 0) ∧ l ≠ .other (.fault 0)) → .abandoned 0 ∉ s.log →
      s.heard 0 = before ++ [.stopped o] →
      ∃ own ∈ [Note.writes (s.notes 0), Note.writes (s.notes 0) ++ Note.finals (s.notes 0)],
        Event.texts before =
          Utf8.lossy (own ++ (Note.reports (s.notes 0)).flatMap Note.reportBytes) := by
  intro claim
  obtain ⟨own, reading, texts⟩ := claim finalizedLast
    ((exec replay (initial {} [.ended (some "no"), .write [0x61]]) finalizedLast).get (by decide +kernel))
    .failed [.started, .output "no\na"] (Option.some_get _).symm
    (by simp [finalizedLast, or_imp, forall_and]) (by decide +kernel) (by decide +kernel)
  revert texts
  rcases List.mem_pair.mp reading with rfl | rfl <;> decide +kernel

/-- The output of a run that failed: what its script wrote, and its error text. -/
theorem output_whole_failingRun :
    (∀ l ∈ failingRun, l ≠ .other (.patience 1) ∧ l ≠ .other (.fault 1)) ∧
      .abandoned 1 ∉ afterFailingRun.log ∧ .delivered 1 (.stopped .failed) ∈ afterFailingRun.log ∧
      ∃ before, afterFailingRun.heard 1 = before ++ [.stopped .failed] ∧ Event.texts before = "éno\n" := by
  have smooth (l) (hl : l ∈ failingRun) := failingRun_smooth l hl 1
  have kept : .abandoned 1 ∉ afterFailingRun.log := by decide +kernel
  have stopped : .delivered 1 (.stopped .failed) ∈ afterFailingRun.log := by decide +kernel
  obtain ⟨before, heard, texts, -⟩ := output_whole exec_failingRun smooth kept stopped
  refine ⟨smooth, kept, stopped, before, heard, texts.trans ?_⟩
  decide +kernel

end Ensemble
end ScriptHost
