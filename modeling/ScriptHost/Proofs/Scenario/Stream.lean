import ScriptHost.Proofs.Channel.RoundTrip
import ScriptHost.Proofs.Delivery.Coalescing
import ScriptHost.Proofs.Delivery.Leftover

/-!
# Lines before outputs

Events that are taken behind the end of a run tell one line at most, and a script
that shows a line before it writes has its line told before its output. Then the
lines, the output and the outcome make up the whole stream, once neighbouring
outputs are merged.

* `Event.merge_reports`: what a stream of lines and then outputs is merged to.
* `View.Voiced`: no output is empty.
* `View.Early`: as long as nothing is taken, at most one marker is sent, and no
  output before it.
-/
namespace ScriptHost

namespace Event

/-! ## Merging -/

/-- A text as one output; there is none of an empty text. -/
def spoken (text : String) : List Event := if text = "" then [] else [.output text]

/-- No line stands behind an output. -/
def LinesLead (es : List Event) : Prop :=
  es.Pairwise fun a b => b.line? = none ∨ a.voices false = true

theorem texts_cons (e : Event) (es : List Event) : texts (e :: es) = e.text ++ texts es := by
  simp [texts]

theorem text_of_texts {es : List Event} (h : texts es = "") : ∀ e ∈ es, e.text = "" := by
  induction es with
  | nil => nofun
  | cons e es ih =>
    rw [texts_cons, String.append_eq_empty_iff] at h
    intro x hx
    rcases List.mem_cons.mp hx with rfl | hx
    · exact h.1
    · exact ih h.2 x hx

theorem merge_cons {e : Event} (h : e.voices false = true) (es : List Event) :
    merge (e :: es) = e :: merge es := by
  cases e with
  | output t => cases h
  | _ => rfl

theorem merge_output (t : String) (es : List Event) (text : String) (o : Outcome)
    (h : merge es = spoken text ++ [.stopped o]) (ht : t ≠ "") :
    merge (.output t :: es) = spoken (t ++ text) ++ [.stopped o] := by
  have whole : t ++ text ≠ "" := fun he => ht (String.append_eq_empty_iff.mp he).1
  by_cases none : text = ""
  · subst none
    rw [merge, h]
    simp [spoken, ht]
  · rw [merge, h]
    simp [spoken, whole, none]

/-- Lines, then outputs, then the stop. -/
theorem merge_reports {reports : List Event} (report : ∀ e ∈ reports, e.isReport = true)
    (voiced : ∀ t, .output t ∈ reports → t ≠ "") (lead : LinesLead reports) (o : Outcome) :
    merge (reports ++ [.stopped o]) =
      (lines reports).map .currentLine ++ (spoken (texts reports) ++ [.stopped o]) := by
  induction reports with
  | nil => rfl
  | cons e rest ih =>
    have report' := fun x hx => report x (List.mem_cons_of_mem e hx)
    have voiced' := fun t ht => voiced t (List.mem_cons_of_mem e ht)
    obtain ⟨first, lead⟩ := List.pairwise_cons.mp lead
    have ih := ih report' voiced' lead
    cases e with
    | started | stopped => exact absurd (report _ List.mem_cons_self) Bool.false_ne_true
    | currentLine n =>
      have none : texts (.currentLine n :: rest) = texts rest := by
        rw [texts_cons]
        exact String.empty_append
      rw [List.cons_append, merge_cons rfl, ih, none]
      rfl
    | output t =>
      -- no line comes behind it
      have none : lines rest = [] := List.filterMap_eq_nil_iff.mpr fun e he => by
        simpa [voices] using first e he
      rw [none, List.map_nil, List.nil_append] at ih
      have none' : lines (.output t :: rest) = [] := none
      rw [List.cons_append, none', texts_cons]
      exact merge_output t _ _ o ih (voiced t List.mem_cons_self)

/-- The stream without its lines is merged to the output and the stop. -/
theorem merge_unlined {reports : List Event} (report : ∀ e ∈ reports, e.isReport = true)
    (voiced : ∀ t, .output t ∈ reports → t ≠ "") (o : Outcome) :
    merge ((reports ++ [Event.stopped o]).filter (·.line? = none)) =
      spoken (texts reports) ++ [.stopped o] := by
  have unlined : ∀ e ∈ reports.filter (·.line? = none), e.line? = none := fun e he => by
    simpa using (List.mem_filter.mp he).2
  have lines : lines (reports.filter (·.line? = none)) = [] := List.filterMap_eq_nil_iff.mpr unlined
  have texts : texts (reports.filter (·.line? = none)) = texts reports := by
    clear report voiced unlined lines
    induction reports with
    | nil => rfl
    | cons e rest ih =>
      cases e with
      | currentLine n =>
        rw [List.filter_cons_of_neg (by simp [line?]), ih, texts_cons]
        exact String.empty_append.symm
      | _ => rw [List.filter_cons_of_pos rfl, texts_cons, texts_cons, ih]
  have lead : LinesLead (reports.filter (·.line? = none)) :=
    List.pairwise_of_forall_mem_list fun _ _ b hb => .inl (unlined b hb)
  have merged := merge_reports (fun e he => report e (List.mem_filter.mp he).1)
    (fun t ht => voiced t (List.mem_filter.mp ht).1) lead o
  rw [lines, texts] at merged
  rw [List.filter_append]
  exact merged

/-! ## One line, before the output -/

/-- At most one line is told, and none behind an output if `leads` says so. -/
structure Tidy (leads : Prop) (es : List Event) : Prop where
  single : (lines es).length ≤ 1
  lead : leads → LinesLead es

namespace Tidy

variable {leads : Prop} {xs ys : List Event}

theorem nil (leads : Prop) : Tidy leads [] := ⟨Nat.zero_le 1, fun _ => .nil⟩

/-- Events that are no lines may come behind. -/
theorem append (h : Tidy leads xs) (unlined : ∀ e ∈ ys, e.line? = none) : Tidy leads (xs ++ ys) := by
  have none : lines ys = [] := List.filterMap_eq_nil_iff.mpr unlined
  refine ⟨by simpa [none] using h.single, fun hl => List.pairwise_append.mpr ⟨h.lead hl, ?_, ?_⟩⟩
  · exact List.pairwise_of_forall_mem_list fun _ _ b hb => .inl (unlined b hb)
  · exact fun _ _ b hb => .inl (unlined b hb)

/-- The first line may come behind events that are no outputs. -/
theorem line (n : UInt32) (none : lines xs = []) (h : leads → ∀ e ∈ xs, e.voices false = true) :
    Tidy leads (xs ++ [.currentLine n]) := by
  refine ⟨by rw [lines_append, none]; exact Nat.le_refl 1,
    fun hl => List.pairwise_append.mpr ⟨?_, ?_, ?_⟩⟩
  · exact List.pairwise_of_forall_mem_list fun a ha _ _ => .inr (h hl a ha)
  · exact List.pairwise_singleton _ _
  · exact fun a ha _ _ => .inr (h hl a ha)

/-- What the receiver makes of a trail tells no more lines, and none at another place. -/
theorem retold (h : Tidy leads xs) (told : View.Retold xs ys) : Tidy leads ys := by
  cases told with
  | same => exact h
  | line as bs n =>
    refine ⟨?_, fun hl => ?_⟩
    · simpa [lines, line?] using h.single
    · have lead := h.lead hl
      simpa [LinesLead, List.pairwise_append, List.pairwise_cons, line?, voices] using lead
  | drop as bs =>
    refine ⟨?_, fun hl => (h.lead hl).sublist ?_⟩
    · have single := h.single
      simp only [lines_append, List.length_append] at single ⊢
      have : (lines (.currentLine 0 :: bs)).length = (lines bs).length + 1 := rfl
      omega
    · exact (List.Sublist.refl as).append (List.sublist_cons_self _ _)

end Tidy
end Event

variable {ω σ : Type} {id : Nat} {last : Option UInt32} {l : Label ω} {v v' : View σ}
  {r r' : Run σ} {k k' : Slot} {ms : List Message} {ns : List Note} {leads : Prop}

/-! ## Outputs -/

/-- A step of the run's own sends outputs only of what the pump has read. -/
theorem RunMove.sends_output {t : String} (h : RunMove id l r k r' k' ms ns)
    (ht : .output t ∈ ms.map Message.outline) : r.pump = .sending t := by
  cases h with
  | forward t' h =>
    obtain rfl : t = t' := by simpa [Message.outline] using ht
    exact h
  | _ => simp [Message.outline] at ht

/-- The pump has a text only from a look, and such a text is not empty. -/
theorem RunMove.pump_sending {t : String} (h : RunMove id l r k r' k' ms ns)
    (ht : r'.pump = .sending t) : r.pump = .sending t ∨ t ≠ "" := by
  cases h with
  | look g h =>
    refine .inr ((Channel.look_brings r.channel g).text t ?_)
    cases hx : (r.channel.look g).1 <;> simp_all [Pump.after]
  | forward | finish | fault => cases ht
  | abort =>
    unfold Run.abortPump at ht
    split at ht
    · exact .inl ht
    · cases ht
  | _ => exact .inl ht

/-- Only a script that is executed writes. -/
theorem RunMove.executing_of_writes (h : RunMove id l r k r' k' ms ns) (hw : Note.writes ns ≠ []) :
    ∃ s, r.stage = .executing s := by
  cases h with
  | write s s' bytes h => exact ⟨s, h⟩
  | _ => exact absurd rfl hw

/-- Where nothing was written, nothing is said. -/
theorem Run.Flow.unsaid {notes : List Note} {said : String} (hr : r.Flow notes said)
    (h : Note.written notes = []) : said = "" := by
  obtain ⟨taken, split, made⟩ := hr.conveys.split
  rw [h] at split
  obtain rfl : taken = [] := by
    have := split.symm
    simp only [List.append_eq_nil_iff] at this
    exact this.1.1
  have none : said ++ r.pump.text = "" := by
    rcases made with ⟨text, _⟩ | ⟨_, text, _⟩ <;> exact text
  exact (String.append_eq_empty_iff.mp none).1

namespace View

/-- No output of the run is empty. -/
structure Voiced (v : View σ) : Prop where
  trail : ∀ t, .output t ∈ v.trail → t ≠ ""
  pump : ∀ t, v.run.pump = .sending t → t ≠ ""

theorem voiced_fresh {launch : Launch} (gives : launch.Gives r) : (fresh id launch r).Voiced := by
  refine ⟨fun t ht => ?_, fun t ht => by cases gives <;> cases ht⟩
  simp [View.trail, pending, fresh, Taking.messages, Message.outline] at ht

/-- An output that is told was told before, or is what the pump has sent now. -/
theorem Step.output_mem {t : String} (h : Step id last l v v') (ht : .output t ∈ v'.trail) :
    .output t ∈ v.trail ∨ v.run.pump = .sending t := by
  rcases h.retold with ⟨r, k, ms, ns, move, rfl⟩ | ⟨_, ⟨_, heard⟩ | ⟨_, _, retold, _⟩⟩
  · rw [trail_run v move, List.mem_append] at ht
    exact ht.imp_right move.sends_output
  · rw [View.trail, heard, List.mem_append] at ht
    rcases ht with ht | ht
    · exact .inl (List.mem_append_left _ ht)
    · obtain ⟨m, hm, he⟩ := List.mem_map.mp ht
      rcases h.pending_mem hm with before | ⟨_, _, _, _, move, sent⟩
      · exact .inl (List.mem_append_right _ (he ▸ List.mem_map_of_mem before))
      · exact .inr (move.sends_output (he ▸ List.mem_map_of_mem sent))
  · refine .inl ?_
    generalize v.trail = xs at retold
    generalize v'.trail = ys at retold ht
    cases retold with
    | same => exact ht
    | line | drop => simpa using ht

/-- What the pump has read it has read before, or it is not empty. -/
theorem Step.pump_sending {t : String} (h : Step id last l v v') (ht : v'.run.pump = .sending t) :
    v.run.pump = .sending t ∨ t ≠ "" := by
  rcases h.retold with ⟨r, k, ms, ns, move, rfl⟩ | ⟨run, _⟩
  · exact move.pump_sending ht
  · exact .inl (run ▸ ht)

theorem Voiced.step (hv : v.Voiced) (h : Step id last l v v') : v'.Voiced where
  trail t ht := (h.output_mem ht).elim (hv.trail t) (hv.pump t)
  pump t ht := (h.pump_sending ht).elim (hv.pump t) fun full => full

/-- Where nothing is said, there is no output. -/
theorem Voiced.mute_of_unsaid (hv : v.Voiced) (unsaid : Event.texts v.trail = "") :
    ∀ e ∈ v.trail, e.voices false = true := by
  intro e he
  cases e with
  | output t => exact absurd (Event.text_of_texts unsaid _ he) (hv.trail t he)
  | _ => rfl

/-! ## Before anything is taken -/

/-- Nothing of the run was taken. One marker at most was sent, and if `leads` says that its script
shows a line before it writes, the marker is there once something was written, and no output comes
before it. -/
structure Early (leads : Prop) (v : View σ) : Prop where
  hand : v.hand = .resting
  heard : Note.heard v.notes = []
  marked : leads → Note.writes v.notes ≠ [] → 0 < v.queued.countP Message.isMarker
  tidy : Event.Tidy leads v.trail

theorem early_fresh {launch : Launch} : (fresh id launch r).Early leads := by
  refine ⟨rfl, rfl, fun _ hw => absurd rfl hw, ?_⟩
  have unlined : ∀ e ∈ (fresh id launch r).trail, e.line? = none := by
    intro e he
    obtain ⟨o, _, rfl⟩ : ∃ o, launch.refusal? = some o ∧ Event.stopped o = e := by
      simpa [View.trail, pending, fresh, Taking.messages, Message.outline] using he
    rfl
  have := (Event.Tidy.nil leads).append unlined
  rwa [List.nil_append] at this

/-- As long as nothing is taken, the trail is what was sent. -/
theorem Early.trail_eq (hv : v.Early leads) : v.trail = v.queued.map Message.outline := by
  rw [View.trail, hv.heard, pending, hv.hand, Taking.messages, List.nil_append, List.nil_append]

/-- A line that was published has its marker in the queue, or is being published. -/
theorem Early.sent (hv : v.Early leads) (coalesced : v.Coalesced)
    (published : Note.lines v.notes ≠ []) (stored : v.run.stage.isStored = false)
    (away : v.run.stage.markers = 0) : 0 < v.queued.countP Message.isMarker := by
  -- otherwise the last line would have been told
  have queued : v.slot.queued = true := by
    by_contra hq
    have fresh : v.stale = false := by
      simp [stale, stored, Bool.not_eq_true _ ▸ hq, hv.hand, Taking.isLoading]
    have told := coalesced.current fresh
    have none : v.lines = [] := by simp [View.lines, hv.hand, hv.heard, Event.lines]
    rw [none, List.getLast?_nil] at told
    exact published (List.getLast?_eq_none_iff.mp told.symm)
  have flag := coalesced.flag
  rw [markers, hv.hand, away, if_pos queued] at flag
  simp only [Taking.markers] at flag
  omega

/-- Where no marker was sent, no line is told. -/
theorem lines_outline {ms : List Message} (plain : ∀ m ∈ ms, ∀ r n, m ≠ .event r (.currentLine n))
    (none : ms.countP Message.isMarker = 0) : ∀ e ∈ ms.map Message.outline, e.line? = Option.none := by
  intro e he
  obtain ⟨m, hm, rfl⟩ := List.mem_map.mp he
  have unmarked := List.countP_eq_zero.mp none m hm
  cases m with
  | line r => exact absurd rfl unmarked
  | event r e =>
    cases e with
    | currentLine n => exact absurd rfl (plain _ hm r n)
    | _ => rfl

theorem Early.run (hv : v.Early leads) (coalesced : v.Coalesced) (voiced : v.Voiced)
    (flow : v.run.Flow v.notes (Event.texts v.trail)) (plain : v.Plain)
    (first : leads → Note.writes (v.notes ++ ns) ≠ [] → Note.lines (v.notes ++ ns) ≠ [])
    (h : RunMove id l v.run v.slot r' k' ms ns) :
    (⟨r', k', v.hand, v.queued ++ ms, v.notes ++ ns⟩ : View σ).Early leads := by
  have heard : Note.heard (v.notes ++ ns) = [] := by simp [hv.heard, h.heard]
  -- the marker stays in the queue
  have kept (hl : leads) (hw : Note.writes v.notes ≠ []) :
      0 < (v.queued ++ ms).countP Message.isMarker := by
    have := hv.marked hl hw
    rw [List.countP_append]
    omega
  rcases h.line_cases with quiet | ⟨s, n, stage, _, _, rfl, rfl⟩ | ⟨s, stage, _, _, rfl, rfl⟩ |
    ⟨s, stage, _, _, rfl, rfl⟩
  · refine ⟨hv.hand, heard, fun hl hw => ?_, ?_⟩
    · by_cases before : Note.writes v.notes = []
      · -- the script writes for the first time
        have now : Note.writes ns ≠ [] := by simpa [before] using hw
        obtain ⟨s, stage⟩ := h.executing_of_writes now
        have published : Note.lines v.notes ≠ [] := by simpa [quiet.published] using first hl hw
        have := hv.sent coalesced published (by rw [stage]; rfl) (by rw [stage]; rfl)
        rw [List.countP_append]
        omega
      · exact kept hl before
    · rw [trail_run v h]
      refine hv.tidy.append (lines_outline h.plain (List.countP_eq_zero.mpr fun m hm => ?_))
      simp [quiet.sent m hm]
  · refine ⟨hv.hand, heard, fun hl hw => kept hl (by simpa [Note.writes] using hw), ?_⟩
    rw [trail_run v h, List.map_nil, List.append_nil]
    exact hv.tidy
  · refine ⟨hv.hand, heard, fun hl hw => kept hl (by simpa using hw), ?_⟩
    rw [trail_run v h, List.map_nil, List.append_nil]
    exact hv.tidy
  · -- no marker was sent before, and so nothing was written
    have unmarked : v.queued.countP Message.isMarker = 0 := by
      have flag := coalesced.flag
      rw [markers, hv.hand, stage] at flag
      simp only [Taking.markers, Stage.markers] at flag
      split at flag <;> omega
    refine ⟨hv.hand, heard, fun hl hw => kept hl (by simpa using hw), ?_⟩
    rw [trail_run v h]
    refine Event.Tidy.line 0 ?_ fun hl => ?_
    · rw [hv.trail_eq]
      refine List.filterMap_eq_nil_iff.mpr (lines_outline (fun m hm => plain m ?_) unmarked)
      exact List.mem_append_right _ hm
    · have unwritten : Note.written v.notes = [] := by
        have writes : Note.writes v.notes = [] := by
          by_contra hw
          have := hv.marked hl hw
          omega
        obtain ⟨reports, finals⟩ : Note.reports v.notes = [] ∧ Note.finals v.notes = [] := by
          have := flow.accords
          rwa [stage] at this
        rw [flow.inOrder, writes, reports, finals]
        rfl
      exact voiced.mute_of_unsaid (flow.unsaid unwritten)

/-- A step with which nothing is taken. -/
theorem Early.step (hv : v.Early leads) (coalesced : v.Coalesced) (voiced : v.Voiced)
    (flow : v.run.Flow v.notes (Event.texts v.trail)) (plain : v.Plain)
    (first : leads → Note.writes v'.notes ≠ [] → Note.lines v'.notes ≠ [])
    (h : Step id last l v v') (hand : v'.hand = v.hand) (kept : v'.slot.abandoned = false) :
    v'.Early leads := by
  cases h with
  | run h => exact hv.run coalesced voiced flow plain first h
  | silence => cases kept
  | dequeue h =>
    rw [h] at hand
    cases hand
  | drop h | deliver h | turn h | clear h | load h | same h | tell h =>
    rw [hv.hand] at h
    cases h

/-- A worker that has said everything sends no line any more, and what is taken stays in order. -/
theorem Step.tidy (tidy : Event.Tidy leads v.trail) (mute : v.run.stage.isMute = true)
    (h : Step id last l v v') (kept : v'.slot.abandoned = false) :
    Event.Tidy leads v'.trail ∧ v'.run.stage.isMute = true := by
  rcases h.retold with ⟨r, k, ms, ns, move, rfl⟩ | ⟨run, ⟨gone, _⟩ | ⟨_, _, retold, _⟩⟩
  · refine ⟨?_, move.isMute_of mute⟩
    rw [trail_run v move]
    refine tidy.append fun e he => ?_
    obtain ⟨m, hm, rfl⟩ := List.mem_map.mp he
    have only := move.outputs_only mute m hm
    cases hx : m.outline <;> rw [hx] at only <;> first | rfl | cases only
  · rw [gone] at kept
    cases kept
  · exact ⟨tidy.retold retold, run ▸ mute⟩

end View
end ScriptHost
