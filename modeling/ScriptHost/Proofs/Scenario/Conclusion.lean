import ScriptHost.Proofs.Scenario.Following
import ScriptHost.Proofs.Scenario.Stream

/-!
# The end of an execution

Once the worker of a run has said everything, nobody changes what its notes tell.
When all that was sent is taken, the events heard are those of an execution of the
script of the scenario up to its end.

* `Concluded.kept`: what is told at the end stays so.
* `Recounts`: what reports tell of a script that was executed to its end.
* `Concluded.recounts`: what is heard of a run that was heard as a whole.
-/
namespace ScriptHost

variable {ω σ : Type} {P : Scenario ω} {I : Interpreter ω σ} {id : Nat}

/-- How a script ends that is not stopped. -/
def Outcome.ofFailure (failure : Option String) : Outcome :=
  if failure.isSome then .failed else .finished

/-- What reports tell of a script that has shown `l` up to its end: all that was written, the text of
the error behind it and what finalizers wrote behind that, and the line published last. -/
structure Recounts (l : List Signal) (failure : Option String) (finals : List UInt8)
    (reports : List Event) : Prop where
  report : ∀ e ∈ reports, e.isReport = true
  voiced : ∀ t, .output t ∈ reports → t ≠ ""
  texts : Event.texts reports =
    Utf8.lossy (Signal.writes l ++ failure.toList.flatMap Note.reportBytes ++ finals)
  last : (Event.lines reports).getLast? = (Signal.lines l).getLast?

/-- The start and the stop of a run have no text. -/
theorem Event.texts_between (reports : List Event) (o : Outcome) :
    texts (.started :: (reports ++ [.stopped o])) = texts reports := by
  rw [texts_cons, texts_append, texts_cons]
  simp [Event.text]

/-- The start and the stop of a run are no lines. -/
theorem Event.lines_between (reports : List Event) (o : Outcome) :
    lines (.started :: (reports ++ [.stopped o])) = lines reports := by
  rw [← List.singleton_append, lines_append, lines_append]
  exact List.append_nil _

/-- The outcome that fits what was reported, if the script was not stopped at a line. -/
theorem Outcome.eq_ofFailure {o : Outcome} {failure : Option String} (script : o.ofScript = true)
    (on : o ≠ .cancelled) (settles : o.Settles failure.toList) : o = .ofFailure failure := by
  cases o with
  | finished =>
    cases failure with
    | none => rfl
    | some text => exact absurd settles (List.cons_ne_nil text [])
  | failed =>
    cases failure with
    | none =>
      obtain ⟨t, ht⟩ := settles
      cases ht
    | some text => rfl
  | cancelled => exact absurd rfl on
  | channelFailure | spawnFailure => cases script

/-- A run that has no worker never had one. -/
theorem RunMove.absent_of {l : Label ω} {r r' : Run σ} {k k' : Slot} {ms : List Message}
    {ns : List Note} (h : RunMove id l r k r' k' ms ns) (absent : r'.stage = .absent) :
    r.stage = .absent := by
  cases h with
  | inner stage _ _ _ h =>
    obtain rfl : stage = .absent := absent
    generalize hx : r.stage = x at h
    cases h
    rfl
  | mark =>
    simp only at absent
    split at absent <;> cases absent
  | abort =>
    unfold Run.abortPump at absent
    split at absent <;> exact absent
  | look | forward | finish | fault => exact absent
  | _ => cases absent

open Run in
/-- A worker that has said everything does nothing more of note. -/
theorem Run.mute_step (I : Interpreter ω σ) (id : Nat) {x : Shared ω σ} {ns : List Note}
    (mute : x.run.stage.isMute = true)
    (h : ∀ w, x.run.stage.Follows P I w ns) :
    Ensemble.notesOf I id x.run = [] ∧ (workerStep I id x).run.tripped = x.run.tripped ∧
      (workerStep I id x).run.stage.isMute = true ∧
      ∀ w, (workerStep I id x).run.stage.Follows P I w ns := by
  obtain ⟨r, q, w⟩ := x
  simp only at mute h
  cases hs : r.stage with
  | absent | ending | gone =>
    rw [hs] at h
    simp only [Ensemble.notesOf, workerStep, hs]
    exact ⟨trivial, trivial, rfl, h⟩
  | _ =>
    rw [hs] at mute
    cases mute

namespace Ensemble

variable {s s' u : Ensemble ω σ} {l : Label ω} {ls : List (Label ω)} {settings : Settings} {world : ω}
  {ok ok' : Label ω → Prop} {launch : Launch}

/-! ## Reached states -/

theorem Reached.mono (h : Reached I ok (initial settings world) s) (sub : ∀ l, ok l → ok' l) :
    Reached I ok' (initial settings world) s := by
  induction h with
  | start => exact .start
  | step _ hl hs ih => exact ih.step (sub _ hl) hs

theorem Reached.voiced (h : Reached I ok (initial settings world) s)
    (hid : id < s.engine.runs.size) : (s.view id).Voiced :=
  h.view (fun _ _ gives => View.voiced_fresh gives) (fun _ hv hs => hv.step hs) hid

/-- A run that is kept was kept before. -/
theorem kept_before (h : Reached I ok (initial settings world) s) (hs : s.step I l = some s')
    (kept : (s'.engine.queue.slot id).abandoned = false) :
    (s.engine.queue.slot id).abandoned = false := by
  obtain ⟨ns, adds⟩ := (step_cases h.sound hs).adds h.sound
  by_contra gone
  rw [(adds.abandoned id).mpr (.inl (by simpa using gone))] at kept
  cases kept

/-- A run whose launch works has a worker, even if it has ended. -/
theorem Reached.present (h : Reached I ok (initial settings world) s)
    (hl : .launched id .works ∈ s.log) : (s.engine.run id).stage ≠ .absent := by
  have hid : id < s.engine.runs.size := h.sound.log _ hl
  refine h.view (P := fun v => .launched id .works ∈ v.notes → v.run.stage ≠ .absent) ?_ ?_ hid
    (List.mem_filter.mpr ⟨hl, by simp⟩)
  · intro launch r gives hl
    cases List.mem_singleton.mp hl
    cases gives with
    | works => nofun
    | fails h => cases h
  · intro last l v v' _ present hs
    have own {n : Note} (hn : .launched id .works ∈ v.notes ++ [n])
        (other : n ≠ .launched id .works) : .launched id .works ∈ v.notes :=
      (List.mem_append.mp hn).resolve_right fun h => other (List.mem_singleton.mp h).symm
    cases hs with
    | @run r k ms ns move =>
      intro hl absent
      refine present ((List.mem_append.mp hl).resolve_right fun h => ?_) (move.absent_of absent)
      cases move.work.2 _ h
    | silence | deliver | tell => exact fun hl => present (own hl nofun)
    | _ => exact present

/-! ## Behind the end -/

/-- The worker of a run has said everything, its script was not stopped at a line, and the notes
tell an execution of the scenario up to its end. -/
structure Concluded (P : Scenario ω) (I : Interpreter ω σ) (s : Ensemble ω σ) (id : Nat) : Prop where
  mute : (s.engine.run id).stage.isMute = true
  whole : (s.engine.run id).tripped = false
  follows : ∀ w, (s.engine.run id).stage.Follows P I w (s.notes id)

theorem Concluded.step (h : s.Concluded P I id) (hid : id < s.engine.runs.size)
    (hs : s.step I l = some s') : s'.Concluded P I id := by
  by_cases own : l = .other (.worker id)
  · subst own
    cases hs
    obtain ⟨idle, tripped, mute, follows⟩ :=
      Run.mute_step I id (x := s.shared id) h.mute h.follows
    have run : (s.act I (.worker id)).engine.run id = _ := congrArg Run.Shared.run (act_shared hid)
    have noted : (s.act I (.worker id)).notes id = s.notes id := by
      have here : s.engine.runs[id]? = some (s.engine.run id) := by simp [Engine.run, hid]
      have idle : notesOf I id (s.engine.run id) = [] := idle
      simp [notes, act, here, idle]
    exact ⟨by rw [run]; exact mute, by rw [run]; exact tripped.trans h.whole,
      fun w => by rw [run, noted]; exact follows w⟩
  · have meddles := (step_shared hid hs).resolve_left fun h => own h.1
    obtain ⟨ns, noted, idle⟩ := notes_of_other hs own
    refine ⟨?_, meddles.tripped.trans h.whole, fun w => ?_⟩
    · rcases meddles.stage with same | ⟨o, draining, -⟩
      · rw [same]
        exact h.mute
      · have mute := h.mute
        rw [draining] at mute
        cases mute
    · rw [noted]
      exact ((h.follows w).meddle meddles).of_idle idle

/-- A run that is at its end, and of which no stop was requested. -/
theorem Passes.concluded {s₀ : Ensemble ω σ} (h : Passes P I id s₀ ls s)
    (reached : Reached I ok (initial settings world) s₀) (new : s₀.engine.runs.size ≤ id)
    (hok : ∀ l ∈ ls, ok l) (smooth : ∀ l, ok l → l ≠ .other (.fault id))
    (hid : id < s.engine.runs.size) (unasked : s.Unasked P id)
    (mute : (s.engine.run id).stage.isMute = true) : s.Concluded P I id := by
  have follows := (h.follows reached new hok smooth).2 hid unasked
  have steady := (reached_of_exec reached h.exec hok).steady hid
  refine ⟨mute, ?_, fun w => ?_⟩
  · have := steady.tripped
    rw [unasked.token] at this
    simpa using this
  · generalize (s.engine.run id).stage = x at follows mute
    cases x with
    | absent | ending | gone => exact follows
    | _ => cases mute

/-- What is told of a run at its end stays so. -/
theorem Concluded.kept (h : s.Concluded P I id) (reached : Reached I ok (initial settings world) s)
    (hid : id < s.engine.runs.size) (hu : exec I s ls = some u) : u.Concluded P I id := by
  refine (exec_induction (P := fun _ u => id < u.engine.runs.size ∧ u.Concluded P I id) ⟨hid, h⟩
    (fun {ls s₁ l s₂} h₁ ih hs => ?_) hu).2
  have reached : Reached I (fun _ => True) (initial settings world) s₁ :=
    (reached.mono fun _ _ => trivial).of_exec h₁
  have le := (reached.ruled.conduct hs).size_le reached.sound
  exact ⟨Nat.lt_of_lt_of_le ih.1 le, ih.2.step ih.1 hs⟩

/-- The receiver is not busy with a run of which everything was taken. -/
theorem untouched (taken : ∀ m ∈ s.pending, m.run ≠ id) : s.taking.run? ≠ some id := by
  unfold pending at taken
  cases hs : s.taking with
  | resting => nofun
  | testing m | clearing run | loading run | comparing run n =>
    rw [hs] at taken
    simpa [Taking.run?, Message.run] using taken _ (List.mem_append_left _ List.mem_cons_self)

/-- Where all that was sent is taken, it was heard. -/
theorem trail_of_taken (taken : ∀ m ∈ s.pending, m.run ≠ id) : (s.view id).trail = s.heard id := by
  have none : (s.view id).pending = [] := by
    rw [view_pending]
    exact List.filter_eq_nil_iff.mpr fun m hm => by simpa using taken m hm
  rw [View.trail, none, List.map_nil, List.append_nil]
  rfl

/-- Behind its stop the worker is past all that it sends. -/
theorem Concluded.past (h : s.Concluded P I id) :
    (s.engine.run id).stage.position = .past ∧ (s.engine.run id).stage.isPast = true ∧
      (s.engine.run id).stage.isPublishing = false := by
  have mute := h.mute
  cases hs : (s.engine.run id).stage <;> rw [hs] at mute <;> first | exact ⟨rfl, rfl, rfl⟩ | cases mute

/-- A worker that was launched has executed to its end. -/
theorem Concluded.executes (h : s.Concluded P I id) (reached : Reached I ok (initial settings world) s)
    (launched : .launched id .works ∈ s.log) :
    ∃ l failure finals, P.Ends I l failure finals ∧
      Note.Tells (s.notes id) l failure.toList finals := by
  have mute := h.mute
  have present := reached.present launched
  have follows := h.follows world
  cases hs : (s.engine.run id).stage <;> rw [hs] at mute present follows <;>
    first | exact follows | exact absurd rfl present | cases mute

/-- **What is heard of a run that executes its script.** If a run that no stop was requested of is
at its end, its worker's patience did not end, no look at its channel failed, and all that it sent
was taken, then its launch was refused and its stop was heard, or an execution of its script up to
the end is told by what was heard between its start and the stop that fits the end. -/
theorem Concluded.recounts (h : s.Concluded P I id) (reached : Reached I ok (initial settings world) s)
    (smooth : ∀ l, ok l → l ≠ .other (.patience id) ∧ l ≠ .other (.fault id))
    (launched : .launched id launch ∈ s.log) (kept : .abandoned id ∉ s.log)
    (taken : ∀ m ∈ s.pending, m.run ≠ id) :
    (∃ o, launch.refusal? = some o ∧ s.heard id = [.stopped o]) ∨
      launch = .works ∧ ∃ l failure finals reports, P.Ends I l failure finals ∧
        Recounts l failure finals reports ∧
        s.heard id = .started :: (reports ++ [.stopped (.ofFailure failure)]) := by
  have hid : id < s.engine.runs.size := reached.sound.log _ launched
  have silent := reached.kept kept
  obtain ⟨launch', hl', told⟩ := reached.told true hid fun _ l hl => (smooth l hl).1
  obtain rfl : launch' = launch := Option.some.inj (hl'.symm.trans (reached.launches.2 id launch launched))
  have poured := reached.poured hid (fun l hl => (smooth l hl).2) silent
  have calm := reached.calm hid fun l hl => (smooth l hl).1
  have trail := trail_of_taken taken
  obtain ⟨position, past, between⟩ := h.past
  have segment : Segment launch' (s.heard id) := by
    have ht := told.trail silent
    rw [trail, show (s.view id).run = s.engine.run id from rfl, position, Position.after_true] at ht
    exact Position.segment_of_read ht
  generalize heard : s.heard id = es at segment
  cases segment with
  | @refused _ o ho => exact .inl ⟨o, ho, rfl⟩
  | @ran reports o report script =>
    have stopped : .stopped o ∈ (s.view id).trail := by
      rw [trail, heard]
      simp
    obtain ⟨l, failure, finals, ends, tells⟩ := h.executes reached launched
    have settles := (poured.stopped o stopped).1
    have on : o ≠ .cancelled := by
      have := (reached.announced hid stopped).2
      rw [h.whole] at this
      simpa using this
    obtain rfl : o = .ofFailure failure :=
      Outcome.eq_ofFailure script on (tells.reports ▸ settles)
    have texts : Event.texts reports =
        Utf8.lossy (Signal.writes l ++ failure.toList.flatMap Note.reportBytes ++ finals) := by
      have said := (poured.flow.done (.inr (calm.past past))).2
      have written : Note.written (s.view id).notes =
          Signal.writes l ++ failure.toList.flatMap Note.reportBytes ++ finals := by
        rw [poured.flow.inOrder, show (s.view id).notes = s.notes id from rfl, tells.writes,
          tells.reports, tells.finals]
      rwa [trail, heard, written, Event.texts_between] at said
    have last : (Event.lines reports).getLast? = (Signal.lines l).getLast? := by
      have own := last_line (reached.coalesced hid silent) between
        (fun hm => taken _ (List.mem_append_right _ hm) rfl) (untouched taken)
      rwa [heard, Event.lines_between, tells.lines] at own
    refine .inr ⟨rfl, l, failure, finals, reports, ends, ⟨report, fun t ht => ?_, texts, last⟩, rfl⟩
    refine (reached.voiced hid).trail t ?_
    rw [trail, heard]
    simp [ht]

end Ensemble
end ScriptHost
