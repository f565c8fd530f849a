import ScriptHost.Proofs.Delivery.Lines

/-!
# Lines that are merged

The receiver compares a line with the one it delivered last since the last start.
In the order in which runs are heard that is the last line of the same run
(`Reached.remembered`), so that `View.Coalesced` holds of every run that is not
disowned, and with it `lines_coalesce`.
-/
namespace ScriptHost

/-- The line delivered last since the last start, one event later. -/
def Event.remember : Option UInt32 → Event → Option UInt32
  | _, .started => none
  | _, .currentLine n => some n
  | last, _ => last

/-- The worker is inside the call that publishes a line. -/
def Stage.isPublishing {σ : Type} : Stage σ → Bool
  | .lineStored _ | .lineMarked _ => true
  | _ => false

theorem Event.remember_of_report {es : List Event} (h : ∀ e ∈ es, e.isReport = true)
    (last : Option UInt32) : es.foldl remember last = (lines es).getLast?.or last := by
  induction es generalizing last with
  | nil => rfl
  | cons e es ih =>
    have hes := fun e' he' => h e' (List.mem_cons_of_mem e he')
    have he := h e List.mem_cons_self
    cases e with
    | started | stopped => cases he
    | output t => exact ih hes last
    | currentLine n =>
      have : lines (.currentLine n :: es) = n :: lines es := rfl
      rw [List.foldl_cons, ih hes, this, List.getLast?_cons]
      cases (lines es).getLast? <;> rfl

/-- Outputs make no difference. -/
theorem Event.remember_voices (outputs : Bool) (es : List Event) (last : Option UInt32) :
    (es.filter (voices outputs)).foldl remember last = es.foldl remember last := by
  induction es generalizing last with
  | nil => rfl
  | cons e es ih =>
    by_cases he : e.voices outputs = true
    · rw [List.filter_cons_of_pos he, List.foldl_cons, List.foldl_cons, ih]
    · cases e with
      | output t =>
        rw [List.filter_cons_of_neg he, ih]
        rfl
      | _ => exact absurd rfl he

theorem Event.lines_voices (outputs : Bool) (es : List Event) :
    lines (es.filter (voices outputs)) = lines es := by
  rw [lines, List.filterMap_filter, lines]
  congr 1
  funext e
  cases e with
  | output => split <;> rfl
  | _ => rfl

/-- A line comes behind the start of its run, and only reports come between. -/
theorem Position.begun_of_line {outputs : Bool} {launch : Launch} {es rest : List Event} {n : UInt32}
    {p : Position} (h : after outputs launch (es ++ .currentLine n :: rest) = some p) :
    ∃ reports, es.filter (Event.voices outputs) = .started :: reports ∧
      ∀ e ∈ reports, e.isReport = true := by
  rw [after, List.filter_append] at h
  obtain ⟨p', h1, h2⟩ := read_left h
  rw [List.filter_cons_of_pos (show Event.voices outputs (.currentLine n) = true from rfl)] at h2
  obtain ⟨p'', h3, -⟩ := Option.bind_eq_some_iff.mp h2
  obtain ⟨rfl, -⟩ := next_report rfl h3
  rcases read_start h1 with ⟨-, hp⟩ | ⟨-, -, reports, he, hr⟩ | ⟨hp, -⟩
  · cases launch <;> cases hp
  · exact ⟨reports, he, hr⟩
  · cases hp

namespace Ensemble

variable {ω σ : Type} {I : Interpreter ω σ} {id : Nat} {s : Ensemble ω σ} {ok : Label ω → Prop}
  {settings : Settings} {world : ω}

/-- No line is on its way as an event. -/
theorem Reached.plain (h : Reached I ok (initial settings world) s) :
    ∀ m ∈ s.pending, ∀ r n, m ≠ .event r (.currentLine n) := by
  intro m hm
  have hid : m.run < s.engine.runs.size := pending_lt h.sound m hm
  refine h.view (P := View.Plain) (fun launch r _ => View.plain_fresh _ launch r)
    (fun _ hv hs => hv.step hs) hid m ?_
  rw [view_pending]
  exact List.mem_filter.mpr ⟨hm, by simp⟩

/-- The queue remembers the line delivered last since the last start. -/
theorem Reached.lastLine (h : Reached I ok (initial settings world) s) :
    s.engine.queue.lastLine = (Note.heard s.log).foldl Event.remember none := by
  induction h with
  | start => rfl
  | @step s s' l h hl hs ih =>
    cases step_cases h.sound hs with
    | aside runs queue taking log keeps => rw [queue, log, ih]
    | run id r r' ms ns here runs queue move taking log keeps =>
      rw [queue.lastLine, log, Note.heard_append, move.heard, List.append_nil, ih]
    | silence id call call' current runs queue rest taking log =>
      rw [queue, log, Note.heard_append, Note.heard_abandoned, List.append_nil]
      exact ih
    | launch launch r gives idle runs slots toList lastLine receiving call current taking log =>
      rw [lastLine, log, Note.heard_append, Note.heard_launched, List.append_nil, ih]
    | take ns runs current call receive log =>
      have plain := h.plain
      rw [log, Note.heard_append, List.foldl_append, ← ih]
      rw [pending] at plain
      generalize s.taking = t at receive plain
      generalize s'.taking = t' at receive
      generalize s'.engine.queue = q' at receive
      cases receive with
      | dequeue h => exact (Queue.pop?_some h).2.2.1
      | @deliver r e h =>
        have := plain (.event r e) (List.mem_append_left _ List.mem_cons_self) r
        cases e with
        | currentLine n => exact absurd rfl (this n)
        | _ => rfl
      | _ => rfl

theorem heard_log (ns : List Note) : Note.heard ns = (Note.deliveries ns).map (·.2) := by
  rw [Note.heard, Note.deliveries, List.map_filterMap]
  congr 1
  funext n
  cases n <;> rfl

/-- What is delivered comes run by run, if outputs do not count. -/
theorem Reached.ordered (h : Reached I ok (initial settings world) s) :
    ((Note.deliveries s.log).filter (·.2.voices false)).Pairwise (·.1 ≤ ·.1) :=
  List.pairwise_map.mp (List.pairwise_append.mp (h.sorted false fun hf => by cases hf)).1

/-- While a line is compared, the line remembered is the last one heard of its run. -/
theorem Reached.remembered {n : UInt32} (h : Reached I ok (initial settings world) s)
    (hand : s.taking = .comparing id n) :
    s.engine.queue.lastLine = (Event.lines (s.heard id)).getLast? := by
  have silent : (s.engine.queue.slot id).abandoned = false :=
    h.sound.reads id (.inr (.inr ⟨n, hand⟩))
  have hid : id < s.engine.runs.size := h.sound.taking id (by rw [hand]; rfl)
  -- the run has been heard to start, and to report
  obtain ⟨launch, -, told⟩ := h.told false hid fun hf => by cases hf
  have trail : (s.view id).trail =
      s.heard id ++ .currentLine 0 :: (s.view id).queued.map Message.outline := by
    have hh : (s.view id).hand = .comparing id n := by
      simp [Ensemble.view, hand, Taking.about, Taking.run?]
    simp only [View.trail, View.pending, hh, Taking.messages]
    rfl
  obtain ⟨reports, begun, isReport⟩ := Position.begun_of_line (trail ▸ told.trail silent)
  -- nothing is heard behind it
  have latest : ∀ x ∈ (Note.deliveries s.log).filter (·.2.voices false), x.1 < id + 1 := by
    intro x hx
    have sorted := h.sorted false fun hf => by cases hf
    have taken : .line id ∈ s.pending := by simp [pending, hand, Taking.messages]
    have heard : counts false s.engine.queue (.line id) = true := by
      simp [counts, silent, Message.outline, Event.voices]
    have marker : id ∈ (s.pending.filter (counts false s.engine.queue)).map Message.run :=
      List.mem_map.mpr ⟨.line id, List.mem_filter.mpr ⟨taken, heard⟩, rfl⟩
    have := (List.pairwise_append.mp sorted).2.2 x.1 (List.mem_map.mpr ⟨x, hx, rfl⟩) id marker
    omega
  have own : (((Note.deliveries s.log).filter (·.2.voices false)).filter (·.1 = id)).map (·.2) =
      .started :: reports := by
    rw [← begun, heard, notes, heard_eq, List.filter_map, List.filter_filter, List.filter_filter]
    simp only [Function.comp_def, Bool.and_comm]
  calc s.engine.queue.lastLine
      _ = (Note.heard s.log).foldl Event.remember none := h.lastLine
      _ = (((Note.deliveries s.log).filter (·.2.voices false)).map (·.2)).foldl Event.remember none := by
          rw [← Event.remember_voices false, heard_log, List.filter_map]
          rfl
      _ = (Event.started :: reports).foldl Event.remember
            ((((Note.deliveries s.log).filter (·.2.voices false)).filter (·.1 < id)).map (·.2)
              |>.foldl Event.remember none) := by
          rw [← own, ← List.foldl_append, ← List.map_append, ← split_last h.ordered latest]
      _ = (Event.lines reports).getLast? := by
          rw [List.foldl_cons, Event.remember, Event.remember_of_report isReport, Option.or_none]
      _ = (Event.lines (s.heard id)).getLast? := by
          rw [← Event.lines_voices false (s.heard id), begun]
          rfl

theorem Reached.coalesced (h : Reached I ok (initial settings world) s)
    (hid : id < s.engine.runs.size) (kept : (s.engine.queue.slot id).abandoned = false) :
    (s.view id).Coalesced := by
  refine h.view_of (P := fun v => v.slot.abandoned = false → v.Coalesced)
    (fun _ _ gives _ => View.coalesced_fresh gives) ?_ hid kept
  intro s l v' h hid _ hv hs
  have plain : (s.view id).Plain := fun m hm => h.plain m (List.mem_filter.mp (view_pending s id ▸ hm)).1
  refine View.Coalesced.step hv plain (fun n hand _ => h.remembered (n := n) ?_) hs
  change s.taking.about id = _ at hand
  rw [Taking.about] at hand
  split at hand
  · exact hand
  · cases hand

/-! ## What is delivered -/

theorem count_markers (s : Ensemble ω σ) (id : Nat) :
    s.engine.queue.toList.count (.line id) = (s.view id).queued.countP Message.isMarker := by
  rw [List.count_eq_countP, Ensemble.view, List.countP_filter]
  congr 1
  funext m
  cases m with
  | event r e => rfl
  | line r => by_cases hr : r = id <;> simp [Message.isMarker, hr]

theorem one_marker (hv : (s.view id).Coalesced) : s.engine.queue.toList.count (.line id) ≤ 1 := by
  rw [count_markers]
  have := hv.flag
  rw [View.markers] at this
  split at this <;> omega

/-- At rest the line delivered last is the one published last. -/
theorem last_line (hv : (s.view id).Coalesced) (between : (s.engine.run id).stage.isPublishing = false)
    (empty : .line id ∉ s.engine.queue.toList) (away : s.taking.run? ≠ some id) :
    (Event.lines (s.heard id)).getLast? = (Note.lines (s.notes id)).getLast? := by
  have hand : (s.view id).hand = .resting := if_neg away
  have stored : (s.view id).run.stage.isStored = false ∧ (s.view id).run.stage.markers = 0 := by
    change (s.engine.run id).stage.isStored = false ∧ (s.engine.run id).stage.markers = 0
    cases hs : (s.engine.run id).stage <;> rw [hs] at between <;> first | exact ⟨rfl, rfl⟩ | cases between
  have queued : (s.view id).slot.queued = false := by
    have flag := hv.flag
    have := count_markers s id
    rw [List.count_eq_zero.mpr empty] at this
    rw [View.markers, ← this, hand, stored.2] at flag
    by_contra hq
    rw [if_pos (by simpa using hq)] at flag
    cases flag
  have stale : (s.view id).stale = false := by simp [View.stale, stored.1, queued, hand, Taking.isLoading]
  have := hv.current stale
  rwa [View.lines, hand] at this

/-- The lines between a start and the next one are lines of the run that was started. -/
theorem Reached.own_lines (h : Reached I ok (initial settings world) s)
    {pre mid post : List (Nat × Event)}
    (he : Note.deliveries s.log = pre ++ (id, .started) :: (mid ++ post))
    (hm : ∀ x ∈ mid, x.2 ≠ .started) : ∀ x ∈ mid, x.1 ≠ id → x.2.line? = none := by
  rintro ⟨j, e⟩ hx hj
  cases e with
  | currentLine n =>
    exfalso
    obtain ⟨before, behind, rfl⟩ := List.append_of_mem hx
    have ordered := List.pairwise_filter.mp h.ordered
    rw [he, List.pairwise_append, List.pairwise_cons] at ordered
    obtain ⟨-, ⟨first, -⟩, below⟩ := ordered
    have later : id < j := lt_of_le_of_ne (first (j, .currentLine n) (by simp) rfl rfl) (Ne.symm hj)
    -- the run of this line was heard to start, too
    have hd : (j, .currentLine n) ∈ Note.deliveries s.log := by simp [he]
    obtain ⟨launch, -, told⟩ := h.told false (h.sound.of_delivered hd) fun hf => by cases hf
    obtain ⟨p, hp⟩ := told.heard
    have heard : Note.heard (s.view j).notes =
        ((pre.filter (·.1 = j)).map (·.2) ++ (before.filter (·.1 = j)).map (·.2)) ++ .currentLine n ::
          ((behind ++ post).filter (·.1 = j)).map (·.2) := by
      rw [Ensemble.view, heard_eq, he]
      simp [Nat.ne_of_lt later]
    rw [heard] at hp
    obtain ⟨reports, begun, -⟩ := Position.begun_of_line hp
    have start : Event.started ∈
        (pre.filter (·.1 = j)).map (·.2) ++ (before.filter (·.1 = j)).map (·.2) :=
      (List.mem_filter.mp (begun ▸ List.mem_cons_self)).1
    -- behind the start of the run `id`, and so between
    rcases List.mem_append.mp start with hs | hs
    · obtain ⟨⟨i, e⟩, hy, rfl⟩ := List.mem_map.mp hs
      obtain ⟨hy, hi⟩ : (i, .started) ∈ pre ∧ i = j := by simpa using hy
      have : i ≤ id := below (i, .started) hy (id, .started) List.mem_cons_self rfl rfl
      omega
    · obtain ⟨y, hy, hs⟩ := List.mem_map.mp hs
      exact hm y (List.mem_append_left _ (List.mem_filter.mp hy).1) hs
  | _ => rfl

theorem lines_of_own {xs : List (Nat × Event)} (h : ∀ x ∈ xs, x.1 ≠ id → x.2.line? = none) :
    Event.lines ((xs.filter (·.1 = id)).map (·.2)) = Event.lines (xs.map (·.2)) := by
  induction xs with
  | nil => rfl
  | cons x xs ih =>
    have ih := ih fun y hy => h y (List.mem_cons_of_mem x hy)
    by_cases hx : x.1 = id
    · rw [List.filter_cons_of_pos (by simpa using hx), List.map_cons, List.map_cons]
      simp only [Event.lines, List.filterMap_cons] at ih ⊢
      rw [ih]
    · rw [List.filter_cons_of_neg (by simpa using hx), ih, List.map_cons]
      exact (List.filterMap_cons_none (h x List.mem_cons_self hx)).symm

/-- **Lines are merged, and the last one is not lost.** Of a run that is not disowned there is, after
any calls of the controller and in any order of steps, at most one marker in the queue; the lines
delivered between its start and the next one were published in this order, and no two neighbours
are equal; and when its worker is not publishing, and no marker is in the queue and no message of
the run in hand, then the line delivered last is the one published last. -/
theorem lines_coalesce {ls : List (Label ω)} (h : exec I (initial settings world) ls = some s)
    (kept : .abandoned id ∉ s.log) :
    s.engine.queue.toList.count (.line id) ≤ 1 ∧
      (∀ pre mid post, Note.deliveries s.log = pre ++ (id, .started) :: (mid ++ post) →
        (∀ x ∈ mid, x.2 ≠ .started) →
        (Event.lines (mid.map (·.2))).Sublist (Note.lines (s.notes id)) ∧
          (Event.lines (mid.map (·.2))).IsChain (· ≠ ·)) ∧
      ((s.engine.run id).stage.isPublishing = false → .line id ∉ s.engine.queue.toList →
        s.taking.run? ≠ some id →
        (Event.lines (s.heard id)).getLast? = (Note.lines (s.notes id)).getLast?) := by
  have h : Reached I (fun _ => True) (initial settings world) s :=
    reached_of_exec .start h fun _ _ => trivial
  rcases Nat.lt_or_ge id s.engine.runs.size with hid | hid
  · have hv := h.coalesced hid (h.kept kept)
    have told : Event.lines (s.heard id) <+: (s.view id).lines := (s.view id).begins_lines
    refine ⟨one_marker hv, fun pre mid post he hm => ?_, fun between empty away => ?_⟩
    · have own := lines_of_own (h.own_lines he hm)
      have heard : s.heard id = (pre.filter (·.1 = id)).map (·.2) ++
          .started :: ((mid.filter (·.1 = id)).map (·.2) ++ (post.filter (·.1 = id)).map (·.2)) := by
        rw [Ensemble.heard, notes, heard_eq, he]
        simp
      have inside : Event.lines (mid.map (·.2)) <:+: (s.view id).lines := by
        rw [heard, Event.lines_append, ← List.singleton_append, Event.lines_append,
          Event.lines_append, own] at told
        exact List.IsInfix.trans ⟨_, _, List.append_assoc _ _ _⟩ told.isInfix
      exact ⟨inside.sublist.trans hv.sublist, hv.chain.infix inside⟩
    · exact last_line hv between empty away
  · refine ⟨?_, fun pre mid post he => ?_, fun _ _ _ => ?_⟩
    · have : .line id ∉ s.engine.queue.toList := fun hm =>
        absurd (h.sound.queued _ hm) (Nat.not_lt.mpr hid)
      rw [List.count_eq_zero.mpr this]
      exact Nat.zero_le 1
    · have : (id, Event.started) ∈ Note.deliveries s.log := by simp [he]
      exact absurd (h.sound.of_delivered this) (Nat.not_lt.mpr hid)
    · have : s.notes id = [] := filter_run_lt h.sound.log hid
      rw [heard, this]
      rfl

/-- The lines of a run that was heard as a whole: the last one published is the last one delivered. -/
theorem lines_coalesce_failingRun :
    .abandoned 1 ∉ afterFailingRun.log ∧ afterFailingRun.engine.queue.toList.count (.line 1) ≤ 1 ∧
      (Event.lines (afterFailingRun.heard 1)).getLast? = some 3 := by
  have kept : .abandoned 1 ∉ afterFailingRun.log := by decide +kernel
  obtain ⟨single, -, last⟩ := lines_coalesce exec_failingRun kept
  have published : (Note.lines (afterFailingRun.notes 1)).getLast? = some 3 := by decide +kernel
  exact ⟨kept, single,
    (last (by decide +kernel) (by decide +kernel) (by decide +kernel)).trans published⟩

end Ensemble
end ScriptHost
