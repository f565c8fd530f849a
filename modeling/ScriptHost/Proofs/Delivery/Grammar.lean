import ScriptHost.Proofs.Delivery.Order

/-!
# The stream of events

What the receiver delivers is a concatenation of segments, one for each launch:
`stream_grammar`.
-/
namespace ScriptHost

/-- The launch, if a note tells of one. -/
def Note.launch? : Note → Option Launch
  | .launched _ l => some l
  | _ => none

/-- The launches, in the order in which they came. -/
def Note.launches (ns : List Note) : List Launch := ns.filterMap Note.launch?

@[simp] theorem Note.launches_append (xs ys : List Note) :
    Note.launches (xs ++ ys) = Note.launches xs ++ Note.launches ys := List.filterMap_append

/-- Something a worker does by itself. -/
def Note.isWork : Note → Bool
  | .published _ _ | .wrote _ _ | .reported _ _ | .finalized _ _ => true
  | _ => false

theorem RunMove.work {ω σ : Type} {id : Nat} {l : Label ω} {r r' : Run σ} {k k' : Slot}
    {ms : List Message} {ns : List Note} (h : RunMove id l r k r' k' ms ns) :
    ns.length ≤ 1 ∧ ∀ n ∈ ns, n.isWork = true := by
  cases h <;> simp [Note.isWork]

namespace Ensemble

variable {ω σ : Type} {I : Interpreter ω σ} {id : Nat} {l : Label ω} {s s' u : Ensemble ω σ}
  {ls : List (Label ω)} {ok : Label ω → Prop} {settings : Settings} {world : ω}

/-- The notes of a run. -/
def notes (s : Ensemble ω σ) (id : Nat) : List Note := s.log.filter (·.run = id)

/-- The events delivered of a run. -/
def heard (s : Ensemble ω σ) (id : Nat) : List Event := Note.heard (s.notes id)

/-- The worker of a run has ended, and all it sent was taken. -/
def IsDone (s : Ensemble ω σ) (id : Nat) : Prop :=
  s.engine.isAlive id = false ∧ ∀ m ∈ s.pending, m.run ≠ id

/-! ## The log -/

/-- What a step adds to the log: at most one note, and what it says about launches, deliveries and
disowned runs is so. -/
structure Adds (s s' : Ensemble ω σ) (ns : List Note) : Prop where
  log : s'.log = s.log ++ ns
  single : ns.length ≤ 1
  delivered : ∀ id e, .delivered id e ∈ ns → (s.engine.queue.slot id).abandoned = false
  abandoned : ∀ id, (s'.engine.queue.slot id).abandoned = true ↔
    (s.engine.queue.slot id).abandoned = true ∨ .abandoned id ∈ ns
  launched : (s'.engine.runs.size = s.engine.runs.size ∧ Note.launches ns = []) ∨
    ∃ launch, s'.engine.runs.size = s.engine.runs.size + 1 ∧
      ns = [.launched s.engine.runs.size launch]

theorem adds_take {ns : List Note} (runs : s'.engine.runs = s.engine.runs)
    (receive : Reception s.engine.queue s.taking s'.engine.queue s'.taking ns)
    (reads : ∀ r, s.taking.reads r → (s.engine.queue.slot r).abandoned = false)
    (log : s'.log = s.log ++ ns) : s.Adds s' ns := by
  have same := receive.abandoned
  refine ⟨log, ?_, ?_, ?_, .inl ⟨by rw [runs], ?_⟩⟩
  all_goals
    generalize s.taking = t at receive reads
    generalize s'.taking = t' at receive
    generalize s'.engine.queue = q' at receive same
  · cases receive <;> simp
  · intro id e he
    cases receive with
    | deliver h =>
      cases List.mem_singleton.mp he
      exact h
    | @tell r n h =>
      cases List.mem_singleton.mp he
      exact reads _ (.inr (.inr ⟨n, rfl⟩))
    | _ => cases he
  · intro id
    rw [same]
    cases receive <;> simp
  · cases receive <;> rfl

theorem Step.adds (hs : s.Sound) (h : s.Step s' l) : ∃ ns, s.Adds s' ns := by
  cases h with
  | aside runs queue taking log keeps =>
    exact ⟨[], by simp [log], by simp, by simp, by simp [queue], .inl ⟨by rw [runs], rfl⟩⟩
  | run id r r' ms ns here runs queue move taking log keeps =>
    have same := alive_of_move here runs queue move
    refine ⟨ns, log, move.work.1, fun i e he => ?_, fun i => ?_, .inl ⟨by simp [runs], ?_⟩⟩
    · cases move.work.2 _ he
    · rw [(same i).2]
      exact ⟨.inl, fun h => h.resolve_right fun hn => by cases move.work.2 _ hn⟩
    · exact List.filterMap_eq_nil_iff.mpr fun n hn => by
        have := move.work.2 n hn
        cases n <;> first | rfl | cases this
  | silence id call call' current runs queue rest taking log =>
    refine ⟨_, log, by simp, by simp, fun i => ?_, .inl ⟨by rw [runs], rfl⟩⟩
    have hid : id < s.engine.queue.slots.size := by
      have := hs.holder id (by rw [holder, call]; rfl)
      rw [hs.slots]
      omega
    rw [queue, Queue.abandon]
    by_cases hi : i = id
    · rw [hi, Queue.slot_modifySlot_self _ _ hid]
      simp
    · rw [Queue.slot_modifySlot_ne _ _ hi]
      simp [hi]
  | launch launch r gives idle runs slots toList lastLine receiving call current taking log =>
    exact ⟨_, log, by simp, by simp, fun i => by simp [slot_of_push slots],
      .inr ⟨launch, by simp [runs], rfl⟩⟩
  | take ns runs current call receive log => exact ⟨ns, adds_take runs receive hs.reads log⟩

/-- Notes are only added to the log. -/
theorem Reached.log_grows (h : Reached I ok (initial settings world) s) (hu : exec I s ls = some u)
    (hls : ∀ l ∈ ls, ok l) : ∃ ns, u.log = s.log ++ ns := by
  induction ls generalizing s with
  | nil =>
    cases hu
    exact ⟨[], (List.append_nil _).symm⟩
  | cons l ls ih =>
    obtain ⟨s₁, hs, hu⟩ := Option.bind_eq_some_iff.mp hu
    obtain ⟨ns, adds⟩ := (step_cases h.sound hs).adds h.sound
    have hl := hls l List.mem_cons_self
    obtain ⟨ns', log⟩ := ih (h.step hl hs) hu fun l hl => hls l (List.mem_cons_of_mem _ hl)
    exact ⟨ns ++ ns', by rw [log, adds.log, List.append_assoc]⟩

/-- The launches are numbered as they come. -/
theorem Reached.launches (h : Reached I ok (initial settings world) s) :
    (Note.launches s.log).length = s.engine.runs.size ∧
      ∀ id launch, .launched id launch ∈ s.log → (Note.launches s.log)[id]? = some launch := by
  induction h with
  | start => simp [initial, Note.launches]
  | @step s s' l h hl hs ih =>
    obtain ⟨ih1, ih2⟩ := ih
    obtain ⟨ns, a⟩ := (step_cases h.sound hs).adds h.sound
    have old {id launch} (hm : .launched id launch ∈ s.log) :
        (Note.launches s'.log)[id]? = some launch := by
      have := ih2 id launch hm
      rw [a.log, Note.launches_append, List.getElem?_append_left (List.getElem?_eq_some_iff.mp this).1]
      exact this
    rcases a.launched with ⟨size, hn⟩ | ⟨launch, size, rfl⟩
    · refine ⟨by simp [a.log, hn, ih1, size], fun id launch hm => ?_⟩
      rw [a.log, List.mem_append] at hm
      rcases hm with hm | hm
      · exact old hm
      · have : launch ∈ Note.launches ns := List.mem_filterMap.mpr ⟨_, hm, rfl⟩
        rw [hn] at this
        cases this
    · have hone (n : Nat) : Note.launches [.launched n launch] = [launch] := rfl
      refine ⟨by simp [a.log, hone, ih1, size], fun id launch' hm => ?_⟩
      rw [a.log, List.mem_append] at hm
      rcases hm with hm | hm
      · exact old hm
      · cases List.mem_singleton.mp hm
        rw [a.log, Note.launches_append, ← ih1, hone]
        simp

/-- A run is disowned when its farewell is in the log. -/
theorem Reached.abandoned (h : Reached I ok (initial settings world) s) (id : Nat) :
    (s.engine.queue.slot id).abandoned = true ↔ .abandoned id ∈ s.log := by
  induction h with
  | start => simp [initial, Queue.slot]
  | @step s s' l h hl hs ih =>
    obtain ⟨ns, a⟩ := (step_cases h.sound hs).adds h.sound
    rw [a.abandoned, a.log, List.mem_append, ih]

theorem Reached.kept (h : Reached I ok (initial settings world) s) (ha : .abandoned id ∉ s.log) :
    (s.engine.queue.slot id).abandoned = false := by
  rw [← Bool.not_eq_true, h.abandoned]
  exact ha

/-- What is on its way belongs to no run before one that was heard; outputs count if no worker's
patience has ended. -/
theorem Reached.heard_le {outputs : Bool} {e : Event} {m : Message}
    (h : Reached I ok (initial settings world) s)
    (hok : outputs = true → ∀ l, ok l → ∀ run, l ≠ .other (.patience run))
    (heard : (id, e) ∈ Note.deliveries s.log) (he : e.voices outputs = true) (hm : m ∈ s.pending)
    (kept : .abandoned m.run ∉ s.log) (hv : m.outline.voices outputs = true) : id ≤ m.run := by
  have first : id ∈ ((Note.deliveries s.log).filter (·.2.voices outputs)).map (·.1) :=
    List.mem_map.mpr ⟨(id, e), List.mem_filter.mpr ⟨heard, he⟩, rfl⟩
  have counted : counts outputs s.engine.queue m = true := by simp [counts, hv, h.kept kept]
  have second : m.run ∈ (s.pending.filter (counts outputs s.engine.queue)).map Message.run :=
    List.mem_map_of_mem (List.mem_filter.mpr ⟨hm, counted⟩)
  exact (List.pairwise_append.mp (h.sorted outputs hok)).2.2 id first m.run second

/-- Nothing of a run is heard after its farewell. -/
theorem Reached.farewell (h : Reached I ok (initial settings world) s) :
    s.log.Pairwise fun a b => ∀ id e, a = .abandoned id → b ≠ .delivered id e := by
  induction h with
  | start => exact .nil
  | @step s s' l h hl hs ih =>
    obtain ⟨ns, a⟩ := (step_cases h.sound hs).adds h.sound
    rw [a.log]
    refine List.pairwise_append.mpr ⟨ih, ?_, ?_⟩
    · have := a.single
      match ns with
      | [] => exact .nil
      | [n] => exact List.pairwise_singleton _ _
      | _ :: _ :: _ => simp at this
    · rintro _ ha b hb id e rfl rfl
      rw [← h.abandoned] at ha
      rw [a.delivered id e hb] at ha
      cases ha

/-! ## One run after another -/

theorem messages_about (t : Taking) (id : Nat) :
    (t.about id).messages = t.messages.filter (·.run = id) := by
  cases t with
  | resting => simp [Taking.about, Taking.messages]
  | testing m => by_cases h : m.run = id <;> simp [Taking.about, Taking.run?, Taking.messages, h]
  | clearing r | loading r | comparing r _ =>
    by_cases h : r = id <;> simp [Taking.about, Taking.run?, Taking.messages, h]

/-- The messages of a run are those of the system that are its own. -/
theorem view_pending (s : Ensemble ω σ) (id : Nat) :
    (s.view id).pending = s.pending.filter (·.run = id) := by
  rw [View.pending, pending, List.filter_append, ← messages_about]
  rfl

theorem heard_eq (ns : List Note) (id : Nat) :
    Note.heard (ns.filter (·.run = id)) = ((Note.deliveries ns).filter (·.1 = id)).map (·.2) := by
  induction ns with
  | nil => rfl
  | cons n ns ih =>
    have hd : Note.deliveries (n :: ns) = Note.deliveries [n] ++ Note.deliveries ns :=
      Note.deliveries_append [n] ns
    have hh (n : Note) (ns : List Note) : Note.heard (n :: ns) = Note.heard [n] ++ Note.heard ns :=
      Note.heard_append [n] ns
    rw [hd, List.filter_append, List.map_append, ← ih, List.filter_cons]
    cases n with
    | delivered r e =>
      by_cases hr : r = id
      · subst hr
        rw [if_pos (by simp), hh]
        simp [Note.deliveries, Note.delivery?]
      · simp [hr, Note.deliveries, Note.delivery?]
    | _ =>
      split
      · rw [hh]
        rfl
      · rfl

/-- A sorted sequence ends with what belongs to the highest number. -/
theorem split_last {α : Type} {xs : List (Nat × α)} {n : Nat} (h : xs.Pairwise (·.1 ≤ ·.1))
    (hn : ∀ x ∈ xs, x.1 < n + 1) : xs = xs.filter (·.1 < n) ++ xs.filter (·.1 = n) := by
  induction xs with
  | nil => rfl
  | cons x xs ih =>
    have hx := hn x List.mem_cons_self
    rw [List.pairwise_cons] at h
    have hxs := fun y hy => hn y (List.mem_cons_of_mem x hy)
    by_cases hlt : x.1 < n
    · have hne : x.1 ≠ n := by omega
      simpa [hlt, hne] using ih h.2 hxs
    · have heq : x.1 = n := by omega
      have low : xs.filter (·.1 < n) = [] :=
        List.filter_eq_nil_iff.mpr fun y hy => by simpa [heq] using h.1 y hy
      have high : xs.filter (·.1 = n) = xs :=
        List.filter_eq_self.mpr fun y hy => by
          have := h.1 y hy
          have := hxs y hy
          exact decide_eq_true (by omega)
      rw [List.filter_cons_of_neg (by simpa using hlt), List.filter_cons_of_pos (by simpa using heq),
        low, high, List.nil_append]

/-- A sorted sequence is put together from what belongs to each number. -/
theorem map_of_sorted {α : Type} {xs : List (Nat × α)} {n : Nat} (h : xs.Pairwise (·.1 ≤ ·.1))
    (hn : ∀ x ∈ xs, x.1 < n) :
    xs.map (·.2) = (List.range n).flatMap fun i => (xs.filter (·.1 = i)).map (·.2) := by
  induction n generalizing xs with
  | zero =>
    cases xs with
    | nil => rfl
    | cons x xs => cases hn x List.mem_cons_self
  | succ n ih =>
    have hi := ih (h.filter (·.1 < n)) (by simp)
    rw [List.range_succ, List.flatMap_append, List.flatMap_singleton]
    conv_lhs => rw [split_last h hn, List.map_append, hi]
    congr 1
    refine List.flatMap_congr fun i hi => ?_
    rw [List.filter_filter]
    congr 2
    funext x
    have := List.mem_range.mp hi
    by_cases hx : x.1 = i
    · simp [hx, this]
    · simp [hx]

/-- What was told of a run leads to where its worker is. -/
theorem Reached.told (outputs : Bool) (h : Reached I ok (initial settings world) s)
    (hid : id < s.engine.runs.size)
    (hok : outputs = true → ∀ l, ok l → l ≠ .other (.patience id)) :
    ∃ launch, (Note.launches s.log)[id]? = some launch ∧ (s.view id).Told outputs launch := by
  have hv : (outputs = true → (s.view id).run.Calm) ∧
      ∃ launch, .launched id launch ∈ (s.view id).notes ∧ (s.view id).Told outputs launch := by
    refine h.view (P := fun v => (outputs = true → v.run.Calm) ∧
      ∃ launch, .launched id launch ∈ v.notes ∧ v.Told outputs launch) ?_ ?_ hid
    · intro launch r gives
      exact ⟨fun _ => calm_fresh gives, launch, List.mem_cons_self, View.told_fresh gives⟩
    · rintro last l v v' hl ⟨calm, launch, hm, told⟩ hs
      refine ⟨fun ho => ?_, launch, hs.notes_mem hm, told.step calm hs⟩
      exact View.calm_step (calm ho) (hok ho l hl) hs
  obtain ⟨_, launch, hm, told⟩ := hv
  exact ⟨launch, h.launches.2 id launch (List.mem_filter.mp hm).1, told⟩

theorem position_of_ended {r : Run σ} (h : r.stage.isAlive = false) : r.stage.position = .past := by
  cases hs : r.stage <;> rw [hs] at h <;> first | rfl | cases h

/-- A run that is done was heard to its end. -/
theorem Reached.whole {launch : Launch} (h : Reached I ok (initial settings world) s)
    (hok : ∀ l, ok l → l ≠ .other (.patience id)) (hl : (Note.launches s.log)[id]? = some launch)
    (ha : .abandoned id ∉ s.log) (done : s.IsDone id) : Segment launch (s.heard id) := by
  have hid : id < s.engine.runs.size := h.launches.1 ▸ (List.getElem?_eq_some_iff.mp hl).1
  obtain ⟨launch', hl', told⟩ := h.told true hid fun _ => hok
  obtain rfl : launch' = launch := Option.some.inj (hl'.symm.trans hl)
  have ended : (s.engine.run id).stage.isAlive = false := by
    have := done.1
    rw [isAlive_eq] at this
    simpa [Engine.run, hid] using this
  have hp : (s.view id).pending = [] := by
    rw [view_pending]
    exact List.filter_eq_nil_iff.mpr fun m hm => by simpa using done.2 m hm
  have ht := told.trail (h.kept ha)
  rw [View.trail, hp, List.map_nil, List.append_nil, show (s.view id).run = s.engine.run id from rfl,
    position_of_ended ended, Position.after_true] at ht
  exact Position.segment_of_read ht

/-- Of the runs before the last the worker has ended, unless they were disowned. -/
theorem Reached.ended_before (h : Reached I ok (initial settings world) s)
    (more : id + 1 < s.engine.runs.size) (ha : .abandoned id ∉ s.log) :
    s.engine.isAlive id = false := by
  cases hal : s.engine.isAlive id with
  | false => rfl
  | true =>
    have := h.sound.holder id (h.sound.alive id hal (h.kept ha))
    omega

/-- A run behind which another was heard is done. -/
theorem Reached.done_of_later {id' : Nat} (h : Reached I ok (initial settings world) s)
    (hok : ∀ l, ok l → ∀ run, l ≠ .other (.patience run)) (ha : .abandoned id ∉ s.log)
    (hlt : id < id') (later : s.heard id' ≠ []) : s.IsDone id := by
  obtain ⟨e, he⟩ := List.exists_mem_of_ne_nil _ later
  rw [heard, notes, heard_eq] at he
  obtain ⟨⟨i, e'⟩, hd, rfl⟩ := List.mem_map.mp he
  obtain ⟨hm, hi⟩ := List.mem_filter.mp hd
  obtain rfl : i = id' := by simpa using hi
  have hi : i < s.engine.runs.size := h.sound.of_delivered hm
  refine ⟨h.ended_before (by omega) ha, fun m hm' hr => ?_⟩
  have := h.heard_le (fun _ => hok) hm (Event.voices_true _) hm' (hr ▸ ha) (Event.voices_true _)
  omega

/-- **The grammar of the stream.** If no worker's patience ends, then, after any calls of the
controller and in any order of steps, the events delivered are a concatenation of what was heard of
the launches, in their order. Each begins a segment of its launch, and is a whole one if its run was
not disowned and is done, or another was heard behind it. Behind the farewell of a run nothing of it
is heard. -/
theorem stream_grammar {ls : List (Label ω)} (h : exec I (initial settings world) ls = some s)
    (patient : ∀ l ∈ ls, ∀ run, l ≠ .other (.patience run)) :
    (Note.deliveries s.log).map (·.2) =
        (List.range (Note.launches s.log).length).flatMap s.heard ∧
      (Note.deliveries s.log).Pairwise (·.1 ≤ ·.1) ∧
      (∀ id launch, (Note.launches s.log)[id]? = some launch →
        (∃ whole, Segment launch whole ∧ s.heard id <+: whole) ∧
          (.abandoned id ∉ s.log → (s.IsDone id ∨ ∃ later > id, s.heard later ≠ []) →
            Segment launch (s.heard id))) ∧
      s.log.Pairwise fun a b => ∀ id e, a = .abandoned id → b ≠ .delivered id e := by
  have h : Reached I (fun l => ∀ run, l ≠ .other (.patience run)) (initial settings world) s :=
    reached_of_exec .start h patient
  have hok {id : Nat} (l : Label ω) (hl : ∀ run, l ≠ .other (.patience run)) :
      l ≠ .other (.patience id) := hl id
  have sorted : (Note.deliveries s.log).Pairwise (·.1 ≤ ·.1) := by
    have := (List.pairwise_append.mp (h.sorted true fun _ _ hl => hl)).1
    rw [List.filter_eq_self.mpr fun x _ => x.2.voices_true] at this
    exact List.pairwise_map.mp this
  refine ⟨?_, sorted, fun id launch hl => ⟨?_, fun ha past => ?_⟩, h.farewell⟩
  · have hn (x : Nat × Event) (hx : x ∈ Note.deliveries s.log) : x.1 < (Note.launches s.log).length := by
      rw [h.launches.1]
      exact h.sound.of_delivered hx
    rw [map_of_sorted sorted hn]
    congr 1
    funext i
    exact (heard_eq s.log i).symm
  · have hid : id < s.engine.runs.size := h.launches.1 ▸ (List.getElem?_eq_some_iff.mp hl).1
    obtain ⟨launch', hl', told⟩ := h.told true hid fun _ => hok
    obtain rfl : launch' = launch := Option.some.inj (hl'.symm.trans hl)
    obtain ⟨p, hp⟩ := told.heard
    rw [Position.after_true] at hp
    exact Position.begins_of_read hp
  · rcases past with done | ⟨later, hlt, hne⟩
    · exact h.whole hok hl ha done
    · exact h.whole hok hl ha (h.done_of_later (fun _ hl => hl) ha hlt hne)

/-! ## A replay -/

/-- An interpreter whose scripts replay the signals that lie about in the world. -/
def replay : Interpreter (List Signal) (List Signal) where
  launch signals _ _ := signals
  signal s := s.headD (.ended none)
  work s w := (s.tail, w)
  answerLine s _ := s.tail
  answerWrite s _ := s.tail
  close s := s.tail

/-- A launch fails. The run after it reports a line, writes a character that the pump meets in two
parts, and fails. -/
def failingRun : List (Label (List Signal)) :=
  let work (n : Nat) : List (Label (List Signal)) := .replicate n (.other (.worker 1))
  let pump (n : Nat) : List (Label (List Signal)) := [.other (.pump 1 (.upTo n)), .other (.pump 1 .nothing)]
  let take (n : Nat) : List (Label (List Signal)) := .replicate n .take
  [.start (.noChannel .brokenPipe)] ++ take 2 ++ [.start .works] ++ work 4 ++ take 2 ++ work 1 ++
    take 5 ++ work 2 ++ pump 1 ++ pump 1 ++ [.other (.pump 1 .nothing)] ++ work 2 ++ pump 3 ++
    [.other (.pump 1 .nothing)] ++ work 2 ++ pump 1 ++ work 4 ++ take 6

/-- The state behind it. -/
def afterFailingRun : Ensemble (List Signal) (List Signal) :=
  (exec replay (initial {} [.line 3, .write [0xC3, 0xA9], .ended (some "no")]) failingRun).get
    (by decide +kernel)

theorem exec_failingRun :
    exec replay (initial {} [.line 3, .write [0xC3, 0xA9], .ended (some "no")]) failingRun =
      some afterFailingRun :=
  (Option.some_get _).symm

theorem failingRun_smooth (l : Label (List Signal)) (hl : l ∈ failingRun) (run : Nat) :
    l ≠ .other (.patience run) ∧ l ≠ .other (.fault run) := by
  have smooth : failingRun.all (fun
      | .other (.patience _) | .other (.fault _) => false
      | _ => true) = true := rfl
  have h := List.all_eq_true.mp smooth l hl
  constructor <;> (rintro rfl; cases h)

/-- The grammar at work: the second run was heard as a whole. -/
theorem stream_grammar_failingRun :
    (∀ l ∈ failingRun, ∀ run, l ≠ .other (.patience run)) ∧
      (Note.deliveries afterFailingRun.log).map (·.2) = afterFailingRun.heard 0 ++ afterFailingRun.heard 1 ∧
      Segment .works (afterFailingRun.heard 1) := by
  have patient (l) (hl : l ∈ failingRun) (run) := (failingRun_smooth l hl run).1
  obtain ⟨stream, -, segment, -⟩ := stream_grammar exec_failingRun patient
  have two : (Note.launches afterFailingRun.log).length = 2 := by decide +kernel
  have done : afterFailingRun.IsDone 1 := ⟨by decide +kernel, by decide +kernel⟩
  refine ⟨patient, ?_, (segment 1 .works (by decide +kernel)).2 (by decide +kernel) (.inl done)⟩
  rw [stream, two]
  simp [List.range_succ]

end Ensemble
end ScriptHost
