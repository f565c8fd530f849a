import ScriptHost.Proofs.Ensemble.Step

/-!
# The events of one run

`Segment` says which sequences of events a run can deliver from its launch to its
end. `Position.read` is the same as a machine that reads one event after another:
it accepts the beginnings of segments (`begins_of_read`), and is at its end behind
the whole ones (`segment_of_read`).
-/
namespace ScriptHost

/-- An event between the start of a run and its stop. -/
def Event.isReport : Event → Bool
  | .output _ | .currentLine _ => true
  | _ => false

/-- How a script can end. -/
def Outcome.ofScript : Outcome → Bool
  | .finished | .failed | .cancelled => true
  | _ => false

/-- All events of a run: one that is refused stops at once, any other starts, reports and stops. -/
inductive Segment : Launch → List Event → Prop where
  | refused {l : Launch} {o : Outcome} (h : l.refusal? = some o) : Segment l [.stopped o]
  | ran {reports : List Event} {o : Outcome} (h : ∀ e ∈ reports, e.isReport = true)
    (ho : o.ofScript = true) : Segment .works (.started :: (reports ++ [.stopped o]))

/-- What has been heard of a run. -/
inductive Position where
  /-- Nothing, and its launch will be refused with an outcome. -/
  | doomed (o : Outcome)
  /-- Nothing. -/
  | silent
  | open
  | past
  deriving DecidableEq

namespace Position

/-- Where a launch leaves a run. -/
def start (l : Launch) : Position := (l.refusal?.map doomed).getD silent

/-- Goes on by one event, if it may come now. -/
def next : Position → Event → Option Position
  | doomed o, .stopped o' => if o = o' then some past else none
  | silent, .started => some .open
  | .open, .stopped o => if o.ofScript then some past else none
  | .open, .output _ | .open, .currentLine _ => some .open
  | _, _ => none

/-- Goes on by several events. -/
def read (p : Position) : List Event → Option Position
  | [] => some p
  | e :: es => (p.next e).bind (·.read es)

variable {p q : Position} {e : Event} {es : List Event}

theorem read_append (p : Position) (xs ys : List Event) :
    p.read (xs ++ ys) = (p.read xs).bind (·.read ys) := by
  induction xs generalizing p with
  | nil => rfl
  | cons x xs ih =>
    rw [List.cons_append, read, read]
    cases p.next x with
    | none => rfl
    | some q => exact ih q

/-- What may begin a sequence that is read may come by itself. -/
theorem read_left {xs ys : List Event} (h : p.read (xs ++ ys) = some q) :
    ∃ p', p.read xs = some p' ∧ p'.read ys = some q := by
  rw [read_append] at h
  exact Option.bind_eq_some_iff.mp h

theorem read_past (h : past.read es = some p) : es = [] ∧ p = past := by
  cases es with
  | nil => exact ⟨rfl, (Option.some.inj h).symm⟩
  | cons e es => cases h

/-- Nothing comes behind a stop. -/
theorem read_stopped {o : Outcome} (h : p.read es = some q) (ho : .stopped o ∈ es) :
    q = past ∧ ∃ before, es = before ++ [.stopped o] := by
  obtain ⟨xs, ys, rfl⟩ := List.append_of_mem ho
  obtain ⟨p', _, h2⟩ := read_left h
  obtain ⟨p'', h3, h4⟩ := Option.bind_eq_some_iff.mp h2
  obtain rfl : p'' = past := by
    cases p' <;> simp only [next, reduceCtorEq, Option.ite_none_right_eq_some, Option.some.injEq] at h3
    · exact h3.2.symm
    · exact h3.2.symm
  obtain ⟨rfl, rfl⟩ := read_past h4
  exact ⟨rfl, xs, rfl⟩

theorem next_report (h : e.isReport = true) (hp : p.next e = some q) : p = .open ∧ q = .open := by
  cases p <;> cases e <;> simp_all [next, Event.isReport]

/-- A report between others makes no difference. -/
theorem read_report {xs ys : List Event} (he : e.isReport = true)
    (h : p.read (xs ++ e :: ys) = some q) : p.read (xs ++ ys) = some q := by
  obtain ⟨p', h1, h2⟩ := read_left h
  obtain ⟨p'', h3, h4⟩ := Option.bind_eq_some_iff.mp h2
  obtain ⟨rfl, rfl⟩ := next_report he h3
  rw [read_append, h1]
  exact h4

/-- One report is as good as another. -/
theorem read_other {xs ys : List Event} {e' : Event} (he : e.isReport = true)
    (he' : e'.isReport = true) (h : p.read (xs ++ e :: ys) = some q) :
    p.read (xs ++ e' :: ys) = some q := by
  obtain ⟨p', h1, h2⟩ := read_left h
  obtain ⟨p'', h3, h4⟩ := Option.bind_eq_some_iff.mp h2
  obtain ⟨rfl, rfl⟩ := next_report he h3
  have : Position.open.next e' = some .open := by cases e' <;> first | rfl | cases he'
  rw [read_append, h1, Option.bind_some, read, this]
  exact h4

/-! ## Segments -/

theorem read_open (h : Position.open.read es = some q) :
    (q = .open ∧ ∀ e ∈ es, e.isReport = true) ∨
      q = past ∧ ∃ reports o, es = reports ++ [.stopped o] ∧ (∀ e ∈ reports, e.isReport = true) ∧
        o.ofScript = true := by
  induction es with
  | nil => exact .inl ⟨(Option.some.inj h).symm, by simp⟩
  | cons e es ih =>
    rw [read] at h
    cases e with
    | started => cases h
    | stopped o =>
      obtain ⟨p, h1, h2⟩ := Option.bind_eq_some_iff.mp h
      simp only [next, Option.ite_none_right_eq_some, Option.some.injEq] at h1
      obtain ⟨ho, rfl⟩ := h1
      obtain ⟨rfl, rfl⟩ := read_past h2
      exact .inr ⟨rfl, [], o, rfl, by simp, ho⟩
    | output _ | currentLine _ =>
      rcases ih h with ⟨rfl, hr⟩ | ⟨rfl, reports, o, rfl, hr, ho⟩
      · exact .inl ⟨rfl, by simpa [Event.isReport] using hr⟩
      · exact .inr ⟨rfl, _ :: reports, o, rfl, by simpa [Event.isReport] using hr, ho⟩

/-- Nothing yet, the start and reports, or everything. -/
theorem read_start {l : Launch} (h : (start l).read es = some p) :
    (es = [] ∧ p = start l) ∨
      (l = .works ∧ p = .open ∧ ∃ reports, es = .started :: reports ∧
        ∀ e ∈ reports, e.isReport = true) ∨
      (p = past ∧ Segment l es) := by
  cases es with
  | nil => exact .inl ⟨rfl, (Option.some.inj h).symm⟩
  | cons e es =>
    obtain ⟨q, h1, h2⟩ := Option.bind_eq_some_iff.mp h
    cases hl : l.refusal? with
    | some o =>
      simp only [start, hl, Option.map_some, Option.getD_some] at h1
      cases e <;> simp only [next, reduceCtorEq, Option.ite_none_right_eq_some, Option.some.injEq] at h1
      obtain ⟨rfl, rfl⟩ := h1
      obtain ⟨rfl, rfl⟩ := read_past h2
      exact .inr (.inr ⟨rfl, .refused hl⟩)
    | none =>
      obtain rfl : l = .works := by cases l <;> first | rfl | cases hl
      cases e with
      | started =>
        cases h1
        rcases read_open h2 with ⟨rfl, hr⟩ | ⟨rfl, reports, o, rfl, hr, ho⟩
        · exact .inr (.inl ⟨rfl, rfl, es, rfl, hr⟩)
        · exact .inr (.inr ⟨rfl, .ran hr ho⟩)
      | _ => cases h1

/-- A machine at its end has read a segment. -/
theorem segment_of_read {l : Launch} (h : (start l).read es = some past) : Segment l es := by
  rcases read_start h with ⟨_, hp⟩ | ⟨_, hp, _⟩ | ⟨_, hs⟩
  · cases l <;> cases hp
  · cases hp
  · exact hs

/-- Whatever the machine reads begins a segment. -/
theorem begins_of_read {l : Launch} (h : (start l).read es = some p) :
    ∃ whole, Segment l whole ∧ es <+: whole := by
  have finished : Outcome.finished.ofScript = true := rfl
  rcases read_start h with ⟨rfl, _⟩ | ⟨rfl, _, reports, rfl, hr⟩ | ⟨_, hs⟩
  · cases hl : l.refusal? with
    | some o => exact ⟨_, .refused hl, List.nil_prefix⟩
    | none =>
      obtain rfl : l = .works := by cases l <;> first | rfl | cases hl
      exact ⟨_, .ran (List.forall_mem_nil _) finished, List.nil_prefix⟩
  · exact ⟨_, .ran hr finished, [.stopped .finished], rfl⟩
  · exact ⟨es, hs, List.prefix_rfl⟩

end Position
end ScriptHost
