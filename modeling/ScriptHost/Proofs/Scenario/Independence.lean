import ScriptHost.Proofs.Silence.Unseen
import ScriptHost.Proofs.Scenario.Conclusion

/-!
# Runs are independent of history

An engine that has done whatever it has done, and whose runs were all disowned
or heard to their end, gives the next run of a deterministic script as a new
engine gives it.

* `Reached.heard_of_settled`: nothing more is heard of the runs before.
* `NextRun`: the next run of a script of the scenario, of which nothing is taken until
  it is at its end, and then everything.
* `NextRun.tells`: what is heard of it is told by an execution of its script.
* `heard_alike`: so it is the same on a new engine.
-/
namespace ScriptHost

/-! ## Streams of one execution -/

/-- Between the start and the stop of a run, its stream is as tidy. -/
theorem Event.Tidy.between {leads : Prop} {reports : List Event} {o : Outcome}
    (h : Tidy leads (.started :: (reports ++ [.stopped o]))) : Tidy leads reports where
  single := lines_between reports o ▸ h.single
  lead hl := (h.lead hl).sublist
    ((List.sublist_append_left reports _).trans (List.sublist_cons_self _ _))

/-- One line at most is the last one. -/
theorem Event.Tidy.lines_eq {leads : Prop} {es : List Event} (h : Tidy leads es) :
    lines es = (lines es).getLast?.toList := by
  have single := h.single
  match hx : lines es with
  | [] => rfl
  | [n] => rfl
  | _ :: _ :: _ =>
    rw [hx] at single
    simp at single

section
variable {l : List Signal} {failure : Option String} {finals : List UInt8} {reports reports' : List Event}
  {leads : Prop} (r : Recounts l failure finals reports) (r' : Recounts l failure finals reports')
  (tidy : Event.Tidy leads reports) (tidy' : Event.Tidy leads reports')
include r r' tidy tidy'

theorem Recounts.lines_agree : Event.lines reports = Event.lines reports' := by
  rw [tidy.lines_eq, tidy'.lines_eq, r.last, r'.last]

/-- Streams that recount the same are the same but for how the output is cut, and for the place of
the line if a script may write before it shows one. -/
theorem Recounts.agree (o : Outcome) :
    Event.merge ((reports ++ [Event.stopped o]).filter (·.line? = none)) =
        Event.merge ((reports' ++ [Event.stopped o]).filter (·.line? = none)) ∧
      (leads → Event.merge (reports ++ [.stopped o]) = Event.merge (reports' ++ [.stopped o])) := by
  refine ⟨?_, fun hl => ?_⟩
  · rw [Event.merge_unlined r.report r.voiced, Event.merge_unlined r'.report r'.voiced, r.texts,
      r'.texts]
  · rw [Event.merge_reports r.report r.voiced (tidy.lead hl),
      Event.merge_reports r'.report r'.voiced (tidy'.lead hl), r.texts, r'.texts,
      r.lines_agree r' tidy tidy']

end

namespace Ensemble

variable {ω σ : Type} {P : Scenario ω} {I : Interpreter ω σ} {id : Nat} {l : Label ω}
  {s s' t u s₀ : Ensemble ω σ} {ls : List (Label ω)} {settings : Settings} {world : ω}
  {ok : Label ω → Prop} {launch : Launch}

/-! ## The runs before -/

/-- A run is settled: it was disowned, or its stop was delivered. -/
def Settled (s : Ensemble ω σ) (id : Nat) : Prop :=
  .abandoned id ∈ s.log ∨ ∃ o, .delivered id (.stopped o) ∈ s.log

/-- Nothing more is heard of a run that is settled. -/
theorem Reached.heard_of_settled (h : Reached I ok (initial settings world) s)
    (patient : ∀ l, ok l → l ≠ .other (.patience id)) (hu : exec I s ls = some u)
    (hls : ∀ l ∈ ls, ok l) (settled : s.Settled id) : u.heard id = s.heard id := by
  rcases settled with gone | ⟨o, stopped⟩
  · exact (h.mono fun _ _ => trivial).heard_eq gone hu
  · have reached : Reached I ok (initial settings world) u := reached_of_exec h hu hls
    obtain ⟨ns, log⟩ := h.log_grows hu hls
    have heard : u.heard id = s.heard id ++ Note.heard (ns.filter (·.run = id)) := by
      rw [Ensemble.heard, notes, log, List.filter_append, Note.heard_append]
      rfl
    -- the stop is the last that can be read of it
    have hid : id < u.engine.runs.size :=
      reached.sound.log (.delivered id (.stopped o)) (log ▸ List.mem_append_left _ stopped)
    obtain ⟨launch, -, told⟩ := reached.told true hid fun _ => patient
    obtain ⟨p, hp⟩ := told.heard
    rw [Position.after_true, show Note.heard (u.view id).notes = u.heard id from rfl, heard] at hp
    obtain ⟨q, first, rest⟩ := Position.read_left hp
    obtain ⟨rfl, -⟩ := Position.read_stopped first (mem_heard.mpr stopped)
    rw [heard, (Position.read_past rest).1, List.append_nil]

/-- A run that is not there cannot have failed to read. -/
theorem Reached.unfaulted (h : Reached I ok (initial settings world) s)
    (hid : s.engine.runs.size ≤ id) :
    Reached I (fun l => ok l ∧ l ≠ .other (.fault id)) (initial settings world) s := by
  induction h with
  | start => exact .start
  | @step s s' l h hl hs ih =>
    have le := (h.ruled.conduct hs).size_le h.sound
    have before := ih (Nat.le_trans le hid)
    by_cases fault : l = .other (.fault id)
    · subst fault
      cases hs
      have absent : s.engine.runs[id]? = none := Array.getElem?_eq_none (Nat.le_trans le hid)
      have same : s.act I (.fault id) = s := by
        simp [act, Engine.step, modify_of_none _ absent]
      rwa [same]
    · exact before.step ⟨hl, fault⟩ hs

/-! ## One run -/

theorem Reached.view_plain (h : Reached I ok (initial settings world) s) (id : Nat) :
    (s.view id).Plain :=
  fun m hm => h.plain m (List.mem_filter.mp (view_pending s id ▸ hm)).1

/-- As long as nothing is taken, the run is at its beginnings for the receiver. -/
theorem Passes.early (h : Passes P I id s₀ ls s) (reached : Reached I ok (initial settings world) s₀)
    (new : s₀.engine.runs.size ≤ id) (hok : ∀ l ∈ ls, ok l)
    (smooth : ∀ l, ok l → l ≠ .other (.fault id)) (untaken : .take ∉ ls)
    (hid : id < s.engine.runs.size) (unasked : s.Unasked P id) :
    (s.view id).Early (P.LineFirst I) := by
  induction h with
  | start => exact absurd hid (Nat.not_lt.mpr new)
  | @step ls s s' l h hs drift ih =>
    have follows := ((h.step hs drift).follows reached new hok smooth).2 hid unasked
    have hok' := fun l hl => hok l (List.mem_append_left _ hl)
    have reached : Reached I ok (initial settings world) s := reached_of_exec reached h.exec hok'
    have step := step_cases reached.sound hs
    rcases Nat.lt_or_ge id s.engine.runs.size with there | absent
    · have unasked' := unasked.before reached there hs
      have early := ih hok' (fun ht => untaken (List.mem_append_left _ ht)) there unasked'
      have hand : (s'.view id).hand = (s.view id).hand := by
        have taking := taking_of_step hs fun hl => untaken (by simp [hl])
        exact congrArg (Taking.about id) taking
      have first (leads : P.LineFirst I) (hw : Note.writes (s'.notes id) ≠ []) :
          Note.lines (s'.notes id) ≠ [] := follows.lines_of_writes leads hw
      exact early.step (reached.coalesced there unasked'.kept) (reached.voiced there)
        (reached.poured there smooth unasked'.kept).flow (reached.view_plain id) first
        (step.view reached.sound there) hand unasked.kept
    · obtain ⟨_, r, _, view⟩ := step.fresh reached.sound absent hid
      rw [view]
      exact View.early_fresh

/-- Behind the end of its worker, what is taken of the run stays in order. -/
theorem tidy_behind {leads : Prop} (reached : Reached I ok (initial settings world) s)
    (hid : id < s.engine.runs.size) (mute : (s.engine.run id).stage.isMute = true)
    (tidy : Event.Tidy leads (s.view id).trail) (hu : exec I s ls = some u)
    (kept : (u.engine.queue.slot id).abandoned = false) : Event.Tidy leads (u.view id).trail := by
  refine (exec_induction (P := fun _ u => id < u.engine.runs.size ∧
    ((u.engine.queue.slot id).abandoned = false → Event.Tidy leads (u.view id).trail ∧
      (u.view id).run.stage.isMute = true)) ⟨hid, fun _ => ⟨tidy, mute⟩⟩
    (fun {ls s₁ l s₂} h₁ ih hs => ?_) hu).2 kept |>.1
  have reached : Reached I (fun _ => True) (initial settings world) s₁ :=
    (reached.mono fun _ _ => trivial).of_exec h₁
  have le := (reached.ruled.conduct hs).size_le reached.sound
  refine ⟨Nat.lt_of_lt_of_le ih.1 le, fun kept => ?_⟩
  obtain ⟨tidy, mute⟩ := ih.2 (kept_before reached hs kept)
  exact ((step_cases reached.sound hs).view reached.sound ih.1).tidy tidy mute kept

/-! ## The next run -/

/-- Nobody's patience ends. -/
def Patient (l : Label ω) : Prop := ∀ run, l ≠ .other (.patience run)

/-- The next run of an engine that is in the state `s`: the run is one of the script of the scenario
and is not asked to stop, nothing is taken until its worker has said everything, and then
everything. Nobody's patience ends meanwhile, and no look at the run's channel fails. -/
structure NextRun (P : Scenario ω) (I : Interpreter ω σ) (launch : Launch) (s : Ensemble ω σ) where
  /-- What happens up to the end of the run. -/
  before : List (Label ω)
  ended : Ensemble ω σ
  /-- What happens behind it. -/
  after : List (Label ω)
  final : Ensemble ω σ
  passes : Passes P I s.engine.runs.size s before ended
  behind : exec I ended after = some final
  untaken : .take ∉ before
  smooth : ∀ l ∈ before ++ after, Patient l ∧ l ≠ .other (.fault s.engine.runs.size)
  launched : .launched s.engine.runs.size launch ∈ ended.log
  unasked : ended.Unasked P s.engine.runs.size
  mute : (ended.engine.run s.engine.runs.size).stage.isMute = true
  single : final.engine.runs.size = s.engine.runs.size + 1
  kept : .abandoned s.engine.runs.size ∉ final.log
  taken : ∀ m ∈ final.pending, m.run ≠ s.engine.runs.size

namespace NextRun

variable (p : NextRun P I launch s)

/-- All events that are taken from then on. -/
def events : List Event :=
  ((Note.deliveries p.final.log).drop (Note.deliveries s.log).length).map (·.2)

theorem exec_final : exec I s (p.before ++ p.after) = some p.final := by
  rw [exec_append, p.passes.exec]
  exact p.behind

section
variable {p} (reached : Reached I Patient (initial settings world) s)
include reached

/-- They are the events of that run, if all runs before are settled. -/
theorem events_eq (settled : ∀ run < s.engine.runs.size, s.Settled run) :
    p.events = p.final.heard s.engine.runs.size := by
  have patient := fun l hl => (p.smooth l hl).1
  have final := reached_of_exec reached p.exec_final patient
  obtain ⟨ns, log⟩ := reached.log_grows p.exec_final patient
  have heard (run : Nat) : p.final.heard run =
      s.heard run ++ ((Note.deliveries ns).filter (·.1 = run)).map (·.2) := by
    rw [Ensemble.heard, notes, log, List.filter_append, Note.heard_append, heard_eq ns]
    rfl
  -- nothing is heard of the runs before
  have own : ∀ x ∈ Note.deliveries ns, x.1 = s.engine.runs.size := by
    rintro ⟨run, e⟩ hx
    have hrun : run < p.final.engine.runs.size := by
      have hx : (run, e) ∈ Note.deliveries p.final.log := by
        rw [log, Note.deliveries_append]
        exact List.mem_append_right _ hx
      exact final.sound.of_delivered hx
    by_contra other
    have before : run < s.engine.runs.size := by
      have := p.single
      have : run ≠ s.engine.runs.size := other
      omega
    have same := reached.heard_of_settled (fun l hl => hl run) p.exec_final patient (settled run before)
    rw [heard, List.append_right_eq_self, List.map_eq_nil_iff, List.filter_eq_nil_iff] at same
    exact same (run, e) hx (by simp)
  have unheard : s.heard s.engine.runs.size = [] := by
    rw [Ensemble.heard, notes, filter_run_lt reached.sound.log (Nat.le_refl _)]
    rfl
  have all : (Note.deliveries ns).filter (·.1 = s.engine.runs.size) = Note.deliveries ns :=
    List.filter_eq_self.mpr fun x hx => by simpa using own x hx
  rw [events, log, Note.deliveries_append, List.drop_left, heard, unheard, List.nil_append, all]

/-- **The next run by itself.** Either its launch was refused and it was stopped, or it tells what a
execution of its script up to the end shows, with at most one line, and no line behind an output if the
script shows a line before it writes. -/
theorem account (settled : ∀ run < s.engine.runs.size, s.Settled run) :
    (∃ o, launch.refusal? = some o ∧ p.events = [.stopped o]) ∨
      launch = .works ∧ ∃ l failure finals reports, P.Ends I l failure finals ∧
        Recounts l failure finals reports ∧
        Event.Tidy (P.LineFirst I) reports ∧
        p.events = .started :: (reports ++ [.stopped (.ofFailure failure)]) := by
  have new := reached.unfaulted (Nat.le_refl s.engine.runs.size)
  have first := fun l hl => p.smooth l (List.mem_append_left _ hl)
  have smooth := fun (l : Label ω) (hl : Patient l ∧ l ≠ .other (.fault s.engine.runs.size)) => hl.2
  have ended := reached_of_exec new p.passes.exec first
  have final := reached_of_exec new p.exec_final p.smooth
  have hid : s.engine.runs.size < p.ended.engine.runs.size := ended.sound.log _ p.launched
  -- the end of the worker, and then all that was sent is taken
  have concluded := p.passes.concluded new (Nat.le_refl _) first smooth hid p.unasked p.mute
  have concluded := concluded.kept ended hid p.behind
  have early := p.passes.early new (Nat.le_refl _) first smooth p.untaken hid p.unasked
  have kept := final.kept p.kept
  have tidy := tidy_behind ended hid p.mute early.tidy p.behind kept
  obtain ⟨ns, log⟩ := ended.log_grows p.behind fun l hl => p.smooth l (List.mem_append_right _ hl)
  have launched : .launched s.engine.runs.size launch ∈ p.final.log :=
    log ▸ List.mem_append_left _ p.launched
  rw [p.events_eq reached settled]
  rw [trail_of_taken p.taken] at tidy
  rcases concluded.recounts final (fun l hl => ⟨hl.1 _, hl.2⟩) launched p.kept p.taken with
    refused | ⟨works, l, failure, finals, reports, ends, recounts, heard⟩
  · exact .inl refused
  · refine .inr ⟨works, l, failure, finals, reports, ends, recounts, ?_, heard⟩
    rw [heard] at tidy
    exact tidy.between
end

end NextRun

/-- Whatever the calls and runs before have left of an engine, if nobody's patience has ended in them,
and each of those runs was disowned or its stop was taken, then the next run of a deterministic script
is heard as it is on a new engine: the same lines, the same stream without them once neighbouring
outputs are merged, and the same whole stream if the script shows a line before it writes. -/
theorem heard_alike {history : List (Label ω)} {world' : ω} {settings' : Settings}
    (h : exec I (initial settings world) history = some s) (patient : ∀ l ∈ history, Patient l)
    (settled : ∀ run < s.engine.runs.size, s.Settled run) (determined : P.Deterministic I)
    (p : NextRun P I launch s) (p' : NextRun P I launch (initial settings' world')) :
    Event.lines p.events = Event.lines p'.events ∧
      Event.merge (p.events.filter (·.line? = none)) =
        Event.merge (p'.events.filter (·.line? = none)) ∧
      (P.LineFirst I → Event.merge p.events = Event.merge p'.events) := by
  have used := p.account (reached_of_exec .start h patient) settled
  have new : Reached I Patient (initial settings' world') (initial settings' world') := .start
  have unused := p'.account new nofun
  rcases used with
    ⟨o, refusal, events⟩ | ⟨works, l, failure, finals, reports, ends, recounts, tidy, events⟩ <;>
    rcases unused with
      ⟨o', refusal', events'⟩ |
        ⟨works', l', failure', finals', reports', ends', recounts', tidy', events'⟩
  · obtain rfl : o = o' := Option.some.inj (refusal.symm.trans refusal')
    rw [events, events']
    exact ⟨rfl, rfl, fun _ => rfl⟩
  · rw [works'] at refusal
    cases refusal
  · rw [works] at refusal'
    cases refusal'
  · obtain ⟨rfl, rfl, rfl⟩ := determined l failure finals l' failure' finals' ends ends'
    obtain ⟨unlined, whole⟩ := recounts.agree recounts' tidy tidy' (.ofFailure failure)
    rw [events, events']
    refine ⟨?_, ?_, fun leads => ?_⟩
    · rw [Event.lines_between, Event.lines_between, recounts.lines_agree recounts' tidy tidy']
    · exact congrArg (Event.started :: ·) unlined
    · exact congrArg (Event.started :: ·) (whole leads)

theorem untroubled_of_all {id : Nat} {ls : List (Label ω)} (h : ls.all (fun
      | .other (.patience _) | .other (.fault _) => false
      | _ => true) = true) (l : Label ω) (hl : l ∈ ls) : Patient l ∧ l ≠ .other (.fault id) := by
  have h := List.all_eq_true.mp h l hl
  refine ⟨fun run => ?_, ?_⟩ <;> (rintro rfl; cases h)

end Ensemble
end ScriptHost
