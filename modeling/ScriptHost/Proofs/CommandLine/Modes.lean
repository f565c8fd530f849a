import ScriptHost.Proofs.CommandLine.Beginning
import ScriptHost.Proofs.CommandLine.Rounds

/-!
# The output modes agree

Whether a command prints the output of its script, tells the course of the run
beside it, or prints events as JSON, it shows the same run: the pieces in which
the output comes, and the lines that are reported, may differ, but not the text
and not the outcome.

* `Printout`: a command in some mode that ran its script to the end.
* `Printout.account`: what it shows is told by an execution of its script.
* `Printout.unlogged`: without `--verbose`, and unless the environment asks for it,
  nothing is logged.
* `modes_agree`: so the modes agree.
-/
namespace ScriptHost

open Script (World)

variable {σ : Type} {I : Interpreter World σ} {P : Scenario World}

namespace CommandLine

open Job in
/-- A command that runs a script once has launched it. The script is that of the scenario. -/
structure Begun (P : Scenario World) (I : Interpreter World σ) (script : String) (included : List String)
    (json lines : Bool) where
  timeout : Option Seconds
  verbose : Bool
  world : World
  ready : P.start world
  job : Job σ
  starts : start I ⟨verbose, .run script included json lines timeout⟩ world = job
  launched : job.task = .following
  payload : (job.engine.run 0).payload = P.payload
  chunkName : (job.engine.run 0).chunkName = P.chunkName

open Job in
/-- Nobody has interrupted it, and it has ended with a code. The patience of its worker has not ended,
no look at the channel has failed, and the worker was not given up. -/
structure Printout (P : Scenario World) (I : Interpreter World σ) (script : String)
    (included : List String) (json lines : Bool) extends Begun P I script included json lines where
  final : Job σ
  course : Course P I job final
  code : Nat
  ended : final.task = .ended (.code code)
  inTime : final.engine.leaked = 0

variable {script : String} {included : List String} {json lines : Bool}

/-- Nobody has asked for more of the log than its warnings. -/
def Begun.Terse (b : Begun P I script included json lines) : Prop :=
  b.verbose = false ∧ b.world.environment.find? (·.1 = Job.logVariable) = none

/-- Then it keeps nothing of less weight. -/
theorem Begun.Terse.keeps {b : Begun P I script included json lines} (h : b.Terse) {r : Log.Record}
    (light : r.level = .debug) : (Job.filterFor b.world b.verbose).keeps r = false := by
  obtain ⟨quiet, unset⟩ := h
  simp [Job.filterFor, quiet, unset, Log.Filter.keeps, Log.Filter.withDefault, Log.Filter.rule?, light,
    Log.Level.number]

/-- A run of the system has led to where the command has begun. -/
theorem Begun.attended (b : Begun P I script included json lines) :
    ∃ s, b.job.Attended P I (if json then .json else .text lines)
      (Job.filterFor b.world b.verbose) s := by
  obtain ⟨settings, payload, patient, starts⟩ := Job.start_of_following (b.starts ▸ b.launched)
  have begun := b.starts.symm.trans starts
  have engine : b.job.engine = ((Engine.prepared settings payload b.world).launch .works).2 := by
    rw [begun, Job.begun, Job.log_engine]
  have own : payload = P.payload := by rw [← b.payload, engine]; rfl
  have named : settings.chunkName = P.chunkName := by rw [← b.chunkName, engine]; rfl
  rw [begun]
  exact ⟨_, Job.begun_attended b.ready patient own named⟩

/-- **What a command shows in the end** is told by an execution of its script: it is what the events look
like that begin with the start, tell what the script has shown, and end with the stop. -/
theorem Printout.account (p : Printout P I script included json lines) (discreet : P.Discreet I) :
    ∃ l failure finals reports, P.Ends I l failure finals ∧ Recounts l failure finals reports ∧
      p.code = (Outcome.ofFailure failure).exitCode ∧
      p.final.Displays (if json then .json else .text lines) (Job.filterFor p.world p.verbose)
        (.started :: (reports ++ [.stopped (.ofFailure failure)])) := by
  obtain ⟨s₀, attended⟩ := p.attended
  rcases p.course.attended discreet attended with ⟨s, follows, stands⟩ | lost
  · rw [p.ended] at stands
    obtain ⟨dead, taken, o, stopped, code⟩ := stands
    obtain ⟨l, failure, finals, reports, ends, recounts, heard⟩ := follows.solo.recounts dead taken
    refine ⟨l, failure, finals, reports, ends, recounts, ?_, heard ▸ follows.displays⟩
    -- of the stop that was heard there is one only
    obtain rfl : o = .ofFailure failure := by
      rw [heard] at stopped
      rcases List.mem_cons.mp stopped with h | h
      · cases h
      · rcases List.mem_append.mp h with h | h
        · cases recounts.report _ h
        · exact Event.stopped.inj (List.mem_singleton.mp h)
    exact Ending.code.inj code
  · rcases lost with ⟨_, _, leaked⟩ | ⟨_, broken⟩
    · exact absurd p.inTime leaked
    · cases p.ended.symm.trans broken

/-- Unless somebody asks for it, nothing is logged, and so it does not stand on standard error. -/
theorem Printout.unlogged (p : Printout P I script included json lines) (discreet : P.Discreet I)
    (terse : p.Terse) : p.final.stderr = p.final.notes := by
  obtain ⟨l, failure, finals, reports, -, -, -, displays⟩ := p.account discreet
  exact Job.stderr_of_unlogged (displays.unlogged fun _ light => terse.keeps light)

/-- A run that nobody stops is not told to be stopped on request. -/
theorem not_cancelled {reports : List Event} {failure : Option String}
    (h : ∀ e ∈ reports, e.isReport = true) :
    Event.stopped .cancelled ∉ Event.started :: (reports ++ [.stopped (.ofFailure failure)]) := by
  intro hm
  rcases List.mem_cons.mp hm with hm | hm
  · cases hm
  · rcases List.mem_append.mp hm with hm | hm
    · cases h _ hm
    · cases failure <;> cases List.mem_singleton.mp hm

open Console in
/-- **The output modes agree.** If a deterministic script writes to its output channel only, and a
command runs it to the end in each of the modes, then there are reports and an outcome such that

* the JSON lines on standard output are those of the start, of the reports, none of which is a start or
  a stop, and of the stop with the outcome;
* without `--json`, with `--lines` or without, standard output is the texts of the outputs among these
  reports, one behind the other;
* the exit code is that of the outcome in all modes;
* on standard error there is nothing beside the log but, with `--lines`, the start, lines up to the one
  reported last in JSON, and the stop;
* the log has nothing of weight, and nothing at all where nobody has asked for more than its warnings,
  so that no output of the script stands on standard error. -/
theorem modes_agree {l : Bool}
    (determined : P.Deterministic I) (discreet : P.Discreet I)
    (plain : Printout P I script included false false) (lined : Printout P I script included false true)
    (json : Printout P I script included true l) :
    ∃ (reports : List Event) (o : Outcome), (∀ e ∈ reports, e.isReport = true) ∧
      json.final.stdout = (Event.started :: (reports ++ [.stopped o])).flatMap
        (fun e => bytesOf (e.toJson ++ "\n")) ∧
      (plain.final.stdout = bytesOf (Event.texts reports) ∧
        lined.final.stdout = bytesOf (Event.texts reports)) ∧
      (plain.code = o.exitCode ∧ lined.code = o.exitCode ∧ json.code = o.exitCode) ∧
      (plain.final.notes = [] ∧ json.final.notes = [] ∧
        ∃ ns : List UInt32, ns.getLast? = (Event.lines reports).getLast? ∧ lined.final.notes =
          (Event.started :: (ns.map .currentLine ++ [.stopped o])).flatMap (errBytes (.text true))) ∧
      (∀ r ∈ plain.final.records ++ lined.final.records ++ json.final.records, r.level = .debug) ∧
      (plain.Terse → plain.final.stderr = plain.final.notes) ∧
      (lined.Terse → lined.final.stderr = lined.final.notes) ∧
      (json.Terse → json.final.stderr = json.final.notes) := by
  obtain ⟨p₁, failure₁, finals₁, reports₁, ends₁, recounts₁, code₁, shown₁⟩ := plain.account discreet
  obtain ⟨p₂, failure₂, finals₂, reports₂, ends₂, recounts₂, code₂, shown₂⟩ := lined.account discreet
  obtain ⟨p, failure, finals, reports, ends, recounts, code, shown⟩ := json.account discreet
  obtain ⟨rfl, rfl, rfl⟩ := determined _ _ _ _ _ _ ends ends₁
  obtain ⟨rfl, rfl, rfl⟩ := determined _ _ _ _ _ _ ends ends₂
  -- the three have told the same text
  have same₁ : Event.texts reports₁ = Event.texts reports := recounts₁.texts.trans recounts.texts.symm
  have same₂ : Event.texts reports₂ = Event.texts reports := recounts₂.texts.trans recounts.texts.symm
  refine ⟨reports, .ofFailure failure, recounts.report, shown.out, ⟨?_, ?_⟩, ⟨code₁, code₂, code⟩,
    ⟨?_, ?_, Event.lines reports₂, recounts₂.last.trans recounts.last.symm, ?_⟩, ?_,
    plain.unlogged discreet, lined.unlogged discreet, json.unlogged discreet⟩
  · rw [shown₁.out]
    exact (outBytes_texts _ _).trans (by rw [Event.texts_between, same₁])
  · rw [shown₂.out]
    exact (outBytes_texts _ _).trans (by rw [Event.texts_between, same₂])
  · rw [shown₁.notes]
    exact errBytes_plain (not_cancelled recounts₁.report)
  · rw [shown.notes]
    exact errBytes_json _
  · have err : lined.final.notes = _ := shown₂.notes
    rw [err, List.flatMap_cons, List.flatMap_append, errBytes_reports _ recounts₂.report,
      ← List.flatMap_append, ← List.flatMap_cons]
    rfl
  · intro r hr
    rcases List.mem_append.mp hr with hr | hr
    · rcases List.mem_append.mp hr with hr | hr
      · exact (shown₁.light r hr).1
      · exact (shown₂.light r hr).1
    · exact (shown.light r hr).1

/-! ## A script that prints itself -/

/-- An interpreter whose scripts print themselves, between two lines. -/
def echo : Interpreter World (List Signal) where
  launch _ p _ := [.line 1, .write p.source.data.toList, .line 2, .ended none]
  signal s := s.headD (.ended none)
  work s w := (s.tail, w)
  answerLine s _ := s.tail
  answerWrite s _ := s.tail
  close s := s.tail

/-- A world with one script, of two characters in three bytes. -/
def oneFile : World := { files := { entries := [(["a.lua"], .file ⟨#[0x68, 0xC3, 0xA9]⟩)] } }

/-- The script in this world, which stands still. -/
def oneFileScenario : Scenario World where
  payload := { source := ⟨#[0x68, 0xC3, 0xA9]⟩, searchDirs := Job.searchDirs oneFile "a.lua" [] }
  chunkName := ({} : Settings).chunkName
  start w := w = oneFile
  drift _ _ := False

theorem oneFileScenario_deterministic : oneFileScenario.Deterministic echo := by
  have one : ∀ w, oneFileScenario.start w → w = oneFile := fun _ h => h
  have still : ∀ w w', oneFileScenario.drift w w' → w' = w := fun _ _ h => h.elim
  exact Scenario.deterministic_of_still one still

theorem oneFileScenario_discreet : oneFileScenario.Discreet echo := by
  intro w h
  have executed {l : List Signal} {x : Option (List Signal)} {w : World} (h : oneFileScenario.Executes echo l x w) :
      w = oneFile := by
    induction h with
    | start h => exact h
    | drift _ hw => exact hw.elim
    | launch _ ih | work _ _ ih | line _ _ ih | write _ _ ih => exact ih
  have same : w = oneFile := by
    rcases h with ⟨l, x, way⟩ | ⟨l, failure, m, s, closes⟩
    · exact executed way
    · induction closes with
      | close way => exact executed way
      | drift _ hw => exact hw.elim
      | work _ _ ih | line _ _ ih | write _ _ ih => exact ih
  rw [same]
  exact ⟨rfl, rfl, rfl, rfl⟩

/-- The command begins. -/
def oneFileJob (json lines : Bool) : Job (List Signal) :=
  .start echo ⟨false, .run "a.lua" [] json lines none⟩ oneFile

def begins (json lines : Bool) : Begun oneFileScenario echo "a.lua" [] json lines where
  timeout := none
  verbose := false
  world := oneFile
  ready := rfl
  job := oneFileJob json lines
  starts := rfl
  launched := by cases json <;> cases lines <;> decide +kernel
  payload := by cases json <;> cases lines <;> decide +kernel
  chunkName := by cases json <;> cases lines <;> decide +kernel

/-- In text mode the program lets its rounds pass. -/
def inRounds (lines : Bool) : Printout oneFileScenario echo "a.lua" [] false lines :=
  { begins false lines with
    final := (List.replicate 20 ⟨1⟩).foldl (Job.advance echo) (oneFileJob false lines)
    course := by
      obtain ⟨s, attended⟩ := (begins false lines).attended
      exact Job.Course.start.rounds oneFileScenario_discreet attended _
    code := 0
    ended := by cases lines <;> decide +kernel
    inTime := by cases lines <;> decide +kernel }

/-- The script has ended before its output is looked at, one byte at a time. -/
def singleSteps : List (Actor ⊕ Instant) :=
  .replicate 14 (.inl (.worker 0)) ++ [.inr ⟨1⟩] ++
    (List.replicate 3 [.inl (.pump 0 (.upTo 1)), .inl (.pump 0 .nothing), .inl (.pump 0 .nothing),
      .inr ⟨1⟩]).flatten ++
    .replicate 2 (.inl (.pump 0 (.upTo 1))) ++ .replicate 6 (.inl (.worker 0)) ++ [.inr ⟨2⟩, .inr ⟨3⟩]

/-- In JSON mode somebody is in no hurry. -/
def byteByByte : Printout oneFileScenario echo "a.lua" [] true false :=
  { begins true false with
    final := (singleSteps.foldlM (Job.go? echo) (oneFileJob true false)).get (by decide +kernel)
    course := .of_go .start (Option.some_get _).symm
    code := 0
    ended := by decide +kernel
    inTime := by decide +kernel }

/-- A script whose output comes as one piece in text mode and as two in JSON mode. -/
theorem modes_agree_echo :
    oneFileScenario.Deterministic echo ∧ oneFileScenario.Discreet echo ∧
      (inRounds true).final.stdout = [0x68, 0xC3, 0xA9] ∧ (inRounds false).final.stderr = [] ∧
      ∃ reports o, byteByByte.final.stdout = (Event.started :: (reports ++ [.stopped o])).flatMap
          (fun e => bytesOf (e.toJson ++ "\n")) ∧
        bytesOf (Event.texts reports) = [0x68, 0xC3, 0xA9] ∧ (0 : Nat) = o.exitCode := by
  obtain ⟨reports, o, _, json, ⟨plain, lined⟩, ⟨code, _⟩, ⟨notes, _⟩, _, unlogged, _⟩ :=
    modes_agree oneFileScenario_deterministic oneFileScenario_discreet (inRounds false) (inRounds true) byteByByte
  have bytes : (inRounds true).final.stdout = [0x68, 0xC3, 0xA9] := by decide +kernel
  have err : (inRounds false).final.stderr = [] := (unlogged ⟨rfl, rfl⟩).trans notes
  exact ⟨oneFileScenario_deterministic, oneFileScenario_discreet, bytes, err, reports, o, json,
    lined.symm.trans bytes, code⟩

end CommandLine
end ScriptHost
