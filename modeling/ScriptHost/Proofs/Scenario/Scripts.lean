import ScriptHost.Proofs.Script.FirstLine
import ScriptHost.Proofs.Scenario.Independence

/-!
# The runs of an engine do not know of each other

The scripts of an engine show a line before they write anything, whatever they are and in whatever
world: the interpreter reports the line of the first instruction that a script itself has brought.
So nothing is left open of the next run of an engine that has done whatever it has done.

* `Script.lineFirst`: a line comes first.
* `Ensemble.independent_of_history`: the next run is heard as on a new engine.
-/
namespace ScriptHost

open Script

theorem Script.lineFirst (P : Scenario World) : P.LineFirst interpreter := by
  -- as long as no line was shown, nothing was, and the script is fresh
  have fresh {l : List Signal} {x : Option Execution} {w : World} (h : P.Executes interpreter l x w) :
      (l = [] ∧ ∀ e ∈ x, e.Fresh) ∨ Signal.lines l ≠ [] := by
    induction h with
    | start => exact .inl ⟨rfl, fun e he => absurd he (Option.not_mem_none e)⟩
    | drift _ _ ih => exact ih
    | launch =>
      refine .inl ⟨rfl, fun e he => ?_⟩
      obtain rfl := Option.some.inj he
      exact Execution.fresh_launch ..
    | @work l s w _ inner ih =>
      refine ih.imp_left fun ⟨silent, fresh⟩ => ⟨silent, fun e he => ?_⟩
      obtain rfl := Option.some.inj he
      exact (fresh s rfl).work w inner
    | @line l s w n _ shown ih =>
      rw [Signal.lines_append]
      rcases ih with ⟨rfl, fresh⟩ | lines
      · refine .inr (List.append_ne_nil_of_right_ne_nil _ ?_)
        rcases (fresh s rfl).signal with ⟨text, other⟩ | other | ⟨k, other⟩
        all_goals rw [show interpreter.signal s = s.signal from rfl, other] at shown; cases shown
        rw [Signal.lines_line, if_pos (Int.natCast_nonneg k)]
        exact List.cons_ne_nil _ _
      · exact .inr (List.append_ne_nil_of_left_ne_nil lines _)
    | @write l s w b _ shown ih =>
      rw [Signal.lines_append]
      rcases ih with ⟨rfl, fresh⟩ | lines
      · rcases (fresh s rfl).signal with ⟨text, other⟩ | other | ⟨k, other⟩
        all_goals rw [show interpreter.signal s = s.signal from rfl, other] at shown; cases shown
      · exact .inr (List.append_ne_nil_of_left_ne_nil lines _)
  intro l s w h written
  rcases fresh h with ⟨rfl, -⟩ | lines
  · exact absurd rfl written
  · exact lines

namespace Ensemble

/-- It has two lines. -/
def twoLocals : ByteArray := "local a\nlocal b".toUTF8

/-- A worker goes on for some steps. -/
def working (id n : Nat) : List (Label World) := .replicate n (.other (.worker id))

/-- A pump reads what is there, up to so many bytes, and then finds nothing. -/
def pumping (id n : Nat) : List (Label World) :=
  [.other (.pump id (.upTo n)), .other (.pump id .nothing), .other (.pump id .nothing)]

/-- The receiver goes on for some steps. -/
def hearing (n : Nat) : List (Label World) := .replicate n .take

/-- A launch fails, a script that is none is refused, and the lines of a run are heard one by one. -/
def earlierRuns : List (Label World) := List.flatten
  [[.setScript ")".toUTF8, .start (.noChannel .brokenPipe)], hearing 2,
    [.start .works], working 1 6, pumping 1 64, pumping 1 64, working 1 4, hearing 6,
    [.setScript twoLocals, .start .works, .goOn], working 2 7, hearing 7, working 2 9, pumping 2 64,
    working 2 4, hearing 7]

/-- The state behind it. -/
def afterEarlierRuns : Ensemble World Execution :=
  (exec interpreter (initial {} {}) earlierRuns).get (by decide +kernel)

theorem exec_earlierRuns : exec interpreter (initial {} {}) earlierRuns = some afterEarlierRuns :=
  (Option.some_get _).symm

/-- The script in the world as it was left, which stands still. -/
def twoLocalsScenario : Scenario World where
  payload := { source := twoLocals }
  chunkName := ({} : Settings).chunkName
  start w := w = afterEarlierRuns.engine.world
  drift _ _ := False

theorem twoLocalsScenario_deterministic : twoLocalsScenario.Deterministic interpreter :=
  Scenario.deterministic_of_still (fun _ h => h) fun _ _ h => h.elim

/-- The next run of the used engine. -/
def laterRun : List (Label World) := List.flatten
  [[.start .works, .goOn], working 3 15, pumping 3 64, working 3 4]

/-- The first run of a new engine, whose pump is early. -/
def firstRun : List (Label World) := List.flatten
  [[.setScript twoLocals, .start .works], working 0 5, pumping 0 1, working 0 10, pumping 0 64, working 0 4]

/-- The used engine at the end of the run. -/
def afterLaterRun : Ensemble World Execution :=
  (exec interpreter afterEarlierRuns laterRun).get (by decide +kernel)

/-- The new engine at the end of the run. -/
def afterFirstRun : Ensemble World Execution :=
  (exec interpreter (initial {} afterEarlierRuns.engine.world) firstRun).get (by decide +kernel)

/-- The next run of an engine, if nobody else is in its way, by what is true at its end and when all of
it is taken. -/
def NextRun.alone {P : Scenario World} {launch : Launch} {s ended final : Ensemble World Execution}
    {before after : List (Label World)} (ready : P.start s.engine.world)
    (course : exec interpreter s before = some ended) (behind : exec interpreter ended after = some final)
    (own : before.all (Label.isAlone s.engine.runs.size) = true) (untaken : .take ∉ before)
    (smooth : ∀ l ∈ before ++ after, Patient l ∧ l ≠ .other (.fault s.engine.runs.size))
    (ending : .launched s.engine.runs.size launch ∈ ended.log ∧
      (ended.engine.run s.engine.runs.size).payload = P.payload ∧
      (ended.engine.run s.engine.runs.size).chunkName = P.chunkName ∧
      (ended.engine.run s.engine.runs.size).token = false ∧
      (ended.engine.queue.slot s.engine.runs.size).abandoned = false ∧
      (ended.engine.run s.engine.runs.size).stage.isMute = true)
    (leaving : final.engine.runs.size = s.engine.runs.size + 1 ∧
      .abandoned s.engine.runs.size ∉ final.log ∧ ∀ m ∈ final.pending, m.run ≠ s.engine.runs.size) :
    NextRun P interpreter launch s where
  before := before
  ended := ended
  after := after
  final := final
  passes := .of_alone ready course own
  behind := behind
  untaken := untaken
  smooth := smooth
  launched := ending.1
  unasked := ⟨ending.2.1, ending.2.2.1, ending.2.2.2.1, ending.2.2.2.2.1⟩
  mute := ending.2.2.2.2.2
  single := leaving.1
  kept := leaving.2.1
  taken := leaving.2.2

def asLaterRun : NextRun twoLocalsScenario interpreter .works afterEarlierRuns :=
  .alone rfl (Option.some_get _).symm
    (Option.some_get (show (exec interpreter afterLaterRun (hearing 9)).isSome by decide +kernel)).symm
    (by decide +kernel) (by simp [laterRun, working, pumping])
    (untroubled_of_all rfl) (by decide +kernel) (by decide +kernel)

def asFirstRun : NextRun twoLocalsScenario interpreter .works (initial {} afterEarlierRuns.engine.world) :=
  .alone rfl (Option.some_get _).symm
    (Option.some_get (show (exec interpreter afterFirstRun (hearing 9)).isSome by decide +kernel)).symm
    (by decide +kernel) (by simp [firstRun, working, pumping])
    (untroubled_of_all rfl) (by decide +kernel) (by decide +kernel)

end Ensemble
end ScriptHost
