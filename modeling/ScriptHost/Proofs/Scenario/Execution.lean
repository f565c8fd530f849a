import Mathlib.Logic.Relation
import ScriptHost.Interpreter

/-!
# What a script executes

A script that is not stopped, and whose writes succeed, shows its worker lines
and bytes and then ends; its finalizers write behind that. What it shows can
depend on the world, which others may change meanwhile. A `Scenario` says which
script is executed, in which worlds it may be launched, and what others may do to
the world.

* `Scenario.Executes`: what the script has shown so far.
* `Scenario.Closes`: what its finalizers have shown so far.
* `Scenario.Deterministic`: all that it can show up to its end is one and the same.
* `Scenario.deterministic_of_still`: so it is in a world that nobody else changes.
-/
namespace ScriptHost

/-! ## What is shown -/

deriving instance DecidableEq for Signal

theorem Payload.eq_iff (p q : Payload) :
    p = q ↔ p.source = q.source ∧ p.searchDirs = q.searchDirs := by
  cases p
  cases q
  rw [Payload.mk.injEq]

-- The comparisons are named, since an order on texts, say, would bring another one.
instance : DecidableEq Payload := fun p q =>
  have := ByteArray.instDecidableEq p.source q.source
  have := @instDecidableEqList _ instDecidableEqString p.searchDirs q.searchDirs
  decidable_of_iff _ (p.eq_iff q).symm

namespace Signal

/-- The script goes on, and its worker has nothing to do for it. -/
def isInner : Signal → Bool
  | .working | .waiting => true
  | _ => false

/-- The line that is published, if one is. -/
def line? : Signal → Option UInt32
  | .line n => if 0 ≤ n then some (UInt32.ofNat n.toNat) else none
  | _ => none

/-- The bytes that are written. -/
def bytes : Signal → List UInt8
  | .write b => b
  | _ => []

/-- The lines that are published. -/
def lines (l : List Signal) : List UInt32 := l.filterMap line?

/-- All that is written. -/
def writes (l : List Signal) : List UInt8 := l.flatMap bytes

@[simp] theorem lines_nil : lines [] = [] := rfl

@[simp] theorem writes_nil : writes [] = [] := rfl

@[simp] theorem lines_append (xs ys : List Signal) : lines (xs ++ ys) = lines xs ++ lines ys :=
  List.filterMap_append

@[simp] theorem writes_append (xs ys : List Signal) : writes (xs ++ ys) = writes xs ++ writes ys :=
  List.flatMap_append

theorem lines_line (n : Int) :
    lines [.line n] = if 0 ≤ n then [UInt32.ofNat n.toNat] else [] := by
  by_cases h : 0 ≤ n <;> simp [lines, line?, h]

@[simp] theorem writes_line (n : Int) : writes [.line n] = [] := rfl

@[simp] theorem lines_write (b : List UInt8) : lines [.write b] = [] := rfl

@[simp] theorem writes_write (b : List UInt8) : writes [.write b] = b := List.append_nil b

end Signal

/-! ## Executes -/

/-- A script and the world in which it is executed. -/
structure Scenario (ω : Type) where
  payload : Payload
  chunkName : String
  /-- The worlds in which it may be launched. -/
  start : ω → Prop
  /-- What others may make of the world until the script and its finalizers have ended. -/
  drift : ω → ω → Prop

namespace Scenario

variable {ω σ : Type} {P : Scenario ω} {I : Interpreter ω σ}

/-- What the script has shown so far, and where it and the world are then; it is not stopped at a
line, and no write fails. Nothing is shown before it is launched. -/
inductive Executes (P : Scenario ω) (I : Interpreter ω σ) : List Signal → Option σ → ω → Prop where
  | start {w : ω} (h : P.start w) : Executes P I [] none w
  | drift {l : List Signal} {x : Option σ} {w w' : ω} (h : Executes P I l x w) (hw : P.drift w w') :
    Executes P I l x w'
  | launch {w : ω} (h : Executes P I [] none w) :
    Executes P I [] (some (I.launch w P.payload P.chunkName)) w
  | work {l : List Signal} {s : σ} {w : ω} (h : Executes P I l (some s) w)
    (inner : (I.signal s).isInner = true) : Executes P I l (some (I.work s w).1) (I.work s w).2
  | line {l : List Signal} {s : σ} {w : ω} {n : Int} (h : Executes P I l (some s) w)
    (shown : I.signal s = .line n) : Executes P I (l ++ [.line n]) (some (I.answerLine s false)) w
  | write {l : List Signal} {s : σ} {w : ω} {b : List UInt8} (h : Executes P I l (some s) w)
    (shown : I.signal s = .write b) : Executes P I (l ++ [.write b]) (some (I.answerWrite s none)) w

/-- Others have left the world as it is, or changed it as the scenario allows. -/
theorem Executes.of_world {l : List Signal} {x : Option σ} {w w' : ω} (h : P.Executes I l x w)
    (world : w' = w ∨ P.drift w w') : P.Executes I l x w' := by
  rcases world with rfl | drift
  · exact h
  · exact h.drift drift

/-- What the finalizers have shown so far of a script that has shown `l` up to its end. -/
inductive Closes (P : Scenario ω) (I : Interpreter ω σ) (l : List Signal) (failure : Option String) :
    List Signal → σ → ω → Prop where
  | close {s : σ} {w : ω} (h : P.Executes I l (some s) w) (ended : I.signal s = .ended failure) :
    Closes P I l failure [] (I.close s) w
  | drift {m : List Signal} {s : σ} {w w' : ω} (h : Closes P I l failure m s w) (hw : P.drift w w') :
    Closes P I l failure m s w'
  | work {m : List Signal} {s : σ} {w : ω} (h : Closes P I l failure m s w)
    (inner : (I.signal s).isInner = true) : Closes P I l failure m (I.work s w).1 (I.work s w).2
  | line {m : List Signal} {s : σ} {w : ω} {n : Int} (h : Closes P I l failure m s w)
    (shown : I.signal s = .line n) : Closes P I l failure (m ++ [.line n]) (I.answerLine s false) w
  | write {m : List Signal} {s : σ} {w : ω} {b : List UInt8} (h : Closes P I l failure m s w)
    (shown : I.signal s = .write b) : Closes P I l failure (m ++ [.write b]) (I.answerWrite s none) w

theorem Closes.of_world {l m : List Signal} {failure : Option String} {s : σ} {w w' : ω}
    (h : P.Closes I l failure m s w) (world : w' = w ∨ P.drift w w') : P.Closes I l failure m s w' := by
  rcases world with rfl | drift
  · exact h
  · exact h.drift drift

/-- The script has been executed behind what its finalizers show. -/
theorem Closes.executes {l m : List Signal} {failure : Option String} {s : σ} {w : ω}
    (h : P.Closes I l failure m s w) : ∃ s w, P.Executes I l (some s) w ∧ I.signal s = .ended failure := by
  induction h with
  | close h ended => exact ⟨_, _, h, ended⟩
  | drift _ _ ih | work _ _ ih | line _ _ ih | write _ _ ih => exact ih

/-- A world in which the script or a finalizer of it can be at work. -/
def Sees (P : Scenario ω) (I : Interpreter ω σ) (w : ω) : Prop :=
  (∃ l x, P.Executes I l x w) ∨ ∃ l failure m s, P.Closes I l failure m s w

theorem Sees.of_world {w w' : ω} (h : P.Sees I w) (world : w' = w ∨ P.drift w w') : P.Sees I w' :=
  h.imp (fun ⟨l, x, way⟩ => ⟨l, x, way.of_world world⟩)
    fun ⟨l, failure, m, s, closes⟩ => ⟨l, failure, m, s, closes.of_world world⟩

/-- All that the script shows up to its end, the text of its error if it fails, and all that its
finalizers write. -/
def Ends (P : Scenario ω) (I : Interpreter ω σ) (l : List Signal) (failure : Option String)
    (finals : List UInt8) : Prop :=
  ∃ m s w e, P.Closes I l failure m s w ∧ I.signal s = .ended e ∧ finals = Signal.writes m

/-- There is one thing only that the script can show up to its end. -/
def Deterministic (P : Scenario ω) (I : Interpreter ω σ) : Prop :=
  ∀ l failure finals l' failure' finals', P.Ends I l failure finals → P.Ends I l' failure' finals' →
    l = l' ∧ failure = failure' ∧ finals = finals'

/-- A script shows a line before it writes anything, as every script does whose interpreter shows a
line before it executes the first instruction of it. -/
def LineFirst (P : Scenario ω) (I : Interpreter ω σ) : Prop :=
  ∀ l s w, P.Executes I l (some s) w → Signal.writes l ≠ [] → Signal.lines l ≠ []

/-! ## A world that stands still -/

/-- How a script that is under way goes on by itself. -/
inductive Goes (P : Scenario ω) (I : Interpreter ω σ) :
    List Signal × Option σ × ω → List Signal × Option σ × ω → Prop where
  | launch {l : List Signal} {w : ω} :
    Goes P I (l, none, w) (l, some (I.launch w P.payload P.chunkName), w)
  | work {l : List Signal} {s : σ} {w : ω} (inner : (I.signal s).isInner = true) :
    Goes P I (l, some s, w) (l, some (I.work s w).1, (I.work s w).2)
  | line {l : List Signal} {s : σ} {w : ω} {n : Int} (shown : I.signal s = .line n) :
    Goes P I (l, some s, w) (l ++ [.line n], some (I.answerLine s false), w)
  | write {l : List Signal} {s : σ} {w : ω} {b : List UInt8} (shown : I.signal s = .write b) :
    Goes P I (l, some s, w) (l ++ [.write b], some (I.answerWrite s none), w)

/-- There is one way for it to go. -/
theorem goes_unique : Relator.RightUnique (Goes P I) := by
  intro x y z hy hz
  cases hy with
  | launch =>
    cases hz
    rfl
  | work inner =>
    cases hz with
    | work => rfl
    | line shown | write shown =>
      rw [shown] at inner
      cases inner
  | line shown =>
    cases hz with
    | work inner =>
      rw [shown] at inner
      cases inner
    | line shown' =>
      rw [shown] at shown'
      cases shown'
      rfl
    | write shown' =>
      rw [shown] at shown'
      cases shown'
  | write shown =>
    cases hz with
    | work inner =>
      rw [shown] at inner
      cases inner
    | line shown' =>
      rw [shown] at shown'
      cases shown'
    | write shown' =>
      rw [shown] at shown'
      cases shown'
      rfl

/-- It does not go on behind its end. -/
theorem not_goes_of_ended {l : List Signal} {s : σ} {w : ω} {failure : Option String}
    {y : List Signal × Option σ × ω} (ended : I.signal s = .ended failure) :
    ¬ Goes P I (l, some s, w) y := by
  intro h
  cases h with
  | work inner =>
    rw [ended] at inner
    cases inner
  | line shown | write shown =>
    rw [ended] at shown
    cases shown

/-- What goes one way comes to one end. -/
theorem end_unique {x y z : List Signal × Option σ × ω} (hy : Relation.ReflTransGen (Goes P I) x y)
    (hz : Relation.ReflTransGen (Goes P I) x z) (endY : ∀ a, ¬ Goes P I y a)
    (endZ : ∀ a, ¬ Goes P I z a) : y = z := by
  rcases Relation.ReflTransGen.total_of_right_unique goes_unique hy hz with on | on
  · rcases on.cases_head with same | ⟨_, step, _⟩
    · exact same
    · exact absurd step (endY _)
  · rcases on.cases_head with same | ⟨_, step, _⟩
    · exact same.symm
    · exact absurd step (endZ _)

section
variable {w₀ : ω} (one : ∀ w, P.start w → w = w₀) (still : ∀ w w', P.drift w w' → w' = w)
include still

/-- Where nobody else changes the world, finalizers go the one way from the closing. -/
theorem Closes.goes {l m : List Signal} {failure : Option String} {s : σ} {w : ω}
    (h : P.Closes I l failure m s w) : ∃ s₁ w₁, P.Executes I l (some s₁) w₁ ∧
      I.signal s₁ = .ended failure ∧
      Relation.ReflTransGen (Goes P I) ([], some (I.close s₁), w₁) (m, some s, w) := by
  induction h with
  | close h ended => exact ⟨_, _, h, ended, .refl⟩
  | drift _ hw ih =>
    rw [still _ _ hw]
    exact ih
  | work _ inner ih =>
    obtain ⟨s₁, w₁, way, ended, goes⟩ := ih
    exact ⟨s₁, w₁, way, ended, goes.tail (.work inner)⟩
  | line _ shown ih =>
    obtain ⟨s₁, w₁, way, ended, goes⟩ := ih
    exact ⟨s₁, w₁, way, ended, goes.tail (.line shown)⟩
  | write _ shown ih =>
    obtain ⟨s₁, w₁, way, ended, goes⟩ := ih
    exact ⟨s₁, w₁, way, ended, goes.tail (.write shown)⟩

include one

/-- And every execution goes the one way from the one world there is. -/
theorem Executes.goes {l : List Signal} {x : Option σ} {w : ω} (h : P.Executes I l x w) :
    Relation.ReflTransGen (Goes P I) ([], none, w₀) (l, x, w) := by
  induction h with
  | start h => rw [one _ h]
  | drift _ hw ih =>
    rw [still _ _ hw]
    exact ih
  | launch _ ih => exact ih.tail .launch
  | work _ inner ih => exact ih.tail (.work inner)
  | line _ shown ih => exact ih.tail (.line shown)
  | write _ shown ih => exact ih.tail (.write shown)

/-- **A script is deterministic in a world that nobody else changes.** -/
theorem deterministic_of_still : P.Deterministic I := by
  rintro l failure finals l' failure' finals' ⟨m, s, w, e, closes, ended, rfl⟩
    ⟨m', s', w', e', closes', ended', rfl⟩
  obtain ⟨s₁, w₁, way, stopped, goes⟩ := closes.goes still
  obtain ⟨s₁', w₁', way', stopped', goes'⟩ := closes'.goes still
  -- the script has one end, and from there its finalizers have one end
  have same := end_unique (way.goes one still) (way'.goes one still)
    (fun _ => not_goes_of_ended stopped) fun _ => not_goes_of_ended stopped'
  cases same
  rw [stopped] at stopped'
  cases stopped'
  have same := end_unique goes goes' (fun _ => not_goes_of_ended ended) fun _ =>
    not_goes_of_ended ended'
  cases same
  exact ⟨rfl, rfl, rfl⟩

end

end Scenario
end ScriptHost
