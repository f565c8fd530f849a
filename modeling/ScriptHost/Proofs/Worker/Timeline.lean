import ScriptHost.Proofs.Worker.Protocol
import ScriptHost.Proofs.Delivery.Grammar
import ScriptHost.Script.Execution

/-!
# Workers come to their end

A `Timeline` is a worker and others at work for ever, each step the worker's or
another's. It is `Fair` when the worker gets its turns, its wait for the output
is bounded, and its script is not kept waiting in vain.

* `Fair.gone_of_ends`: once the script and its finalizers have ended, so does the
  worker.
* `Fair.ends_of_halts`: a script with finitely many steps ahead, whatever they
  are answered, ends. One that goes on until it is told to stop may end as well.
* `worker_protocol`: the protocol, kept at every moment and brought to its end.
-/
namespace ScriptHost

namespace Run

variable {ω σ : Type} {I : Interpreter ω σ} {id : Nat} {x : Shared ω σ}

/-- Finitely many steps are ahead, whatever they are answered, and at their end `Q` holds. -/
inductive Halts (I : Interpreter ω σ) (Q : σ → Prop) : σ → Prop where
  | ended {s : σ} {failure : Option String} (h : I.signal s = .ended failure) (q : Q s) : Halts I Q s
  | working {s : σ} (h : I.signal s = .working) (next : ∀ w, Halts I Q (I.work s w).1) : Halts I Q s
  | waiting {s : σ} (h : I.signal s = .waiting)
    (next : ∀ w, (I.work s w).1 ≠ s → Halts I Q (I.work s w).1) : Halts I Q s
  | line {s : σ} {n : Int} (h : I.signal s = .line n)
    (next : ∀ stop, Halts I Q (I.answerLine s stop)) : Halts I Q s
  | write {s : σ} {bytes : List UInt8} (h : I.signal s = .write bytes)
    (next : ∀ e, Halts I Q (I.answerWrite s e)) : Halts I Q s

/-- A script has finitely many steps ahead, and its finalizers have behind it. -/
def Finite (I : Interpreter ω σ) : σ → Prop := Halts I fun s => Halts I (fun _ => True) (I.close s)

/-- A worker and others at work for ever. -/
structure Timeline (I : Interpreter ω σ) (id : Nat) where
  state : Nat → Shared ω σ
  /-- The next step is the worker's. -/
  turn : Nat → Bool
  own : ∀ n, turn n = true → state (n + 1) = workerStep I id (state n)
  others : ∀ n, turn n = false → Meddles (state n).run (state (n + 1)).run

namespace Timeline

variable (t : Timeline I id)

def stage (n : Nat) : Stage σ := (t.state n).run.stage

/-- What the worker has done before a moment. -/
def done : Nat → List Deed
  | 0 => []
  | n + 1 => done n ++ if t.turn n then deeds I id (t.state n) else []

/-- The script has come to its end, and its finalizers as well. -/
def Ends : Prop := ∃ n s o failure, t.stage n = .finalizing s o ∧ I.signal s = .ended failure

structure Fair : Prop where
  turns : ∀ n, ∃ m, n ≤ m ∧ t.turn m = true
  /-- The output is taken at last, or the worker's patience is at its end. -/
  patience : ∀ n o, ∃ m, n ≤ m ∧ (t.stage m = .draining o → (t.state m).run.drained ≠ .waiting)
  released : ∀ n s, I.signal s = .waiting →
    ∃ m, n ≤ m ∧ t.stage m ≠ .executing s ∧ ∀ o, t.stage m ≠ .finalizing s o

theorem course (n : Nat) : Course I id (t.state 0) (t.done n) (t.state n) := by
  induction n with
  | zero => exact .start
  | succ n ih =>
    cases turn : t.turn n with
    | true =>
      rw [done, turn, t.own n turn]
      exact ih.act
    | false =>
      rw [done, turn]
      simpa using ih.meddle (t.others n turn)

end Timeline

/-! ## Leading on -/

/-- What goes on unless something happens goes on up to any moment, or that has happened. -/
theorem goes_on {P Q : Nat → Prop} (step : ∀ n, P n → P (n + 1) ∨ Q n) {n m : Nat}
    (h : P n) (le : n ≤ m) : P m ∨ ∃ k, n ≤ k ∧ Q k := by
  induction m, le using Nat.le_induction with
  | base => exact .inl h
  | succ m le ih =>
    rcases ih with h | happened
    · exact (step m h).imp_right fun q => ⟨m, le, q⟩
    · exact .inr happened

theorem workerStep_script (I : Interpreter ω σ) (id : Nat) (x : Shared ω σ) :
    (workerStep I id x).run.payload = x.run.payload ∧
      (workerStep I id x).run.chunkName = x.run.chunkName := by
  obtain ⟨r, q, w⟩ := x
  cases hs : r.stage with
  | executing s =>
    simp only [workerStep, execute, hs]
    cases I.signal s with
    | line n => dsimp only; split <;> exact ⟨rfl, rfl⟩
    | write bytes => dsimp only; split <;> exact ⟨rfl, rfl⟩
    | _ => exact ⟨rfl, rfl⟩
  | finalizing s o =>
    simp only [workerStep, finalize, hs]
    cases I.signal s with
    | write bytes => dsimp only; split <;> exact ⟨rfl, rfl⟩
    | _ => exact ⟨rfl, rfl⟩
  | _ => simp only [workerStep, hs, and_self]

namespace Timeline

variable {t : Timeline I id}

theorem script (t : Timeline I id) (n : Nat) :
    (t.state n).run.payload = (t.state 0).run.payload ∧
      (t.state n).run.chunkName = (t.state 0).run.chunkName := by
  induction n with
  | zero => exact ⟨rfl, rfl⟩
  | succ n ih =>
    have step : (t.state (n + 1)).run.payload = (t.state n).run.payload ∧
        (t.state (n + 1)).run.chunkName = (t.state n).run.chunkName := by
      cases turn : t.turn n with
      | true =>
        rw [t.own n turn]
        exact workerStep_script I id _
      | false => exact (t.others n turn).script
    exact ⟨step.1.trans ih.1, step.2.trans ih.2⟩

namespace Fair

/-- What others leave as it is, the worker comes to act upon. -/
theorem acts {P : Run σ → Prop} (fair : t.Fair) (kept : ∀ r r', P r → Meddles r r' → P r')
    {n : Nat} (h : P (t.state n).run) :
    ∃ m, n ≤ m ∧ P (t.state m).run ∧ t.state (m + 1) = workerStep I id (t.state m) := by
  have step (k : Nat) (h : P (t.state k).run) :
      P (t.state (k + 1)).run ∨ P (t.state k).run ∧ t.turn k = true := by
    cases turn : t.turn k with
    | true => exact .inr ⟨h, rfl⟩
    | false => exact .inl (kept _ _ h (t.others k turn))
  obtain ⟨m, le, turn⟩ := fair.turns n
  rcases goes_on (P := fun k => P (t.state k).run) step h le with h | ⟨k, le, h, turn⟩
  · exact ⟨m, le, h, t.own m turn⟩
  · exact ⟨k, le, h, t.own k turn⟩

/-- A worker that does not wait for its output goes on. -/
theorem next {a : Stage σ} {B : Stage σ → Prop} (fair : t.Fair) {n : Nat} (h : t.stage n = a)
    (busy : ∀ o, a ≠ .draining o)
    (goes : ∀ x : Shared ω σ, x.run.stage = a → B (workerStep I id x).run.stage) :
    ∃ m, n ≤ m ∧ B (t.stage m) := by
  have kept (r r' : Run σ) (h : r.stage = a) (hm : Meddles r r') : r'.stage = a := by
    rcases hm.stage with same | ⟨o, before, _⟩
    · exact same.trans h
    · exact absurd (h.symm.trans before) (busy o)
  obtain ⟨m, le, at_m, step⟩ := fair.acts (P := fun r => r.stage = a) kept h
  exact ⟨m + 1, by omega, by rw [stage, step]; exact goes _ at_m⟩

/-- The same, where it is known what comes of the step. -/
theorem next_stage {a b : Stage σ} (fair : t.Fair) {n : Nat} (h : t.stage n = a)
    (busy : ∀ o, a ≠ .draining o)
    (goes : ∀ x : Shared ω σ, x.run.stage = a → (workerStep I id x).run.stage = b) :
    ∃ m, n ≤ m ∧ t.stage m = b :=
  fair.next (B := (· = b)) h busy goes

/-! ## Behind the script -/

/-- The wait for the output comes to its end. -/
theorem drains (fair : t.Fair) {n : Nat} {o : Outcome} (h : t.stage n = .draining o) :
    ∃ m, t.stage m = .stopping o := by
  have goes (x : Shared ω σ) (h : x.run.stage = .draining o) :
      (workerStep I id x).run.stage = if x.run.drained = .waiting then .draining o else .stopping o := by
    simp only [workerStep, h]
  have step (k : Nat) (h : t.stage k = .draining o) :
      t.stage (k + 1) = .draining o ∨ t.stage (k + 1) = .stopping o := by
    cases turn : t.turn k with
    | true =>
      rw [stage, t.own k turn, goes _ h]
      split
      · exact .inl rfl
      · exact .inr rfl
    | false =>
      rcases (t.others k turn).stage with same | ⟨o', before, after⟩
      · exact .inl (same.trans h)
      · cases h.symm.trans before
        exact .inr after
  obtain ⟨m, le, ready⟩ := fair.patience n o
  rcases goes_on step h le with still | ⟨k, _, left⟩
  · have kept (r r' : Run σ) (h : (r.stage = .draining o ∨ r.stage = .stopping o) ∧ r.drained ≠ .waiting)
        (hm : Meddles r r') :
        (r'.stage = .draining o ∨ r'.stage = .stopping o) ∧ r'.drained ≠ .waiting := by
      refine ⟨?_, hm.drained h.2⟩
      rcases hm.stage with same | ⟨o', before, after⟩
      · exact same ▸ h.1
      · rcases h.1 with h | h <;> cases h.symm.trans before
        exact .inr after
    obtain ⟨k, _, ⟨at_k | at_k, told⟩, step⟩ := fair.acts kept ⟨.inl still, ready still⟩
    · exact ⟨k + 1, by rw [stage, step, goes _ at_k, if_neg told]⟩
    · exact ⟨k, at_k⟩
  · exact ⟨k + 1, left⟩

/-- From its last step but five on a worker ends. -/
theorem gone_of_closing (fair : t.Fair) {n : Nat} {o : Outcome} (h : t.stage n = .closing o) :
    ∃ n, t.stage n = .gone := by
  obtain ⟨_, _, h⟩ := fair.next_stage (b := .draining o) h (by simp) fun x h => by simp only [workerStep, h]
  obtain ⟨_, h⟩ := fair.drains h
  obtain ⟨_, _, h⟩ := fair.next_stage (b := .leaving o) h (by simp) fun x h => by simp only [workerStep, h]
  obtain ⟨_, _, h⟩ := fair.next_stage (b := .ending) h (by simp) fun x h => by simp only [workerStep, h]
  obtain ⟨n, _, h⟩ := fair.next_stage (b := .gone) h (by simp) fun x h => by simp only [workerStep, h]
  exact ⟨n, h⟩

/-- Once its script and the finalizers have ended, a worker ends. -/
theorem gone_of_ends (fair : t.Fair) (ends : t.Ends) : ∃ n, t.stage n = .gone := by
  obtain ⟨n, s, o, failure, h, shown⟩ := ends
  obtain ⟨_, _, h⟩ := fair.next_stage (b := .closing o) h (by simp) fun x h => by
    simp only [workerStep, finalize, h, shown]
  exact fair.gone_of_closing h

/-! ## The script -/

/-- A fresh worker launches its script. -/
theorem launches (fair : t.Fair) (h : t.stage 0 = .created) : ∃ n w,
    t.stage n = .executing (I.launch w (t.state 0).run.payload (t.state 0).run.chunkName) := by
  obtain ⟨m, _, h⟩ := fair.next_stage (b := .announced) h (by simp) fun x h => by simp only [workerStep, h]
  have kept (r r' : Run σ) (h : r.stage = .announced) (hm : Meddles r r') : r'.stage = .announced := by
    rcases hm.stage with same | ⟨o, before, _⟩
    · exact same.trans h
    · cases h.symm.trans before
  obtain ⟨m, _, h, step⟩ := fair.acts kept h
  refine ⟨m + 1, (t.state m).world, ?_⟩
  rw [stage, step, ← (t.script m).1, ← (t.script m).2]
  simp only [workerStep, h]

/-- A line is published and tested, and the script gets to know of it. -/
theorem answers (fair : t.Fair) {s : σ} {l : Int} (shown : I.signal s = .line l) {n : Nat}
    (h : t.stage n = .executing s) : ∃ m stop, t.stage m = .executing (I.answerLine s stop) := by
  have tests {n : Nat} (h : t.stage n = .testing s) :
      ∃ m stop, t.stage m = .executing (I.answerLine s stop) := by
    obtain ⟨m, _, stop, h⟩ := fair.next (B := fun b => ∃ stop, b = .executing (I.answerLine s stop))
      h (by simp) fun x h => ⟨x.run.token, by simp only [workerStep, h]⟩
    exact ⟨m, stop, h⟩
  obtain ⟨n, _, h | h⟩ := fair.next (B := fun b => b = .lineStored s ∨ b = .testing s) h (by simp)
    fun x h => by
      simp only [workerStep, execute, h, shown]
      split
      · exact .inl rfl
      · exact .inr rfl
  · obtain ⟨n, _, h | h⟩ := fair.next (B := fun b => b = .testing s ∨ b = .lineMarked s) h (by simp)
      fun x h => by
        simp only [workerStep, h]
        split
        · exact .inl rfl
        · exact .inr rfl
    · exact tests h
    · obtain ⟨_, _, h⟩ := fair.next_stage (b := .testing s) h (by simp) fun x h => by
        simp only [workerStep, h]
      exact tests h
  · exact tests h

/-- While the worker is at a stage `K s`, it serves the script, which is in the state `s`. -/
structure Serves (t : Timeline I id) (K : σ → Stage σ) : Prop where
  busy : ∀ s o, K s ≠ .draining o
  works : ∀ s (x : Shared ω σ), I.signal s = .working ∨ I.signal s = .waiting → x.run.stage = K s →
    (workerStep I id x).run.stage = K (I.work s x.world).1
  released : ∀ n s, I.signal s = .waiting → ∃ m, n ≤ m ∧ t.stage m ≠ K s
  line : ∀ s l n, I.signal s = .line l → t.stage n = K s → ∃ m stop, t.stage m = K (I.answerLine s stop)
  write : ∀ s bytes (x : Shared ω σ), I.signal s = .write bytes → x.run.stage = K s →
    ∃ e, (workerStep I id x).run.stage = K (I.answerWrite s e)

/-- It serves a script at work. -/
theorem executes (fair : t.Fair) : Serves t .executing where
  busy _ _ := nofun
  works s x shown h := by
    rcases shown with shown | shown <;> simp only [workerStep, execute, h, shown]
  released n s shown := by
    obtain ⟨m, le, left, _⟩ := fair.released n s shown
    exact ⟨m, le, left⟩
  line s l n shown h := fair.answers shown h
  write s bytes x shown h := by
    simp only [workerStep, execute, h, shown]
    split
    · exact ⟨none, rfl⟩
    · exact ⟨_, rfl⟩

/-- It serves finalizers, whose lines it does not look at. -/
theorem finalizes (fair : t.Fair) (o : Outcome) : Serves t (.finalizing · o) where
  busy _ _ := nofun
  works s x shown h := by
    rcases shown with shown | shown <;> simp only [workerStep, finalize, h, shown]
  released n s shown := by
    obtain ⟨m, le, _, left⟩ := fair.released n s shown
    exact ⟨m, le, left o⟩
  line s l n shown h := by
    obtain ⟨m, _, h⟩ := fair.next_stage (b := .finalizing (I.answerLine s false) o) h (by simp)
      fun x h => by simp only [workerStep, finalize, h, shown]
    exact ⟨m, false, h⟩
  write s bytes x shown h := by
    simp only [workerStep, finalize, h, shown]
    split
    · exact ⟨none, rfl⟩
    · exact ⟨_, rfl⟩

/-- What has finitely many steps ahead comes to their end. -/
theorem ends_of_halts {Q : σ → Prop} {K : σ → Stage σ} (fair : t.Fair) (serves : Serves t K) {s : σ}
    (hs : Halts I Q s) {n : Nat} (h : t.stage n = K s) :
    ∃ n s failure, t.stage n = K s ∧ I.signal s = .ended failure ∧ Q s := by
  induction hs generalizing n with
  | ended shown q => exact ⟨n, _, _, h, shown, q⟩
  | @working s shown _ ih =>
    obtain ⟨m, _, w, h⟩ := fair.next (B := fun b => ∃ w, b = K (I.work s w).1) h (serves.busy s)
      fun x h => ⟨x.world, serves.works s x (.inl shown) h⟩
    exact ih w h
  | @waiting s shown _ ih =>
    have step (k : Nat) (h : t.stage k = K s) : t.stage (k + 1) = K s ∨
        ∃ w, (I.work s w).1 ≠ s ∧ t.stage (k + 1) = K (I.work s w).1 := by
      cases turn : t.turn k with
      | true =>
        have goes : t.stage (k + 1) = K (I.work s (t.state k).world).1 := by
          rw [stage, t.own k turn]
          exact serves.works s _ (.inr shown) h
        by_cases same : (I.work s (t.state k).world).1 = s
        · exact .inl (goes.trans (by rw [same]))
        · exact .inr ⟨_, same, goes⟩
      | false =>
        rcases (t.others k turn).stage with same | ⟨o, before, _⟩
        · exact .inl (same.trans h)
        · exact absurd (h.symm.trans before) (serves.busy s o)
    obtain ⟨m, le, left⟩ := serves.released n s shown
    obtain still | ⟨k, _, w, other, h⟩ := goes_on step h le
    · exact absurd still left
    · exact ih w other h
  | @line s l shown _ ih =>
    obtain ⟨m, stop, h⟩ := serves.line s l n shown h
    exact ih stop h
  | @write s bytes shown _ ih =>
    obtain ⟨m, _, e, h⟩ := fair.next (B := fun b => ∃ e, b = K (I.answerWrite s e)) h (serves.busy s)
      fun x h => serves.write s bytes x shown h
    exact ih e h

/-- A script that has ended is closed. -/
theorem closes (fair : t.Fair) {s : σ} {failure : Option String} (shown : I.signal s = .ended failure)
    {n : Nat} (h : t.stage n = .executing s) : ∃ m o, t.stage m = .finalizing (I.close s) o := by
  have goes (x : Shared ω σ) (h : x.run.stage = .executing s) :
      (∃ o, (workerStep I id x).run.stage = .finalizing (I.close s) o) ∨
        ∃ text, (workerStep I id x).run.stage = .reporting s text := by
    simp only [workerStep, execute, h, shown, afterScript]
    split
    · exact .inl ⟨_, rfl⟩
    · cases failure with
      | none => exact .inl ⟨_, rfl⟩
      | some text => exact .inr ⟨text, rfl⟩
  obtain ⟨m, _, ⟨o, h⟩ | ⟨text, h⟩⟩ := fair.next
    (B := fun b => (∃ o, b = .finalizing (I.close s) o) ∨ ∃ text, b = .reporting s text)
    h (by simp) goes
  · exact ⟨m, o, h⟩
  · obtain ⟨m, _, h⟩ := fair.next_stage (b := .finalizing (I.close s) .failed) h (by simp)
      fun x h => by simp only [workerStep, h]
    exact ⟨m, .failed, h⟩

/-- A script with finitely many steps ahead, its finalizers included, ends. -/
theorem ends_of_finite (fair : t.Fair) {s : σ} (hs : Finite I s) {n : Nat}
    (h : t.stage n = .executing s) : t.Ends := by
  obtain ⟨n, s, failure, h, shown, closing⟩ := fair.ends_of_halts fair.executes hs h
  obtain ⟨n, o, h⟩ := fair.closes shown h
  obtain ⟨n, s, failure, h, shown, _⟩ := fair.ends_of_halts (fair.finalizes o) closing h
  exact ⟨n, s, o, failure, h, shown⟩

end Fair

end Timeline

end Run

/-! ## The protocol -/

namespace Script.Execution

/-- A script was loaded, and the protected call of its main function has returned without an error. -/
def Succeeded (p : Execution) : Prop :=
  ∃ m vs, p = .loaded m ∧ m.todo = .ended (.returned vs) ∧ (vs[0]?.getD Value.nil).truthy = true

theorem failureOf_eq_none {h : Heap} {e : Ending} :
    failureOf h e = none ↔ ∃ vs, e = .returned vs ∧ (vs[0]?.getD Value.nil).truthy = true := by
  cases e with
  | failed v => simp [failureOf]
  | returned vs =>
    simp only [failureOf, Ending.returned.injEq, exists_eq_left']
    split
    · simp [*]
    · split <;> simp [*]

/-- Only a script that has succeeded ends without an error. -/
theorem signal_ended_none {p : Execution} : p.signal = .ended none ↔ p.Succeeded := by
  cases p with
  | refused e => simp [signal, Succeeded]
  | loaded m =>
    have shown : (Execution.loaded m).signal = .ended none ↔
        ∃ e, m.todo = .ended e ∧ failureOf m.heap e = none := by
      cases todo : m.todo with
      | outside r =>
        cases r with
        | write bytes => cases h : m.heap.deserted <;> simp [signal, todo, h]
        | _ => simp [signal, todo]
      | _ => simp [signal, todo]
    rw [shown]
    simp only [failureOf_eq_none, Succeeded, Execution.loaded.injEq]
    constructor
    · rintro ⟨_, todo, vs, rfl, ok⟩
      exact ⟨m, vs, rfl, todo, ok⟩
    · rintro ⟨_, vs, rfl, todo, ok⟩
      exact ⟨_, todo, vs, rfl, ok⟩

end Script.Execution

namespace Run

open Ensemble (replay initial exec Reached)

variable {ω σ : Type}

/-- **The protocol of a worker.** Whatever happens in the system is a course of each of its workers,
and what a step does to the queue, the channel and the phase is what its deeds do. On any course a
fresh worker has done the beginning of a `Protocol`, and a whole one when it has nothing left to say;
then the phase is over. The start is announced once and the stop once, and the outcome is `cancelled`
if a test saw the token, `finished` if none did and the script has ended without an error, which a
script does that was loaded and has succeeded, and `failed` else. In a fair order a worker whose
script and finalizers end has the whole protocol behind it at last, and those with finitely many
steps ahead end. -/
theorem worker_protocol (I : Interpreter ω σ) (id : Nat) (x : Shared ω σ)
    (fresh : x.run.stage = .created) (untripped : x.run.tripped = false) :
    (∀ settings world s ls s', Reached I (fun _ => True) (initial settings world) s →
      id < s.engine.runs.size → s.shared id = x → exec I s ls = some s' →
      ∃ ds, Course I id x ds (s'.shared id)) ∧
    (∀ y, (workerStep I id y).queue = (deeds I id y).foldl (Deed.onQueue id) y.queue ∧
      (workerStep I id y).run.channel = (deeds I id y).foldl Deed.onChannel y.run.channel ∧
      (workerStep I id y).run.phase = (deeds I id y).foldl Deed.onPhase y.run.phase) ∧
    (∀ ds y, Course I id x ds y → (∃ rest o, Protocol (ds ++ rest) o) ∧
      (y.run.stage.isMute = true → y.run.phase = .stopped ∧ ∃ o, Protocol ds o)) ∧
    (∀ ds o, Protocol ds o → ds.filter Deed.isNotice = [.announce, .farewell o] ∧
      o = if .test true ∈ ds then .cancelled
        else if .conclude none ∈ ds then .finished else .failed) ∧
    (∀ p, Script.interpreter.signal p = .ended none ↔ p.Succeeded) ∧
    ∀ t : Timeline I id, t.state 0 = x → t.Fair →
      (t.Ends → ∃ n o, t.stage n = .gone ∧ (t.state n).run.phase = .stopped ∧
        Protocol (t.done n) o) ∧
      ((∀ w, Finite I (I.launch w x.run.payload x.run.chunkName)) → t.Ends) := by
  refine ⟨fun settings world s ls s' reached hid here run => here ▸ reached.course hid run,
    fun y => ⟨workerStep_queue I id y, workerStep_channel I id y, workerStep_phase I id y⟩,
    fun ds y course => ?_, fun ds o h => ⟨h.notices.1, h.outcome_eq⟩,
    fun p => Script.Execution.signal_ended_none, fun t start fair => ⟨fun ends => ?_, fun finite => ?_⟩⟩
  · have far := course.far fresh untripped
    exact ⟨far.completes, far.whole⟩
  · obtain ⟨n, gone⟩ := fair.gone_of_ends ends
    have far := (start ▸ t.course n).far fresh untripped
    obtain ⟨past, o, whole⟩ := far.whole (by rw [show (t.state n).run.stage = _ from gone]; rfl)
    exact ⟨n, o, gone, past, whole⟩
  · obtain rfl := start
    obtain ⟨n, w, h⟩ := fair.launches fresh
    exact fair.ends_of_finite (finite w) h

/-- An error text is not the last that a script writes: it fails, and then its finalizer writes a
letter. -/
theorem worker_protocol_finalizer :
    ¬ ∀ ds y, Course replay 0 ⟨{}, {}, [.ended (some "no"), .write [0x61]]⟩ ds y →
      ∀ before text ok after, ds = before ++ .report text ok :: after →
        ∀ bytes ok, .write bytes ok ∉ after ∧ .finalize bytes ok ∉ after := by
  intro h
  have last := h _ _ Course.start.act.act.act.act.act [.announce, .begin, .conclude (some "no")] "no" true
    [.finalize [0x61] true] (by decide +kernel)
  exact (last [0x61] true).2 List.mem_cons_self

/-! ### A worker that is told to stop -/

/-- A replay has as many steps ahead as it has signals. -/
theorem halts_replay {Q : List Signal → Prop} (q : ∀ s, Q s) (s : List Signal) :
    Halts replay Q s := by
  induction s with
  | nil => exact .ended rfl (q _)
  | cons shown rest ih =>
    cases shown with
    | working => exact .working rfl fun _ => ih
    | waiting => exact .waiting rfl fun _ _ => ih
    | line n => exact .line rfl fun _ => ih
    | write bytes => exact .write rfl fun _ => ih
    | ended failure => exact .ended rfl (q _)

/-- A script is at its line when the token is set; later it fails. -/
def stopRequestedState : Nat → Shared (List Signal) (List Signal)
  | 0 => ⟨{}, {}, [.line 3, .ended (some "no")]⟩
  | n + 1 =>
    let x := stopRequestedState n
    if n = 3 then { x with run := { x.run with token := true, drained := .signalled } }
    else workerStep replay 0 x

/-- Somebody else sets the token, and the pump says that everything was forwarded. -/
def stopRequestedTimeline : Timeline replay 0 where
  state := stopRequestedState
  turn n := n ≠ 3
  own n h := by
    have other : n ≠ 3 := by simpa using h
    simp [stopRequestedState, other]
  others n h := by
    obtain rfl : n = 3 := by simpa using h
    exact ⟨⟨rfl, rfl⟩, .inl rfl, rfl, fun _ => rfl, .inl rfl, rfl, fun _ => nofun⟩

theorem gone_stopRequestedState {n : Nat} (h : 14 ≤ n) : stopRequestedTimeline.stage n = .gone := by
  induction n, h using Nat.le_induction with
  | base => rfl
  | succ n h ih =>
    have other : n ≠ 3 := by omega
    rw [Timeline.stage] at ih ⊢
    rw [stopRequestedTimeline.own n (by simpa [stopRequestedTimeline] using other)]
    simp only [workerStep, ih]

theorem fair_stopRequestedTimeline : stopRequestedTimeline.Fair where
  turns n := ⟨n + 4, by omega, by simp [stopRequestedTimeline]⟩
  patience n o := ⟨n + 14, by omega, fun h => by simp [gone_stopRequestedState] at h⟩
  released n s _ := ⟨n + 14, by omega, by simp [gone_stopRequestedState]⟩

/-- All that the worker does. -/
theorem done_stopRequestedTimeline : stopRequestedTimeline.done 14 =
    [.announce, .begin, .hook 3, .store 3, .mark false, .push, .test true, .conclude (some "no"),
      .close, .halt, .farewell .cancelled] := by
  decide +kernel

/-- A script that fails after it was told to stop is cancelled, and nothing is reported. -/
theorem worker_protocol_stopRequested : Protocol (stopRequestedTimeline.done 14) .cancelled ∧
    ∃ n o, stopRequestedTimeline.stage n = .gone ∧ Protocol (stopRequestedTimeline.done n) o := by
  obtain ⟨_, _, safe, outcome, _, live⟩ := worker_protocol replay 0 (stopRequestedState 0) rfl rfl
  obtain ⟨completes, ends⟩ := live stopRequestedTimeline rfl fair_stopRequestedTimeline
  obtain ⟨n, o, gone, _, whole⟩ := completes <| ends fun w =>
    halts_replay (fun _ => halts_replay (fun _ => trivial) _) w
  refine ⟨?_, n, o, gone, whole⟩
  have mute : (stopRequestedTimeline.state 14).run.stage.isMute = true := by decide +kernel
  obtain ⟨_, o, whole⟩ := (safe _ _ (stopRequestedTimeline.course 14)).2 mute
  have seen : o = .cancelled := by
    rw [(outcome _ _ whole).2, done_stopRequestedTimeline]
    decide
  exact seen ▸ whole

end Run
end ScriptHost
