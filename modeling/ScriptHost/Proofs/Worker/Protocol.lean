import ScriptHost.Proofs.Worker.Course

/-!
# The protocol of a worker

What a worker does in a run from its start to its end, in any order of its own
steps and those of the others:

    announce begin (line | write)* conclude report? finalize* close halt farewell

where a line is stored, and its marker sent unless one is on the way, before the
token is tested. `Verdict` says which outcome is told and when there is a report;
only finalizers write behind it.

* `Far`: all that the worker has done when it is so far; `Course.far`: so it is.
* `Far.completes`: what it has done is always the beginning of a whole protocol.
* `Far.whole`: once it has said everything the protocol is whole, and the phase
  is over.
-/
namespace ScriptHost

open Deed (announce begin conclude close halt farewell hook store mark test)

/-- What a worker does when its script shows something. A line that can be reported is so before the
token is tested. -/
inductive Phrase : List Deed → Prop where
  | line (n : Int) (usable : 0 ≤ n) (was saw : Bool) :
    Phrase ([hook n, store (UInt32.ofNat n.toNat), mark was] ++
      (if was then [] else [.push]) ++ [test saw])
  | blind (n : Int) (unusable : n < 0) (saw : Bool) : Phrase [hook n, test saw]
  | write (bytes : List UInt8) (ok : Bool) : Phrase [.write bytes ok]

/-- What a worker does while its script is at work. -/
inductive Scripted : List Deed → Prop where
  | nil : Scripted []
  | snoc {ds ps : List Deed} (h : Scripted ds) (p : Phrase ps) : Scripted (ds ++ ps)

/-- The outcome that is told behind a script, and what is reported. -/
inductive Verdict (script : List Deed) : Option String → List Deed → Outcome → Prop where
  /-- A test saw the token set; how the script has ended does not matter. -/
  | cancelled (failure : Option String) (h : .test true ∈ script) :
    Verdict script failure [] .cancelled
  | finished (h : .test true ∉ script) : Verdict script none [] .finished
  /-- The error text is written once, with success or without. -/
  | failed (text : String) (ok : Bool) (h : .test true ∉ script) :
    Verdict script (some text) [.report text ok] .failed

/-- A write of a finalizer. -/
def Deed.isFinal : Deed → Bool
  | .finalize _ _ => true
  | _ => false

/-- What a worker does while the interpreter is closed. -/
def Finals (ds : List Deed) : Prop := ∀ d ∈ ds, d.isFinal = true

theorem Finals.nil : Finals [] := List.forall_mem_nil _

theorem Finals.snoc {ds : List Deed} (h : Finals ds) (bytes : List UInt8) (ok : Bool) :
    Finals (ds ++ [.finalize bytes ok]) :=
  List.forall_mem_append.mpr ⟨h, List.forall_mem_singleton.mpr rfl⟩

/-- All that a worker does in a run that ends with an outcome. -/
def Protocol (ds : List Deed) (o : Outcome) : Prop :=
  ∃ script failure report finals, Scripted script ∧ Verdict script failure report o ∧
    Finals finals ∧
    ds = [announce, begin] ++ script ++ [conclude failure] ++ report ++ finals ++
      [close, halt, farewell o]

theorem Verdict.protocol {script report finals : List Deed} {failure : Option String} {o : Outcome}
    (v : Verdict script failure report o) (hs : Scripted script)
    (hf : Finals finals) :
    Protocol ([announce, begin] ++ script ++ [conclude failure] ++ report ++ finals ++
      [close, halt, farewell o]) o :=
  ⟨script, failure, report, finals, hs, v, hf, rfl⟩

/-! ## Announcements and outcomes -/

/-- An announcement of the start or the stop. -/
def Deed.isNotice : Deed → Bool
  | announce | farewell _ => true
  | _ => false

theorem Scripted.notices {ds : List Deed} (h : Scripted ds) : ds.filter Deed.isNotice = [] := by
  induction h with
  | nil => rfl
  | snoc _ p ih =>
    rw [List.filter_append, ih, List.nil_append]
    cases p with
    | line n _ was saw => cases was <;> rfl
    | _ => rfl

theorem Deed.isNotice_of_isFinal {d : Deed} (h : d.isFinal = true) : d.isNotice = false := by
  cases d <;> first | rfl | cases h

/-- The start is announced once and first, the stop once and last. -/
theorem Protocol.notices {ds : List Deed} {o : Outcome} (h : Protocol ds o) :
    ds.filter Deed.isNotice = [.announce, .farewell o] ∧ ds.head? = some .announce ∧
      ds.getLast? = some (.farewell o) := by
  obtain ⟨script, failure, report, finals, scripted, verdict, final, rfl⟩ := h
  have silent : report.filter Deed.isNotice = [] := by cases verdict <;> rfl
  have closing : finals.filter Deed.isNotice = [] :=
    List.filter_eq_nil_iff.mpr fun d hd => by simp [Deed.isNotice_of_isFinal (final d hd)]
  refine ⟨?_, by simp, by rw [List.getLast?_append]; rfl⟩
  simp only [List.filter_append, scripted.notices, silent, closing]
  rfl

theorem Scripted.unfinished {ds : List Deed} (h : Scripted ds) (failure : Option String) :
    .conclude failure ∉ ds := by
  induction h with
  | nil => nofun
  | snoc _ p ih =>
    rw [List.mem_append, not_or]
    refine ⟨ih, ?_⟩
    cases p with
    | line n _ was saw => cases was <;> simp
    | _ => simp

/-- Whether a test saw the token decides the outcome, and if none did, how the script has ended. -/
theorem Protocol.outcome_eq {ds : List Deed} {o : Outcome} (h : Protocol ds o) :
    o = if .test true ∈ ds then .cancelled
      else if .conclude none ∈ ds then .finished else .failed := by
  obtain ⟨script, failure, report, finals, scripted, verdict, final, rfl⟩ := h
  have unfinished := scripted.unfinished none
  have untested : .test true ∉ finals := fun h => by cases final _ h
  have settled : .conclude none ∉ finals := fun h => by cases final _ h
  cases verdict with
  | cancelled _ seen => simp [seen]
  | finished unseen => simp [unseen, untested]
  | failed text ok unseen => simp [unseen, unfinished, untested, settled]

/-! ## The invariant -/

namespace Run

variable {ω σ : Type} {I : Interpreter ω σ} {id : Nat} {x y : Shared ω σ} {r r' : Run σ}
  {script report ds : List Deed} {failure : Option String} {o : Outcome}

/-- A test saw the token set. -/
def saw (script : List Deed) : Bool := decide (.test true ∈ script)

theorem saw_append (ds es : List Deed) : saw (ds ++ es) = (saw ds || saw es) := by simp [saw]

theorem saw_eq_true : saw script = true ↔ .test true ∈ script := by simp [saw]

theorem saw_eq_false : saw script = false ↔ .test true ∉ script := by simp [saw]

/-- All that the worker has done when it is so far. -/
inductive Far (r : Run σ) : List Deed → Prop where
  | created (h : r.stage = .created) (t : r.tripped = false) : Far r []
  | announced (h : r.stage = .announced) (t : r.tripped = false) : Far r [.announce]
  | executing {script : List Deed} (s : σ) (h : r.stage = .executing s) (hs : Scripted script)
    (t : r.tripped = saw script) : Far r ([announce, begin] ++ script)
  | lineStored {script : List Deed} (s : σ) (n : Int) (h : r.stage = .lineStored s)
    (usable : 0 ≤ n) (hs : Scripted script) (t : r.tripped = saw script) :
    Far r ([announce, begin] ++ script ++ [hook n, store (UInt32.ofNat n.toNat)])
  | lineMarked {script : List Deed} (s : σ) (n : Int) (h : r.stage = .lineMarked s)
    (usable : 0 ≤ n) (hs : Scripted script) (t : r.tripped = saw script) :
    Far r ([announce, begin] ++ script ++ [hook n, store (UInt32.ofNat n.toNat), mark false])
  | testing {script half : List Deed} (s : σ) (h : r.stage = .testing s) (hs : Scripted script)
    (phrase : ∀ b, Phrase (half ++ [test b])) (t : r.tripped = saw script)
    (untested : .test true ∉ half) : Far r ([announce, begin] ++ script ++ half)
  | reporting {script : List Deed} (s : σ) (text : String) (h : r.stage = .reporting s text)
    (hs : Scripted script) (unseen : .test true ∉ script) :
    Far r ([announce, begin] ++ script ++ [conclude (some text)])
  | finalizing {script report finals : List Deed} {failure : Option String} (s : σ) (o : Outcome)
    (h : r.stage = .finalizing s o) (hs : Scripted script) (v : Verdict script failure report o)
    (hf : Finals finals) :
    Far r ([announce, begin] ++ script ++ [conclude failure] ++ report ++ finals)
  | closing {script report finals : List Deed} {failure : Option String} (o : Outcome)
    (h : r.stage = .closing o) (hs : Scripted script) (v : Verdict script failure report o)
    (hf : Finals finals) :
    Far r ([announce, begin] ++ script ++ [conclude failure] ++ report ++ finals)
  | waiting {script report finals : List Deed} {failure : Option String} (o : Outcome)
    (h : r.stage = .draining o ∨ r.stage = .stopping o) (hs : Scripted script)
    (v : Verdict script failure report o) (hf : Finals finals) :
    Far r ([announce, begin] ++ script ++ [conclude failure] ++ report ++ finals ++ [close])
  | leaving {script report finals : List Deed} {failure : Option String} (o : Outcome)
    (h : r.stage = .leaving o) (p : r.phase = .stopped) (hs : Scripted script)
    (v : Verdict script failure report o) (hf : Finals finals) :
    Far r ([announce, begin] ++ script ++ [conclude failure] ++ report ++ finals ++ [close, halt])
  | ended {script report finals : List Deed} {failure : Option String} (o : Outcome)
    (h : r.stage = .ending ∨ r.stage = .gone) (p : r.phase = .stopped) (hs : Scripted script)
    (v : Verdict script failure report o) (hf : Finals finals) :
    Far r ([announce, begin] ++ script ++ [conclude failure] ++ report ++ finals ++
      [close, halt, farewell o])

namespace Far

/-! ## Its steps -/

/-- What others do leaves a worker as far as it was. -/
theorem meddle (h : r.Far ds) (hm : Meddles r r') : r'.Far ds := by
  have stage {x : Stage σ} (hx : r.stage = x) (h : ∀ o, x ≠ .draining o) : r'.stage = x := by
    rcases hm.stage with same | ⟨o, before, _⟩
    · exact same.trans hx
    · exact absurd (hx.symm.trans before) (h o)
  have past (p : r.phase = .stopped) : r'.phase = .stopped := by
    rcases hm.phase with same | asked
    · exact same.trans p
    · rw [asked, p]
      rfl
  cases h with
  | created h t => exact .created (stage h (by simp)) (hm.tripped.trans t)
  | announced h t => exact .announced (stage h (by simp)) (hm.tripped.trans t)
  | executing s h hs t => exact .executing s (stage h (by simp)) hs (hm.tripped.trans t)
  | lineStored s n h usable hs t =>
    exact .lineStored s n (stage h (by simp)) usable hs (hm.tripped.trans t)
  | lineMarked s n h usable hs t =>
    exact .lineMarked s n (stage h (by simp)) usable hs (hm.tripped.trans t)
  | testing s h hs phrase t untested =>
    exact .testing s (stage h (by simp)) hs phrase (hm.tripped.trans t) untested
  | reporting s text h hs unseen => exact .reporting s text (stage h (by simp)) hs unseen
  | finalizing s o h hs v hf => exact .finalizing s o (stage h (by simp)) hs v hf
  | closing o h hs v hf => exact .closing o (stage h (by simp)) hs v hf
  | waiting o h hs v hf =>
    refine .waiting o ?_ hs v hf
    rcases h with h | h
    · rcases hm.stage with same | ⟨o', before, after⟩
      · exact .inl (same.trans h)
      · rw [h] at before
        cases before
        exact .inr after
    · exact .inr (stage h (by simp))
  | leaving o h p hs v hf => exact .leaving o (stage h (by simp)) (past p) hs v hf
  | ended o h p hs v hf =>
    refine .ended o ?_ (past p) hs v hf
    rcases h with h | h
    · exact .inl (stage h (by simp))
    · exact .inr (stage h (by simp))

/-- The script shows something, and the worker does the first it has to do about it. -/
theorem execute {s : σ} {r : Run σ} {q : Queue} {w : ω} (h : r.stage = .executing s)
    (hs : Scripted script) (t : r.tripped = saw script) :
    (workerStep I id ⟨r, q, w⟩).run.Far ([announce, begin] ++ script ++ deeds I id ⟨r, q, w⟩) := by
  have goOn {p : Deed} (u : saw [p] = false) : r.tripped = saw (script ++ [p]) := by
    rw [saw_append, u, Bool.or_false, t]
  cases shown : I.signal s with
  | working | waiting =>
    simp only [workerStep, Run.execute, deeds, h, shown, List.append_nil]
    exact .executing _ rfl hs t
  | line n =>
    simp only [workerStep, Run.execute, deeds, h, shown]
    split
    · rename_i usable
      exact .lineStored s n rfl usable hs t
    · rename_i unusable
      exact .testing s rfl hs (.blind n (by omega)) t (by simp)
  | write bytes =>
    simp only [workerStep, Run.execute, deeds, h, shown, List.append_assoc]
    split <;> exact .executing _ rfl (hs.snoc (.write bytes _)) (goOn rfl)
  | ended failure =>
    simp only [workerStep, Run.execute, deeds, h, shown, afterScript]
    split
    · rename_i tripped
      have seen : .test true ∈ script := saw_eq_true.mp (t.symm.trans tripped)
      simpa using Far.finalizing (I.close s) .cancelled rfl hs (.cancelled failure seen) .nil
    · rename_i tripped
      have unseen : .test true ∉ script :=
        saw_eq_false.mp (t.symm.trans (Bool.eq_false_iff.mpr tripped))
      cases failure with
      | none => simpa using Far.finalizing (I.close s) .finished rfl hs (.finished unseen) .nil
      | some text => exact .reporting s text rfl hs unseen

/-- A finalizer shows something, and the worker does what there is to do about it. -/
theorem finalize {finals : List Deed} {s : σ} {r : Run σ} {q : Queue} {w : ω}
    (h : r.stage = .finalizing s o) (hs : Scripted script) (v : Verdict script failure report o)
    (hf : Finals finals) :
    (workerStep I id ⟨r, q, w⟩).run.Far
      ([announce, begin] ++ script ++ [conclude failure] ++ report ++ finals ++
        deeds I id ⟨r, q, w⟩) := by
  cases shown : I.signal s with
  | working | waiting | line n =>
    simp only [workerStep, Run.finalize, deeds, h, shown, List.append_nil]
    exact .finalizing _ o rfl hs v hf
  | write bytes =>
    simp only [workerStep, Run.finalize, deeds, h, shown]
    rw [List.append_assoc _ finals]
    split <;> exact .finalizing _ o rfl hs v (hf.snoc bytes _)
  | ended failure =>
    simp only [workerStep, Run.finalize, deeds, h, shown, List.append_nil]
    exact .closing o rfl hs v hf

/-- A step of the worker takes it further, by what it does with the step. -/
theorem act (h : x.run.Far ds) : (workerStep I id x).run.Far (ds ++ deeds I id x) := by
  obtain ⟨r, q, w⟩ := x
  change r.Far ds at h
  cases h with
  | created h t =>
    simp only [workerStep, deeds, h]
    exact .announced rfl t
  | announced h t =>
    simp only [workerStep, deeds, h]
    exact .executing _ rfl .nil t
  | executing s h hs t => exact execute h hs t
  | lineStored s n h usable hs t =>
    have was : (q.slot id).queued = (q.markQueued id).1 := rfl
    simp only [workerStep, deeds, h, was]
    rw [List.append_assoc]
    cases (q.markQueued id).1 with
    | true => exact .testing s rfl hs (.line n usable true) t (by simp)
    | false => exact .lineMarked s n rfl usable hs t
  | lineMarked s n h usable hs t =>
    simp only [workerStep, deeds, h]
    rw [List.append_assoc]
    exact .testing s rfl hs (.line n usable false) t (by simp)
  | @testing script half s h hs phrase t untested =>
    simp only [workerStep, deeds, h, List.append_assoc]
    refine .executing _ rfl (hs.snoc (phrase r.token)) ?_
    simp [t, saw, untested]
  | reporting s text h hs unseen =>
    simp only [workerStep, deeds, h]
    simpa using Far.finalizing (I.close s) .failed rfl hs (.failed text _ unseen) .nil
  | finalizing s o h hs v hf => exact finalize h hs v hf
  | closing o h hs v hf =>
    simp only [workerStep, deeds, h]
    exact .waiting o (.inl rfl) hs v hf
  | waiting o h hs v hf =>
    rcases h with h | h
    · simp only [workerStep, deeds, h, List.append_nil]
      split
      · exact .waiting o (.inl rfl) hs v hf
      · exact .waiting o (.inr rfl) hs v hf
    · simp only [workerStep, deeds, h]
      rw [List.append_assoc]
      exact .leaving o rfl rfl hs v hf
  | leaving o h p hs v hf =>
    simp only [workerStep, deeds, h]
    rw [List.append_assoc]
    exact .ended o (.inl rfl) p hs v hf
  | ended o h p hs v hf =>
    rcases h with h | h <;> simp only [workerStep, deeds, h, List.append_nil] <;>
      exact .ended o (.inr rfl) p hs v hf

/-! ## What follows -/

/-- What the worker has done is the beginning of a whole protocol. -/
theorem completes (h : r.Far ds) : ∃ rest o, Protocol (ds ++ rest) o := by
  have behind {script : List Deed} (hs : Scripted script) :
      ∃ rest o, Protocol ([announce, begin] ++ script ++ rest) o := by
    by_cases seen : .test true ∈ script
    · exact ⟨_, _, by simpa using (Verdict.cancelled none seen).protocol hs .nil⟩
    · exact ⟨_, _, by simpa using (Verdict.finished seen).protocol hs .nil⟩
  have line {script half : List Deed} (left : List Deed) (hs : Scripted script)
      (p : Phrase (half ++ left)) : ∃ rest o, Protocol ([announce, begin] ++ script ++ half ++ rest) o := by
    obtain ⟨rest, o, all⟩ := behind (hs.snoc p)
    exact ⟨left ++ rest, o, by simpa using all⟩
  cases h with
  | created | announced =>
    obtain ⟨rest, o, all⟩ := behind .nil
    exact ⟨_, o, all⟩
  | executing _ _ hs _ => exact behind hs
  | lineStored _ n _ usable hs _ => exact line [.mark true, .test false] hs (.line n usable true false)
  | lineMarked _ n _ usable hs _ => exact line [.push, .test false] hs (.line n usable false false)
  | testing _ _ hs phrase _ _ => exact line [.test false] hs (phrase false)
  | reporting s text _ hs unseen =>
    exact ⟨_, _, by simpa using (Verdict.failed text true unseen).protocol hs .nil⟩
  | finalizing s o _ hs v hf => exact ⟨_, o, by simpa using v.protocol hs hf⟩
  | closing o _ hs v hf => exact ⟨_, o, by simpa using v.protocol hs hf⟩
  | waiting o _ hs v hf => exact ⟨[.halt, .farewell o], o, by simpa using v.protocol hs hf⟩
  | leaving o _ _ hs v hf => exact ⟨[.farewell o], o, by simpa using v.protocol hs hf⟩
  | ended o _ _ hs v hf => exact ⟨[], o, by simpa using v.protocol hs hf⟩

/-- A worker that has nothing left to say has done all that there is to do. -/
theorem whole (h : r.Far ds) (mute : r.stage.isMute = true) :
    r.phase = .stopped ∧ ∃ o, Protocol ds o := by
  cases h with
  | ended o _ p hs v hf => exact ⟨p, o, v.protocol hs hf⟩
  | waiting o h _ _ _ => rcases h with h | h <;> simp [h, Stage.isMute] at mute
  | created h _ | announced h _ | executing _ h _ _ | lineStored _ _ h _ _ _
  | lineMarked _ _ h _ _ _ | testing _ h _ _ _ _ | reporting _ _ h _ _ | finalizing _ _ h _ _ _
  | closing _ h _ _ _ | leaving _ h _ _ _ _ => simp [h, Stage.isMute] at mute

end Far

/-- So far is a worker that was fresh. -/
theorem Course.far (h : Course I id x ds y) (fresh : x.run.stage = .created)
    (t : x.run.tripped = false) : y.run.Far ds := by
  induction h with
  | start => exact .created fresh t
  | act _ ih => exact ih.act
  | meddle _ hm ih => exact ih.meddle hm

end Run
end ScriptHost
