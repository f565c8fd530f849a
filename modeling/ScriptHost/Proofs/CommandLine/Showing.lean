import ScriptHost.CommandLine.Job
import ScriptHost.Proofs.Delivery.Lines
import ScriptHost.Proofs.Delivery.Output
import ScriptHost.Proofs.Text.Chunks

/-!
# What a job shows

A job shows bytes on its two streams, and records of its log. Each of its
functions adds to what was shown before (`Job.Shows`).

* `Console.outBytes_texts`: in text mode, standard output is the output.
* `Console.errBytes_reports`: no output is seen on standard error.
* `Job.Displays`: what events look like was shown, and records that the filter keeps.
* `Job.stderr_of_unlogged`: where no record was kept, standard error has nothing
  beside it.
-/
namespace ScriptHost

/-! ## Events as bytes -/

/-- The bytes of a text. -/
def bytesOf (text : String) : List UInt8 := text.toUTF8.toList

@[simp] theorem bytesOf_empty : bytesOf "" = [] := by
  rw [bytesOf, Utf8.toList_toUTF8]
  rfl

theorem bytesOf_append (s t : String) : bytesOf (s ++ t) = bytesOf s ++ bytesOf t := by
  simp only [bytesOf, Utf8.toList_toUTF8, String.toList_append, List.flatMap_append]

theorem bytesOf_texts (es : List Event) :
    bytesOf (Event.texts es) = es.flatMap fun e => bytesOf e.text := by
  induction es with
  | nil => exact bytesOf_empty
  | cons e es ih =>
    have : Event.texts (e :: es) = e.text ++ Event.texts es := by simp [Event.texts]
    rw [this, bytesOf_append, ih, List.flatMap_cons]

namespace Console

/-- What is written of an event to standard output. -/
def outBytes (mode : Mode) (e : Event) : List UInt8 := bytesOf (render mode e).out

/-- What is written of an event to standard error. -/
def errBytes (mode : Mode) (e : Event) : List UInt8 := bytesOf (render mode e).err

theorem renderStopped_out (lines : Bool) (o : Outcome) : (renderStopped lines o).out = "" := by
  cases o <;> cases lines <;> rfl

theorem outBytes_text (lines : Bool) (e : Event) : outBytes (.text lines) e = bytesOf e.text := by
  cases e with
  | stopped o => simp [outBytes, render, renderStopped_out, Event.text]
  | output t => rfl
  | started | currentLine => cases lines <;> rfl

/-- In text mode, standard output is the output. -/
theorem outBytes_texts (lines : Bool) (es : List Event) :
    es.flatMap (outBytes (.text lines)) = bytesOf (Event.texts es) := by
  rw [bytesOf_texts]
  exact congrArg (es.flatMap ·) (funext (outBytes_text lines))

/-- In JSON mode, nothing is seen on standard error. -/
theorem errBytes_json (es : List Event) : es.flatMap (errBytes .json) = [] :=
  List.flatMap_eq_nil_iff.mpr fun _ _ => bytesOf_empty

/-- No output is seen on standard error. -/
theorem errBytes_output (mode : Mode) (t : String) : errBytes mode (.output t) = [] := by
  cases mode <;> exact bytesOf_empty

/-- Of the reports of a run, the lines are all that is seen on standard error. -/
theorem errBytes_reports (mode : Mode) {reports : List Event} (h : ∀ e ∈ reports, e.isReport = true) :
    reports.flatMap (errBytes mode) =
      ((Event.lines reports).map Event.currentLine).flatMap (errBytes mode) := by
  induction reports with
  | nil => rfl
  | cons e es ih =>
    have ih := ih fun e he => h e (List.mem_cons_of_mem _ he)
    cases e with
    | output t => rw [List.flatMap_cons, errBytes_output, List.nil_append, ih]; rfl
    | currentLine n => rw [List.flatMap_cons, ih]; rfl
    | started | stopped => cases h _ List.mem_cons_self

/-- Without `--lines`, a stop on request is all that is seen on standard error. -/
theorem errBytes_plain {es : List Event} (h : .stopped .cancelled ∉ es) :
    es.flatMap (errBytes (.text false)) = [] := by
  refine List.flatMap_eq_nil_iff.mpr fun e he => ?_
  cases e with
  | stopped o => cases o <;> first | exact absurd he h | exact bytesOf_empty
  | _ => exact bytesOf_empty

end Console

namespace CommandLine

/-! ## Pieces -/

def Piece.outBytes : Piece → List UInt8
  | .out bytes => bytes.toList
  | _ => []

/-- What is written of a piece to standard error, beside the log. -/
def Piece.noteBytes : Piece → List UInt8
  | .err bytes => bytes.toList
  | _ => []

/-- What is written of a piece to standard error, the log included. -/
def Piece.errBytes : Piece → List UInt8
  | .err bytes => bytes.toList
  | .record r => bytesOf r.written
  | .out _ => []

def Piece.record? : Piece → Option Log.Record
  | .record r => some r
  | _ => none

namespace Job

variable {σ : Type} {j j' j'' : Job σ} {out err out' err' : List UInt8}

/-- All that was written to standard output. -/
def stdout (j : Job σ) : List UInt8 := j.shown.reverse.flatMap Piece.outBytes

/-- All that was written to standard error. -/
def stderr (j : Job σ) : List UInt8 := j.shown.reverse.flatMap Piece.errBytes

/-- All that was written to standard error beside the log. -/
def notes (j : Job σ) : List UInt8 := j.shown.reverse.flatMap Piece.noteBytes

/-- The records of the log that were kept. -/
def records (j : Job σ) : List Log.Record := j.shown.reverse.filterMap Piece.record?

/-- Where no record was kept, nothing but the notes stands on standard error. -/
theorem stderr_of_unlogged (h : j.records = []) : j.stderr = j.notes := by
  refine congrArg List.flatten (List.map_congr_left fun p hp => ?_)
  cases p with
  | record r => cases List.filterMap_eq_nil_iff.mp h _ hp
  | _ => rfl

/-- More was shown, and nothing else happened. The records added are of no weight, and the filter keeps
them. -/
structure Shows (j j' : Job σ) (out err : List UInt8) : Prop where
  same : j' = { j with shown := j'.shown }
  out : j'.stdout = j.stdout ++ out
  notes : j'.notes = j.notes ++ err
  records : ∀ r ∈ j'.records, r ∈ j.records ∨ (r.level = .debug ∧ j.filter.keeps r = true)

namespace Shows

theorem refl (j : Job σ) : Shows j j [] [] :=
  ⟨rfl, (List.append_nil _).symm, (List.append_nil _).symm, fun _ => .inl⟩

theorem filter_eq (h : Shows j j' out err) : j'.filter = j.filter := by rw [h.same]

theorem trans (h : Shows j j' out err) (h' : Shows j' j'' out' err') :
    Shows j j'' (out ++ out') (err ++ err') where
  same := by rw [h'.same, h.same]
  out := by rw [h'.out, h.out, List.append_assoc]
  notes := by rw [h'.notes, h.notes, List.append_assoc]
  records r hr := (h'.records r hr).elim (h.records r) fun kept => .inr (h.filter_eq ▸ kept)

end Shows

theorem shows_put (j : Job σ) {p : Piece}
    (light : ∀ r, p = .record r → r.level = .debug ∧ j.filter.keeps r = true) :
    Shows j (j.put p) p.outBytes p.noteBytes where
  same := rfl
  out := by simp [put, stdout]
  notes := by simp [put, Job.notes]
  records r hr := by
    have hr : r ∈ j.records ∨ p.record? = some r := by
      simpa [put, records, List.filterMap_append] using hr
    refine hr.imp_right fun hp => ?_
    cases p with
    | record r' =>
      cases hp
      exact light r rfl
    | _ => cases hp

theorem bytesOf_of_isEmpty {s : String} (h : s.isEmpty = true) : bytesOf s = [] := by
  rw [String.isEmpty_iff.mp h, bytesOf_empty]

theorem shows_write (j : Job σ) (w : Console.Written) :
    Shows j (j.write w) (bytesOf w.out) (bytesOf w.err) := by
  unfold write
  have outs : Shows j (if w.out.isEmpty then j else j.put (.out w.out.toUTF8)) (bytesOf w.out) [] := by
    split
    · rename_i h
      rw [bytesOf_of_isEmpty h]
      exact .refl j
    · exact shows_put j nofun
  have errs (j : Job σ) :
      Shows j (if w.err.isEmpty then j else j.put (.err w.err.toUTF8)) [] (bytesOf w.err) := by
    split
    · rename_i h
      rw [bytesOf_of_isEmpty h]
      exact .refl j
    · exact shows_put j nofun
  have both := outs.trans (errs _)
  rwa [List.append_nil, List.nil_append] at both

/-- The log is all that changes. -/
theorem log_same (j : Job σ) (r : Log.Record) : j.log r = { j with shown := (j.log r).shown } := by
  unfold log
  split <;> rfl

theorem log_engine (j : Job σ) (r : Log.Record) : (j.log r).engine = j.engine := by
  rw [log_same]

theorem shows_log (j : Job σ) {r : Log.Record} (light : r.level = .debug) :
    Shows j (j.log r) [] [] := by
  unfold log
  split
  · rename_i kept
    exact shows_put j fun _ hr => by
      cases hr
      exact ⟨light, kept⟩
  · exact .refl j

theorem shows_logs (j : Job σ) {rs : List Log.Record} (light : ∀ r ∈ rs, r.level = .debug) :
    Shows j (rs.foldl log j) [] [] := by
  induction rs generalizing j with
  | nil => exact .refl j
  | cons r rs ih =>
    exact (shows_log j (light r List.mem_cons_self)).trans
      (ih (j.log r) fun r hr => light r (List.mem_cons_of_mem _ hr))

theorem shows_print (j : Job σ) (es : List Event) :
    Shows j (j.print es) (es.flatMap (Console.outBytes j.mode)) (es.flatMap (Console.errBytes j.mode)) := by
  unfold print
  induction es generalizing j with
  | nil => exact .refl j
  | cons e es ih =>
    have first := shows_write j (Console.render j.mode e)
    have mode : (j.write (Console.render j.mode e)).mode = j.mode := by rw [first.same]
    have rest := ih (j.write (Console.render j.mode e))
    rw [mode] at rest
    exact first.trans rest

/-- What was shown is what events look like in a mode. The records are of no weight, and a filter keeps
them. -/
structure Displays (j : Job σ) (mode : Console.Mode) (filter : Log.Filter) (es : List Event) : Prop where
  inMode : j.mode = mode
  filtered : j.filter = filter
  out : j.stdout = es.flatMap (Console.outBytes mode)
  notes : j.notes = es.flatMap (Console.errBytes mode)
  light : ∀ r ∈ j.records, r.level = .debug ∧ filter.keeps r = true

namespace Displays

variable {mode : Console.Mode} {filter : Log.Filter} {es es' : List Event}

/-- Nothing else of a job matters. -/
theorem of_shown (h : j.Displays mode filter es) (shown : j'.shown = j.shown) (same : j'.mode = j.mode)
    (filtered : j'.filter = j.filter) : j'.Displays mode filter es := by
  obtain ⟨inMode, inFilter, out, notes, light⟩ := h
  refine ⟨same.trans inMode, filtered.trans inFilter, ?_, ?_, ?_⟩ <;>
    simpa only [stdout, Job.notes, records, shown]

/-- More events are shown. -/
theorem more (h : j.Displays mode filter es) (hs : Shows j j' (es'.flatMap (Console.outBytes j.mode))
    (es'.flatMap (Console.errBytes j.mode))) : j'.Displays mode filter (es ++ es') := by
  refine ⟨by rw [hs.same, h.inMode], hs.filter_eq.trans h.filtered, ?_, ?_, fun r hr =>
    (hs.records r hr).elim (h.light r) fun kept => h.filtered ▸ kept⟩
  · rw [List.flatMap_append, hs.out, h.out, h.inMode]
  · rw [List.flatMap_append, hs.notes, h.notes, h.inMode]

theorem quiet (h : j.Displays mode filter es) (hs : Shows j j' [] []) : j'.Displays mode filter es := by
  rw [← List.append_nil es]
  exact h.more hs

theorem log (h : j.Displays mode filter es) {r : Log.Record} (light : r.level = .debug) :
    (j.log r).Displays mode filter es := h.quiet (shows_log j light)

/-- A filter that keeps no record of so little weight keeps none. -/
theorem unlogged (h : j.Displays mode filter es)
    (terse : ∀ r : Log.Record, r.level = .debug → filter.keeps r = false) : j.records = [] := by
  refine List.eq_nil_iff_forall_not_mem.mpr fun r hr => ?_
  obtain ⟨light, kept⟩ := h.light r hr
  rw [terse r light] at kept
  cases kept

end Displays

end Job
end CommandLine
end ScriptHost
