import ScriptHost.Proofs.Ensemble.Moves
import ScriptHost.Proofs.Text.Lossy

/-!
# What goes through a channel comes out as its text

`Conveys c written text` says that of the bytes written to a channel, those that
were read made the text, and that the others are where they belong: in the
decoder, in the read that goes on, or in the stream. However a system splits
them, each look keeps this (`look_conveys`), and at the end of the stream the
text is that of all bytes.
-/
namespace ScriptHost

/-- The text a read returns; a read that returns none adds nothing. -/
def Channel.Read.string : Channel.Read → String
  | .text t => t
  | .eof | .pending => ""

/-- The reader has made `text` of the bytes `taken`; once the end was met, of their tail too. -/
def Reader.Made (r : Reader) (taken : List UInt8) (text : String) : Prop :=
  (text = (Utf8.scan taken).1 ∧ r.decoder.pending = (Utf8.scan taken).2) ∨
    (r.ended = true ∧ text = Utf8.lossy taken ∧ r.decoder.pending = [])

namespace Reader

variable {r : Reader} {taken : List UInt8} {text : String}

/-- A look that returned `x` has read `taken`, with `text` before it. -/
structure Gives (taken : List UInt8) (text : String) (x : Channel.Read × Reader) : Prop where
  made : x.2.Made taken (text ++ x.1.string)
  eof : x.1 = .eof → x.2.ended = true ∧ text = Utf8.lossy taken

/-- The tail makes the text that of all bytes, and is given out once. -/
theorem readTail_gives (h : r.Made taken text) (he : r.ended = true) : Gives taken text r.readTail := by
  have key : text ++ Utf8.lossy r.decoder.pending = Utf8.lossy taken := by
    rcases h with ⟨ht, hp⟩ | ⟨_, ht, hp⟩
    · rw [ht, hp, ← Utf8.lossy_eq]
    · rw [ht, hp]
      exact String.append_empty
  unfold readTail Decoder.finish
  simp only
  split
  · rename_i hr
    rw [String.isEmpty_iff.mp hr, String.append_empty] at key
    exact ⟨.inr ⟨he, by simpa [Channel.Read.string] using key, rfl⟩, fun _ => ⟨he, key⟩⟩
  · exact ⟨.inr ⟨he, key, rfl⟩, nofun⟩

/-- What was collected is made into text as far as it goes. -/
theorem readCollected_gives (ht : text = (Utf8.scan taken).1)
    (hp : r.decoder.pending = (Utf8.scan taken).2) :
    Gives (taken ++ r.collected) text r.readCollected := by
  rcases hd : Utf8.scan (r.decoder.pending ++ r.collected) with ⟨more, tail⟩
  have all : Utf8.scan (taken ++ r.collected) = (text ++ more, tail) := by
    rw [Utf8.scan_append, ← hp, ← ht, hd]
  unfold readCollected Decoder.decode
  simp only [hd]
  split
  · exact ⟨.inl ⟨by rw [all]; rfl, by rw [all]⟩, nofun⟩
  · rename_i hm
    obtain rfl : more = "" := by simpa using hm
    rw [String.append_empty] at all
    split
    · rename_i he
      exact readTail_gives (.inl ⟨by rw [all], by rw [all]⟩) he
    · exact ⟨.inl ⟨by rw [all]; exact String.append_empty, by rw [all]⟩, nofun⟩

theorem readTail_rest (r : Reader) :
    r.readTail.2.collected = r.collected ∧ r.readTail.2.ended = r.ended := by
  unfold readTail
  simp

theorem readCollected_rest (r : Reader) :
    r.readCollected.2.collected = [] ∧ r.readCollected.2.ended = r.ended := by
  unfold readCollected
  simp only
  split
  · exact ⟨rfl, rfl⟩
  · split
    · exact readTail_rest _
    · exact ⟨rfl, rfl⟩

end Reader

namespace Channel

/-- Of the bytes written to the channel, those that were read made `text`, and the others are on
their way. -/
structure Conveys (c : Channel) (written : List UInt8) (text : String) : Prop where
  split : ∃ taken, written = taken ++ c.reader.collected ++ c.buffer ∧ c.reader.Made taken text
  ended : c.reader.ended = true → c.writing = false ∧ c.buffer = [] ∧ c.reader.collected = []

variable {c : Channel} {written : List UInt8} {text : String}

theorem conveys_fresh : ({} : Channel).Conveys [] "" :=
  ⟨⟨[], rfl, .inl ⟨rfl, rfl⟩⟩, nofun⟩

@[simp] theorem take_writing (c : Channel) (n : Nat) : (c.take n).2.writing = c.writing := by
  unfold take
  split <;> rfl

@[simp] theorem take_reader (c : Channel) (n : Nat) : (c.take n).2.reader = c.reader := by
  unfold take
  split <;> rfl

/-- What a look takes from the stream is no longer there. -/
theorem take_buffer (c : Channel) (n : Nat) :
    (∃ b, (c.take n).1 = .bytes b ∧ c.buffer = b ++ (c.take n).2.buffer ∧ b ≠ []) ∨
      (c.buffer = [] ∧ (c.take n).2 = c ∧ (c.take n).1 = if c.writing then .nothing else .closed) := by
  unfold take
  split
  · rename_i hb
    exact .inr ⟨hb, rfl, rfl⟩
  · rename_i b rest hb
    refine .inl ⟨b :: rest.take (n - 1), rfl, ?_, nofun⟩
    rw [hb]
    simp only [buffer]
    split
    · rename_i hl
      simpa using (List.take_of_length_le (List.drop_eq_nil_iff.mp (List.isEmpty_iff.mp hl))).symm
    · simp

/-- A reader that has come to the end of what was written keeps to its channel. -/
theorem conveys_of_gives {x : Read × Reader} {taken : List UInt8} (h : Reader.Gives taken text x)
    (hc : x.2.collected = []) (hw : written = taken ++ c.buffer)
    (he : x.2.ended = true → c.writing = false ∧ c.buffer = []) :
    ({ c with reader := x.2 } : Channel).Conveys written (text ++ x.1.string) ∧
      (x.1 = .eof → c.writing = false ∧ text = Utf8.lossy written) := by
  refine ⟨⟨⟨taken, ?_, h.made⟩, fun hx => ⟨(he hx).1, (he hx).2, hc⟩⟩, fun hx => ?_⟩
  · rw [hc, List.append_nil]
    exact hw
  obtain ⟨h1, h2⟩ := h.eof hx
  rw [hw, (he h1).2, List.append_nil]
  exact ⟨(he h1).1, h2⟩

/-- A look loses nothing, and at the end the text is that of all that was written. -/
theorem look_conveys (h : c.Conveys written text) (g : Grant) :
    (c.look g).2.Conveys written (text ++ (c.look g).1.string) ∧
      ((c.look g).1 = .eof → c.writing = false ∧ text = Utf8.lossy written) := by
  obtain ⟨taken, hw, hm⟩ := h.split
  have same : text ++ Read.pending.string = text := String.append_empty
  unfold look
  split
  · rename_i he
    obtain ⟨h1, h2, h3⟩ := h.ended he
    rw [h3, List.append_nil] at hw
    have rest := Reader.readTail_rest c.reader
    exact conveys_of_gives (Reader.readTail_gives hm he) (rest.1.trans h3) hw fun _ => ⟨h1, h2⟩
  · rename_i he
    rcases hm with ⟨ht, hp⟩ | ⟨hx, _, _⟩
    case inr => exact absurd hx he
    -- a look that finds nothing, with the reader as it is or at the end of the stream
    have stop (r : Reader) (hr : r.decoder = c.reader.decoder) (hc : r.collected = c.reader.collected)
        (hx : r.ended = true → c.writing = false ∧ c.buffer = []) :
        ({ c with reader := r.readCollected.2 } : Channel).Conveys written
            (text ++ r.readCollected.1.string) ∧
          (r.readCollected.1 = .eof → c.writing = false ∧ text = Utf8.lossy written) := by
      have rest := Reader.readCollected_rest r
      refine conveys_of_gives (Reader.readCollected_gives ht (by rw [hr, hp])) rest.1 (by rw [hc, hw]) ?_
      rw [rest.2]
      exact hx
    have nothing : ({ c with reader := (c.reader.take .nothing).2 } : Channel).Conveys written
          (text ++ (c.reader.take .nothing).1.string) ∧
        ((c.reader.take .nothing).1 = .eof → c.writing = false ∧ text = Utf8.lossy written) := by
      unfold Reader.take
      simp only
      split
      · exact ⟨same.symm ▸ h, nofun⟩
      · exact stop c.reader rfl rfl (fun hx => absurd hx he)
    cases g with
    | interrupted => exact ⟨same.symm ▸ h, nofun⟩
    | nothing => exact nothing
    | upTo n =>
      simp only
      rcases take_buffer c n with ⟨b, h1, h2, -⟩ | ⟨h1, h2, h3⟩
      · rw [h1, take_reader]
        refine ⟨⟨⟨taken, ?_, .inl ⟨same.trans ht, hp⟩⟩, fun hx => absurd hx he⟩, nofun⟩
        rw [hw, h2]
        simp [Reader.take, buffer]
      · rw [h2, h3]
        by_cases hwr : c.writing = true
        · rw [if_pos hwr]
          exact nothing
        · rw [if_neg hwr]
          exact stop { c.reader with ended := true } rfl rfl (fun _ => ⟨by simpa using hwr, h1⟩)

theorem look_ends (c : Channel) (g : Grant) :
    (c.look g).2.writing = c.writing ∧ (c.look g).2.reading = c.reading := by
  unfold look
  split
  · exact ⟨rfl, rfl⟩
  · cases g with
    | upTo n =>
      refine ⟨take_writing c n, ?_⟩
      simp only [take]
      split <;> rfl
    | nothing | interrupted => exact ⟨rfl, rfl⟩

/-- A write that somebody can read adds to what was written. -/
theorem put_conveys (h : c.Conveys written text) (hw : c.writing = true) (hr : c.reading = true)
    (bytes : List UInt8) : (c.put bytes).Conveys (written ++ bytes) text := by
  obtain ⟨taken, hs, hm⟩ := h.split
  have open_ : c.reader.ended ≠ true := fun he => by rw [(h.ended he).1] at hw; cases hw
  cases bytes with
  | nil =>
    rw [List.append_nil]
    exact h
  | cons b bytes =>
    have hp : c.put (b :: bytes) = { c with pieces := (b :: bytes) :: c.pieces } := by
      simp [put, write, hr, Except.toOption]
    rw [hp]
    refine ⟨⟨taken, ?_, hm⟩, fun he => absurd he open_⟩
    rw [hs]
    simp [buffer]

theorem put_ends (c : Channel) (bytes : List UInt8) :
    (c.put bytes).writing = c.writing ∧ (c.put bytes).reading = c.reading := by
  unfold put write
  split
  · exact ⟨rfl, rfl⟩
  · split <;> exact ⟨rfl, rfl⟩

end Channel
end ScriptHost
