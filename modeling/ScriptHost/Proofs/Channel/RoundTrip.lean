import ScriptHost.Proofs.Channel

/-!
# A channel from its first byte to its last

A read is a loop. Each round looks at the stream until it has no more, decodes
what came, and goes round again if that completed no text; behind the end of
the stream one more round gives out the tail. `Reader.loop` is this loop, and
`loop_eq_follow` says that looking step by step, as `Reader.take` does, comes to
the same result after as many rounds.

`History` is a channel with what went into it and what came out of it, however
writes, the close and looks follow each other.

* `round_trip`: no text is empty; the texts are the beginning of what all bytes
  decode to, and all of it when the end is reported; behind the end there is
  nothing but the end; no read goes round more than five times; and once the writer
  is gone the end comes.
-/
namespace ScriptHost

/-! ## The loop of a read -/

namespace Reader

variable {r : Reader} {n : Nat} {x : Receipt} {looks : List Receipt}

/-- Looks until the stream has no more: what has come then, whether the end was met, and the looks
that are left. -/
def gather (out : List UInt8) : List Receipt → Option (List UInt8 × Bool × List Receipt)
  | [] => none
  | .bytes b :: looks => gather (out ++ b) looks
  | .nothing :: looks => if out.isEmpty then gather out looks else some (out, false, looks)
  | .closed :: looks => some (out, true, looks)

theorem gather_length {out b : List UInt8} {ended : Bool} {rest : List Receipt}
    (h : gather out looks = some (b, ended, rest)) : rest.length < looks.length := by
  induction looks generalizing out with
  | nil => cases h
  | cons x looks ih =>
    rw [List.length_cons]
    cases x with
    | bytes _ => exact Nat.lt_succ_of_lt (ih h)
    | closed =>
      cases h
      exact Nat.lt_succ_self _
    | nothing =>
      rw [gather] at h
      split at h
      · exact Nat.lt_succ_of_lt (ih h)
      · cases h
        exact Nat.lt_succ_self _

/-- The loop of a read, `round` rounds on: its result, the reader afterwards, the number of rounds
and the looks that are left. It has no result while the looks are too few. -/
def loop (r : Reader) (round : Nat) (looks : List Receipt) :
    Option (Channel.Read × Reader × Nat × List Receipt) :=
  if r.ended then
    let (result, r) := r.readTail
    some (result, r, round + 1, looks)
  else
    match _h : gather [] looks with
    | none => none
    | some (bytes, ended, rest) =>
      let (text, decoder) := r.decoder.decode bytes
      if !text.isEmpty then some (.text text, { decoder, ended }, round + 1, rest)
      else loop { decoder, ended } (round + 1) rest
termination_by looks.length
decreasing_by exact gather_length ‹_›

/-- How many rounds of its loop a read completes with one look. -/
def rounds (r : Reader) : Receipt → Nat
  | .bytes _ => 0
  | .nothing => if r.collected.isEmpty then 0 else 1
  -- with no text at the end of the stream, one more round gives out the tail
  | .closed => if (r.decoder.decode r.collected).1.isEmpty then 2 else 1

/-- The same read look by look. -/
def follow (r : Reader) (round : Nat) (looks : List Receipt) :
    Option (Channel.Read × Reader × Nat × List Receipt) :=
  if r.ended then
    let (result, r) := r.readTail
    some (result, r, round + 1, looks)
  else
    match looks with
    | [] => none
    | x :: looks =>
      let (result, r') := r.take x
      if result = .pending then follow r' (round + r.rounds x) looks
      else some (result, r', round + r.rounds x, looks)

/-- The tail leaves no read without a result. -/
theorem readTail_ne_pending (r : Reader) : r.readTail.1 ≠ .pending := by
  unfold readTail
  simp only
  split <;> exact nofun

theorem follow_of_ended (he : r.ended = true) (n : Nat) (looks : List Receipt) :
    r.follow n looks = some (r.readTail.1, r.readTail.2, n + 1, looks) := by
  rw [follow.eq_def, if_pos he]

theorem follow_cons (he : r.ended = false) (n : Nat) (x : Receipt) (looks : List Receipt) :
    r.follow n (x :: looks) =
      if (r.take x).1 = .pending then (r.take x).2.follow (n + r.rounds x) looks
      else some ((r.take x).1, (r.take x).2, n + r.rounds x, looks) := by
  rw [follow.eq_def, he, if_neg Bool.false_ne_true]

/-- A round, look by look. -/
theorem follow_gather (he : r.ended = false) (n : Nat) (looks : List Receipt) :
    r.follow n looks = (gather r.collected looks).bind fun (bytes, ended, rest) =>
      let (text, decoder) := r.decoder.decode bytes
      if !text.isEmpty then some (.text text, { decoder, ended }, n + 1, rest)
      else follow { decoder, ended } (n + 1) rest := by
  induction looks generalizing r n with
  | nil =>
    rw [follow.eq_def, he]
    rfl
  | cons x looks ih =>
    rw [follow_cons he]
    cases x with
    | bytes b => exact ih (r := { r with collected := r.collected ++ b }) he n
    | nothing =>
      rw [gather]
      by_cases hc : r.collected.isEmpty = true
      · simpa [take, rounds, hc] using ih he n
      · by_cases ht : (r.decoder.decode r.collected).1 = "" <;>
          simp [take, readCollected, rounds, hc, ht, he]
    | closed =>
      rw [gather, Option.bind_some]
      by_cases ht : (r.decoder.decode r.collected).1 = ""
      · simp [take, readCollected, rounds, ht, follow_of_ended, readTail_ne_pending]
      · simp [take, readCollected, rounds, ht]

/-- **Looks make up the loop**: step by step a read comes to what its loop comes to, after as many
rounds. -/
theorem loop_eq_follow (hc : r.collected = []) (n : Nat) (looks : List Receipt) :
    r.loop n looks = r.follow n looks := by
  induction hk : looks.length using Nat.strongRecOn generalizing r n looks with
  | ind k ih =>
    subst hk
    cases he : r.ended with
    | true => rw [loop, follow_of_ended he, if_pos he]
    | false =>
      rw [loop, follow_gather he, hc]
      simp only [he, Bool.false_eq_true, if_false]
      split
      · rename_i hg
        rw [hg]
        rfl
      · rename_i hg
        rw [hg, Option.bind_some]
        simp only
        split
        · rfl
        · exact ih _ (gather_length hg) rfl _ _ rfl

/-! ### What one look brings -/

/-- What a look that completed `n` rounds brings to a read: a text is not empty, the end leaves
nothing to give out, and rounds without a result made what is held back longer. -/
structure Brings (r : Reader) (n : Nat) (y : Channel.Read × Reader) : Prop where
  text : ∀ t, y.1 = .text t → t ≠ ""
  eof : y.1 = .eof → y.2.ended = true ∧ y.2.decoder.pending = []
  pending : y.1 = .pending → r.decoder.pending.length + n ≤ y.2.decoder.pending.length

theorem readTail_brings (he : r.ended = true) (n : Nat) : r.Brings n r.readTail := by
  unfold readTail
  simp only
  split
  · exact ⟨nofun, fun _ => ⟨he, rfl⟩, nofun⟩
  · rename_i ht
    refine ⟨?_, nofun, nofun⟩
    rintro _ ⟨⟩
    simpa using ht

theorem readCollected_brings (hn : r.ended = false → n ≤ r.collected.length) :
    r.Brings n r.readCollected := by
  unfold readCollected
  simp only
  split
  · rename_i ht
    refine ⟨?_, fun h => (by cases h), fun h => (by cases h)⟩
    rintro _ ⟨⟩
    simpa using ht
  · rename_i ht
    split
    · rename_i he
      have tail := readTail_brings (r := ⟨(r.decoder.decode r.collected).2, [], r.ended⟩) he n
      exact ⟨tail.text, tail.eof, fun h => absurd h (readTail_ne_pending _)⟩
    · rename_i he
      -- no text came of it, so all that was collected is held back
      have held : (r.decoder.decode r.collected).2.pending = r.decoder.pending ++ r.collected :=
        congrArg Prod.snd (Utf8.scan_of_empty (by simpa [Decoder.decode] using ht))
      refine ⟨fun _ h => (by cases h), fun h => (by cases h), fun _ => ?_⟩
      rw [held, List.length_append]
      exact Nat.add_le_add_left (hn (by simpa using he)) _

theorem take_brings (r : Reader) (x : Receipt) : r.Brings (r.rounds x) (r.take x) := by
  cases x with
  | bytes b => exact ⟨nofun, nofun, fun _ => Nat.le_refl _⟩
  | nothing =>
    unfold take rounds
    simp only
    split
    · exact ⟨nofun, nofun, fun _ => Nat.le_refl _⟩
    · rename_i hc
      exact readCollected_brings fun _ => List.length_pos_iff.mpr (by simpa using hc)
  | closed =>
    have all := readCollected_brings (r := { r with ended := true }) (n := r.rounds .closed) nofun
    exact ⟨all.text, all.eof, all.pending⟩

theorem rounds_le (r : Reader) (x : Receipt) : r.rounds x ≤ 2 := by
  unfold rounds
  split
  · exact Nat.zero_le 2
  · split <;> decide
  · split <;> decide

end Reader

/-- The system shows what has arrived, or that the writer is gone. -/
def Grant.shows : Grant → Bool
  | .upTo _ => true
  | _ => false

namespace Channel

variable {c : Channel} {written : List UInt8} {text : String}

/-- How many rounds of its loop a read completes with one look at a channel. -/
def rounds (c : Channel) (g : Grant) : Nat :=
  if c.reader.ended then 1
  else match g with
    | .upTo n => c.reader.rounds (c.take n).1
    | .nothing => c.reader.rounds .nothing
    | .interrupted => 0

theorem rounds_le (c : Channel) (g : Grant) : c.rounds g ≤ 2 := by
  unfold rounds
  split
  · decide
  · cases g with
    | upTo n => exact c.reader.rounds_le _
    | nothing => exact c.reader.rounds_le _
    | interrupted => exact Nat.zero_le 2

theorem look_brings (c : Channel) (g : Grant) :
    c.reader.Brings (c.rounds g) ((c.look g).1, (c.look g).2.reader) := by
  unfold look rounds
  split
  · rename_i he
    exact Reader.readTail_brings he 1
  · cases g with
    | interrupted => exact ⟨nofun, nofun, fun _ => Nat.le_refl _⟩
    | nothing => exact Reader.take_brings c.reader .nothing
    | upTo n =>
      simp only [take_reader]
      exact Reader.take_brings c.reader (c.take n).1

theorem Conveys.close (h : c.Conveys written text) : c.closeWriter.Conveys written text :=
  ⟨h.split, fun he => ⟨rfl, (h.ended he).2⟩⟩

/-- At most three bytes are held back. -/
theorem Conveys.held (h : c.Conveys written text) : c.reader.decoder.pending.length ≤ 3 := by
  obtain ⟨taken, -, ⟨-, hp⟩ | ⟨-, -, hp⟩⟩ := h.split
  · rw [hp]
    exact Utf8.length_of_none (Utf8.scan_tail taken)
  · rw [hp]
    exact Nat.zero_le 3

/-- The text made so far is the beginning of the text of all bytes, whatever follows them; once the
end was met, nothing does. -/
theorem Conveys.begins (h : c.Conveys written text) {more : List UInt8}
    (hm : c.reader.ended = true → more = []) :
    ∃ rest, Utf8.lossy (written ++ more) = text ++ rest := by
  obtain ⟨taken, hw, ⟨ht, -⟩ | ⟨he, ht, -⟩⟩ := h.split
  · rw [hw, List.append_assoc, List.append_assoc, Utf8.lossy_eq, Utf8.scan_append, ht]
    exact ⟨_, String.append_assoc ..⟩
  · obtain ⟨-, hb, hc⟩ := h.ended he
    refine ⟨"", ?_⟩
    rw [hm he, hw, hb, hc, ht]
    simp

/-! ## The end of the stream -/

/-- How many looks that show something are left, at most, once the writer is gone: one for each byte,
one that meets the end of the stream, one for the tail, and one for the end. -/
def left (c : Channel) : Nat :=
  if !c.reader.ended then c.buffer.length + 3
  else if c.reader.decoder.pending.isEmpty then 1
  else 2

theorem left_le (c : Channel) : c.left ≤ c.buffer.length + 3 := by
  unfold left
  split
  · exact Nat.le_refl _
  · split <;> omega

theorem left_pos (c : Channel) : 0 < c.left := by
  unfold left
  split
  · omega
  · split <;> decide

theorem left_of_ended (he : c.reader.ended = true) : c.left ≤ 2 := by
  unfold left
  rw [he]
  simp only [Bool.not_true, Bool.false_eq_true, if_false]
  split <;> decide

theorem left_of_open (he : c.reader.ended = false) : c.left = c.buffer.length + 3 := by
  rw [left, he]
  rfl

/-- The tail is given out once. -/
theorem readTail_left (he : c.reader.ended = true) :
    c.reader.readTail.1 = .eof ∨ ({ c with reader := c.reader.readTail.2 } : Channel).left < c.left := by
  unfold left Reader.readTail
  rw [he]
  cases hp : c.reader.decoder.pending with
  | nil =>
    have none : Utf8.lossy [] = "" := by decide
    exact .inl (by simp [Decoder.finish, hp, none])
  | cons b rest => exact .inr (by simp [Decoder.finish])

/-- What a look shows brings the end nearer. -/
theorem take_left (closed : c.writing = false) (he : c.reader.ended = false) (n : Nat) :
    ({ (c.take n).2 with reader := (c.reader.take (c.take n).1).2 } : Channel).left < c.left := by
  rw [left_of_open he]
  rcases take_buffer c n with ⟨b, found, buffer, some_byte⟩ | ⟨empty, same, found⟩
  · rw [found]
    rw [left_of_open (c := { (c.take n).2 with reader := (c.reader.take (.bytes b)).2 }) he]
    have more := List.length_pos_iff.mpr some_byte
    rw [buffer, List.length_append]
    change (c.take n).2.buffer.length + 3 < _
    omega
  · rw [found, closed, same]
    have ended : (c.reader.take .closed).2.ended = true := (Reader.readCollected_rest _).2
    exact Nat.lt_of_le_of_lt (left_of_ended ended) (by omega)

/-- A look that shows nothing does not take it away. -/
theorem look_left (closed : c.writing = false) (g : Grant) :
    (c.look g).1 = .eof ∨ (c.look g).2.left + (if g.shows then 1 else 0) ≤ c.left := by
  unfold look
  split
  · rename_i he
    refine (readTail_left he).imp_right fun fewer => ?_
    split
    · exact fewer
    · exact Nat.le_of_lt fewer
  · rename_i he
    have he : c.reader.ended = false := by simpa using he
    cases g with
    | upTo n =>
      simp only [take_reader]
      exact .inr (take_left closed he n)
    | interrupted => exact .inr (Nat.le_refl _)
    | nothing =>
      have still : (c.reader.take .nothing).2.ended = false := by
        unfold Reader.take
        simp only
        split
        · exact he
        · exact (Reader.readCollected_rest _).2.trans he
      exact .inr (Nat.le_of_eq ((left_of_open still).trans (left_of_open he).symm))

/-! ## Histories -/

/-- One end of a channel is used. -/
inductive Use where
  | write (bytes : List UInt8)
  | close
  | look (g : Grant)

/-- A channel with what went into it and what came out of it. -/
structure History where
  channel : Channel := {}
  written : List UInt8 := []
  /-- What the reads have returned. -/
  results : List Read := []
  /-- How many rounds each of them took. -/
  turns : List Nat := []
  /-- How many rounds the read that goes on has completed. -/
  turn : Nat := 0

namespace History

/-- The history goes on; behind the close there is nothing to write with. -/
def use (h : History) : Use → History
  | .write bytes =>
    if h.channel.writing then
      { h with channel := h.channel.put bytes, written := h.written ++ bytes }
    else h
  | .close => { h with channel := h.channel.closeWriter }
  | .look g =>
    let (result, channel) := h.channel.look g
    let turn := h.turn + h.channel.rounds g
    if result = .pending then { h with channel, turn }
    else { h with
      channel, results := h.results ++ [result], turns := h.turns ++ [turn], turn := 0 }

/-- The texts `texts` have been returned, and behind them the end `ends` times. -/
structure Came (h : History) (texts : List String) (ends : Nat) : Prop where
  results : h.results = texts.map .text ++ List.replicate ends .eof
  proper : ∀ t ∈ texts, t ≠ ""
  conveys : h.channel.Conveys h.written (String.join texts)
  spent : 0 < ends → h.channel.reader.ended = true ∧ h.channel.reader.decoder.pending = [] ∧
    String.join texts = Utf8.lossy h.written

/-- What holds of every history: rounds without a result have made what is held back longer. -/
structure Kept (h : History) : Prop where
  came : ∃ texts ends, h.Came texts ends
  reading : h.channel.reading = true
  turn : h.turn ≤ h.channel.reader.decoder.pending.length
  turns : ∀ n ∈ h.turns, n ≤ 5

variable {h : History}

theorem kept_fresh : ({} : History).Kept :=
  ⟨⟨[], 0, rfl, nofun, conveys_fresh, nofun⟩, rfl, Nat.le_refl 0, nofun⟩

theorem put_reader (c : Channel) (bytes : List UInt8) : (c.put bytes).reader = c.reader := by
  unfold put write
  split
  · rfl
  · split <;> rfl

/-- Behind the end of the stream a look finds the end. -/
theorem look_spent (he : c.reader.ended = true) (hp : c.reader.decoder.pending = []) (g : Grant) :
    c.look g = (.eof, c) := by
  obtain ⟨pieces, writing, reading, ⟨⟨pending⟩, collected, ended⟩⟩ := c
  cases he
  cases hp
  rfl

/-- A result is one text more, or the end. -/
theorem Came.look {texts : List String} {ends : Nat} (came : h.Came texts ends) {g : Grant}
    (hr : (h.channel.look g).1 ≠ .pending) : ∃ texts ends, (h.use (.look g)).Came texts ends := by
  obtain ⟨conveys, eof⟩ := look_conveys came.conveys g
  have brings := look_brings h.channel g
  have used : h.use (.look g) = { h with
      channel := (h.channel.look g).2, results := h.results ++ [(h.channel.look g).1]
      turns := h.turns ++ [h.turn + h.channel.rounds g], turn := 0 } := if_neg hr
  rw [used]
  rcases Nat.eq_zero_or_pos ends with rfl | hpos
  · have none := came.results
    rw [List.replicate_zero, List.append_nil] at none
    cases hx : (h.channel.look g).1 with
    | pending => exact absurd hx hr
    | text t =>
      refine ⟨texts ++ [t], 0, ?_, ?_, ?_, nofun⟩
      · simp [none]
      · intro s hs
        rcases List.mem_append.mp hs with hs | hs
        · exact came.proper s hs
        · obtain rfl := List.mem_singleton.mp hs
          exact brings.text s hx
      · rw [hx] at conveys
        simpa [Read.string] using conveys
    | eof =>
      refine ⟨texts, 1, by simp [none], came.proper, ?_, fun _ => ?_⟩
      · rw [hx] at conveys
        simpa [Read.string] using conveys
      · obtain ⟨he, hp⟩ := brings.eof hx
        exact ⟨he, hp, (eof hx).2⟩
  · obtain ⟨he, hp, ht⟩ := came.spent hpos
    rw [look_spent he hp]
    refine ⟨texts, ends + 1, ?_, came.proper, came.conveys, fun _ => ⟨he, hp, ht⟩⟩
    rw [came.results, List.append_assoc, List.replicate_succ']

theorem Kept.write (kept : h.Kept) (bytes : List UInt8) : (h.use (.write bytes)).Kept := by
  obtain ⟨texts, ends, came⟩ := kept.came
  unfold History.use
  simp only
  split
  · rename_i hw
    have before : ¬0 < ends := fun hpos => by
      rw [(came.conveys.ended (came.spent hpos).1).1] at hw
      cases hw
    refine ⟨⟨texts, ends, came.results, came.proper, ?_, fun hpos => absurd hpos before⟩, ?_, ?_,
      kept.turns⟩
    · exact put_conveys came.conveys hw kept.reading bytes
    · exact (put_ends h.channel bytes).2.trans kept.reading
    · rw [put_reader]
      exact kept.turn
  · exact kept

/-- A look that gives no result: the read goes on. -/
theorem Kept.pending (kept : h.Kept) {g : Grant} (hr : (h.channel.look g).1 = .pending) :
    (h.use (.look g)).Kept := by
  obtain ⟨texts, ends, came⟩ := kept.came
  obtain ⟨conveys, -⟩ := look_conveys came.conveys g
  have used : h.use (.look g) = { h with
      channel := (h.channel.look g).2, turn := h.turn + h.channel.rounds g } := if_pos hr
  have before : ¬0 < ends := fun hpos => by
    obtain ⟨he, hp, -⟩ := came.spent hpos
    rw [look_spent he hp] at hr
    cases hr
  rw [used]
  refine ⟨⟨texts, ends, came.results, came.proper, ?_, fun hpos => absurd hpos before⟩,
    (look_ends h.channel g).2.trans kept.reading, ?_, kept.turns⟩
  · rw [hr] at conveys
    simpa [Read.string] using conveys
  · exact (Nat.add_le_add_right kept.turn _).trans ((look_brings h.channel g).pending hr)

/-- A look that ends its read. -/
theorem Kept.result (kept : h.Kept) {g : Grant} (hr : (h.channel.look g).1 ≠ .pending) :
    (h.use (.look g)).Kept := by
  obtain ⟨texts, ends, came⟩ := kept.came
  have used : h.use (.look g) = { h with
      channel := (h.channel.look g).2, results := h.results ++ [(h.channel.look g).1]
      turns := h.turns ++ [h.turn + h.channel.rounds g], turn := 0 } := if_neg hr
  have next := came.look hr
  rw [used] at next ⊢
  refine ⟨next, (look_ends h.channel g).2.trans kept.reading, Nat.zero_le _, fun n hn => ?_⟩
  rcases List.mem_append.mp hn with hn | hn
  · exact kept.turns n hn
  · -- at most three rounds before this look, and two with it
    obtain rfl := List.mem_singleton.mp hn
    exact Nat.add_le_add (kept.turn.trans came.conveys.held) (h.channel.rounds_le g)

theorem Kept.use (kept : h.Kept) (u : Use) : (h.use u).Kept := by
  cases u with
  | write bytes => exact kept.write bytes
  | close =>
    obtain ⟨texts, ends, came⟩ := kept.came
    exact ⟨⟨texts, ends, came.results, came.proper, came.conveys.close, came.spent⟩, kept.reading,
      kept.turn, kept.turns⟩
  | look g =>
    by_cases hr : (h.channel.look g).1 = .pending
    · exact kept.pending hr
    · exact kept.result hr

theorem kept_foldl (uses : List Use) (kept : h.Kept) : (uses.foldl use h).Kept := by
  induction uses generalizing h with
  | nil => exact kept
  | cons u uses ih => exact ih (kept.use u)

/-! ### The end comes -/

theorem look_channel (h : History) (g : Grant) :
    (h.use (.look g)).channel = (h.channel.look g).2 ∧ (h.use (.look g)).written = h.written ∧
      h.results <+: (h.use (.look g)).results := by
  simp only [use]
  split
  · exact ⟨rfl, rfl, List.prefix_rfl⟩
  · exact ⟨rfl, rfl, List.prefix_append ..⟩

theorem looks_results (gs : List Grant) :
    ((gs.map Use.look).foldl use h).written = h.written ∧
      h.results <+: ((gs.map Use.look).foldl use h).results := by
  induction gs generalizing h with
  | nil => exact ⟨rfl, List.prefix_rfl⟩
  | cons g gs ih =>
    obtain ⟨written, results⟩ := ih (h := h.use (.look g))
    obtain ⟨-, written', results'⟩ := look_channel h g
    exact ⟨written.trans written', results'.trans results⟩

/-- Each look that shows something brings the end nearer, so it comes. -/
theorem eof_of_looks {gs : List Grant} (closed : h.channel.writing = false)
    (enough : h.channel.left ≤ gs.countP Grant.shows) :
    .eof ∈ ((gs.map Use.look).foldl use h).results := by
  induction gs generalizing h with
  | nil => exact absurd enough (Nat.not_le_of_lt h.channel.left_pos)
  | cons g gs ih =>
    obtain ⟨channel, -, -⟩ := look_channel h g
    rcases look_left closed g with found | fewer
    · have result : .eof ∈ (h.use (.look g)).results := by
        simp [use, found]
      exact (looks_results gs).2.subset result
    · refine ih (h := h.use (.look g)) ?_ ?_
      · rw [channel]
        exact (look_ends h.channel g).1.trans closed
      · rw [List.countP_cons] at enough
        rw [channel]
        omega

/-- Then the whole text has come. -/
theorem whole_of_looks (kept : h.Kept) {gs : List Grant} (closed : h.channel.writing = false)
    (enough : h.channel.left ≤ gs.countP Grant.shows) :
    ∃ texts ends, ((gs.map Use.look).foldl use h).results =
        texts.map .text ++ List.replicate (ends + 1) .eof ∧
      String.join texts = Utf8.lossy h.written := by
  have found := eof_of_looks closed enough
  obtain ⟨texts, ends, came⟩ := (kept_foldl (gs.map Use.look) kept).came
  rw [came.results] at found ⊢
  cases ends with
  | zero => simp at found
  | succ ends =>
    have whole := (came.spent (Nat.succ_pos _)).2.2
    rw [(looks_results gs).1] at whole
    exact ⟨texts, ends, rfl, whole⟩

/-- **Round trip.** Whatever is written, whenever the writer goes, and however the system hands the
bytes out: the reads return texts, none of them empty, and behind them only the end. The texts are
the beginning of the text of all bytes written and of any that may follow, once the end was met
none; the end is returned only behind the close, when the texts are the whole text, and from then
on every read returns it at once. No read goes round its loop more than five times. Once the writer
is gone, the whole text and the end come out as soon as the system has shown something as often as
there are bytes left, and three times more. -/
theorem round_trip (uses : List Use) :
    let h := uses.foldl use {}
    ∃ (texts : List String) (ends : Nat),
      h.results = texts.map .text ++ List.replicate ends .eof ∧
      (∀ t ∈ texts, t ≠ "") ∧
      (∀ more, (h.channel.reader.ended = true → more = []) →
        ∃ rest, Utf8.lossy (h.written ++ more) = String.join texts ++ rest) ∧
      (0 < ends → h.channel.writing = false ∧ String.join texts = Utf8.lossy h.written ∧
        ∀ g, h.channel.look g = (.eof, h.channel)) ∧
      (∀ n ∈ h.turn :: h.turns, n ≤ 5) ∧
      (h.channel.writing = false → ∀ gs : List Grant,
        h.channel.buffer.length + 3 ≤ gs.countP Grant.shows →
          ∃ whole ends, ((gs.map Use.look).foldl use h).results =
              whole.map .text ++ List.replicate (ends + 1) .eof ∧
            String.join whole = Utf8.lossy h.written) := by
  intro h
  have kept : h.Kept := kept_foldl uses kept_fresh
  obtain ⟨texts, ends, came⟩ := kept.came
  refine ⟨texts, ends, came.results, came.proper, fun more hm => came.conveys.begins hm,
    fun hpos => ?_, fun n hn => ?_, fun closed gs enough => ?_⟩
  · obtain ⟨he, hp, ht⟩ := came.spent hpos
    exact ⟨(came.conveys.ended he).1, ht, look_spent he hp⟩
  · rcases List.mem_cons.mp hn with rfl | hn
    · exact (kept.turn.trans came.conveys.held).trans (by decide)
    · exact kept.turns n hn
  · exact whole_of_looks kept closed (h.channel.left_le.trans enough)

/-- Something is written in two pieces, and the second is not completed; a look takes half of the first,
and then the writer goes. -/
def cutOff : List Use := [.write [0x68, 0x69], .look (.upTo 1), .look .nothing, .write [0xC3], .close]

/-- The text that was not read, and the end of the stream, come with five looks more. -/
theorem round_trip_cutOff :
    (cutOff.foldl use {}).results = [.text "h"] ∧
      ((List.replicate 5 (.look (.upTo 1))).foldl use (cutOff.foldl use {})).results =
        [.text "h", .text "i", .text "\ufffd", .eof] ∧
      ∃ whole ends, ((List.replicate 5 (.look (.upTo 1))).foldl use (cutOff.foldl use {})).results =
          whole.map .text ++ List.replicate (ends + 1) .eof ∧
        String.join whole = Utf8.lossy [0x68, 0x69, 0xC3] := by
  refine ⟨by decide +kernel, by decide +kernel, ?_⟩
  obtain ⟨_, _, _, _, _, _, _, comes⟩ := round_trip cutOff
  exact comes (by decide +kernel) (.replicate 5 (.upTo 1)) (by decide +kernel)

/-- A sequence that is never completed comes in three pieces: the fifth round gives it out. -/
example :
    let h := ([.write [0xF0], .look (.upTo 1), .look .nothing, .write [0x9F], .look (.upTo 1),
      .look .nothing, .write [0x98], .look (.upTo 1), .look .nothing, .close,
      .look (.upTo 1)] : List Use).foldl use {}
    h.results = [.text "\ufffd"] ∧ h.turns = [5] := by
  decide +kernel

end History
end Channel
end ScriptHost
