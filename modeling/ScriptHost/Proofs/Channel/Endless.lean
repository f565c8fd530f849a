import Mathlib.Data.Nat.Find
import ScriptHost.Proofs.Channel.RoundTrip

/-!
# Reads of a stream that goes on for ever

The looks of a read at its stream are an endless sequence: look `n` finds bytes, nothing, or the
end of the stream, or it is interrupted (`none`) and finds nothing out. A read knows what it has
seen and no more, so all it does within its first `n` looks it does on `seen looks n`.

Only one kind of look ends the inner loop (`Breaks`): one that finds the end of the stream, or
nothing behind bytes that came. A look that brings bytes never does, however many came before it,
so a stream that is never found empty keeps a read for ever (`gather_unbroken`, `loop_unbroken`).

* `read_returns`: the first look that breaks ends the inner loop, with all bytes that came before
  it; the read then returns the text they complete, or at the end of the stream whatever is left.
  A read whose bytes complete no text goes on, and returns at the latest with the fourth break.
-/
namespace ScriptHost

/-- The bytes a look found. -/
def Receipt.content : Receipt → List UInt8
  | .bytes b => b
  | .nothing | .closed => []

namespace Reader

variable {r : Reader} {looks : ℕ → Option Receipt} {n : ℕ}

/-- What the first `n` looks found out. -/
def seen (looks : ℕ → Option Receipt) (n : ℕ) : List Receipt := (List.range n).filterMap looks

/-- The bytes that the first `n` looks brought. -/
def came (looks : ℕ → Option Receipt) (n : ℕ) : List UInt8 := (seen looks n).flatMap Receipt.content

/-- The looks behind the first `n`. -/
def later (looks : ℕ → Option Receipt) (n : ℕ) : ℕ → Option Receipt := fun i => looks (n + i)

/-- Look `n` finds the end of the stream, or nothing behind bytes that came. -/
def Breaks (looks : ℕ → Option Receipt) (n : ℕ) : Prop :=
  looks n = some .closed ∨ looks n = some .nothing ∧ ∃ m < n, ∃ b, looks m = some (.bytes b)

/-- The looks break `k` times, each time behind the break before. -/
def Rests : ℕ → (ℕ → Option Receipt) → Prop
  | 0, _ => True
  | k + 1, looks => ∃ n, Breaks looks n ∧ Rests k (later looks (n + 1))

/-- What a read of the bytes `all` returns: the text they complete, and what is left of them where
they complete none. -/
def returned (all : List UInt8) : Channel.Read :=
  if (Utf8.scan all).1 ≠ "" then .text (Utf8.scan all).1
  else if all = [] then .eof
  else .text (Utf8.lossy all)

theorem seen_succ (looks : ℕ → Option Receipt) (n : ℕ) :
    seen looks (n + 1) = seen looks n ++ (looks n).toList := by
  rw [seen, List.range_succ, List.filterMap_append]
  cases h : looks n <;> simp [seen, h]

theorem seen_add (looks : ℕ → Option Receipt) (n i : ℕ) :
    seen looks (n + i) = seen looks n ++ seen (later looks n) i := by
  induction i with
  | zero => simp [seen]
  | succ i ih => rw [← Nat.add_assoc, seen_succ, seen_succ, ih, List.append_assoc, later]

theorem came_add (looks : ℕ → Option Receipt) (n i : ℕ) :
    came looks (n + i) = came looks n ++ came (later looks n) i := by
  rw [came, seen_add, List.flatMap_append]
  rfl

/-- A look without bytes adds none. -/
theorem came_succ (h : ∀ b, looks n ≠ some (.bytes b)) : came looks (n + 1) = came looks n := by
  rw [came, seen_succ, List.flatMap_append]
  cases hx : looks n with
  | none => simp [came]
  | some x => cases x with
    | bytes b => exact absurd hx (h b)
    | nothing | closed => simp [came, Receipt.content]

theorem mem_seen {x : Receipt} : x ∈ seen looks n ↔ ∃ m < n, looks m = some x := by
  simp [seen, List.mem_filterMap]

/-- Bytes that came were found by some look. -/
theorem found_of_came (h : came looks n ≠ []) : ∃ m < n, ∃ b, looks m = some (.bytes b) := by
  obtain ⟨x, hx, hc⟩ : ∃ x ∈ seen looks n, x.content ≠ [] := by
    by_contra hn
    push Not at hn
    exact h (List.flatMap_eq_nil_iff.mpr hn)
  obtain ⟨m, hm, hl⟩ := mem_seen.mp hx
  cases x with
  | bytes b => exact ⟨m, hm, b, hl⟩
  | nothing | closed => exact absurd rfl hc

theorem came_of_found (proper : ∀ n b, looks n = some (.bytes b) → b ≠ [])
    (h : ∃ m < n, ∃ b, looks m = some (.bytes b)) : came looks n ≠ [] := by
  obtain ⟨m, hm, b, hl⟩ := h
  intro hn
  exact proper m b hl (List.flatMap_eq_nil_iff.mp hn _ (mem_seen.mpr ⟨m, hm, hl⟩))

theorem Breaks.came_succ (h : Breaks looks n) : came looks (n + 1) = came looks n := by
  refine Reader.came_succ fun b hb => ?_
  rcases h with h | ⟨h, -⟩ <;> · rw [h] at hb; cases hb

/-- What breaks still does when the looks before it count too. -/
theorem Breaks.of_later {k : ℕ} (h : Breaks (later looks k) n) : Breaks looks (k + n) := by
  rcases h with h | ⟨h, m, hm, b, hb⟩
  · exact .inl h
  · exact .inr ⟨h, k + m, Nat.add_lt_add_left hm k, b, hb⟩

theorem later_later (looks : ℕ → Option Receipt) (n i : ℕ) :
    later (later looks n) i = later looks (n + i) :=
  funext fun j => congrArg looks (Nat.add_assoc n i j).symm

/-- Looks in front of those that break take no break away. -/
theorem Rests.of_later {k m : ℕ} (h : Rests k (later looks m)) : Rests k looks := by
  cases k with
  | zero => trivial
  | succ k =>
    obtain ⟨n, hn, rest⟩ := h
    rw [later_later] at rest
    exact ⟨m + n, hn.of_later, rest⟩

theorem Rests.fewer {k j : ℕ} (hj : j ≤ k) (h : Rests k looks) : Rests j looks := by
  induction j generalizing k looks with
  | zero => trivial
  | succ j ih =>
    obtain ⟨k, rfl⟩ : ∃ i, k = i + 1 := ⟨k - 1, by omega⟩
    obtain ⟨n, hn, rest⟩ := h
    exact ⟨n, hn, ih (Nat.le_of_succ_le_succ hj) rest⟩

/-- There is a first look that breaks. -/
theorem Breaks.first (h : Breaks looks n) :
    ∃ k ≤ n, Breaks looks k ∧ ∀ m < k, ¬Breaks looks m := by
  classical
  have some_ : ∃ k, Breaks looks k := ⟨n, h⟩
  exact ⟨Nat.find some_, Nat.find_min' some_ h, Nat.find_spec some_,
    fun _ hm => Nat.find_min some_ hm⟩

/-- Behind the first of the looks that break are the others. -/
theorem Rests.first {k : ℕ} (h : Rests (k + 1) looks) :
    ∃ n, Breaks looks n ∧ (∀ m < n, ¬Breaks looks m) ∧ Rests k (later looks (n + 1)) := by
  obtain ⟨n, hn, rest⟩ := h
  obtain ⟨m, hm, first⟩ := hn.first
  refine ⟨m, first.1, first.2, Rests.of_later (m := n - m) ?_⟩
  rwa [later_later, show m + 1 + (n - m) = n + 1 by omega]

/-! ## The inner loop -/

/-- The loop goes on where it stopped. -/
theorem gather_append (out : List UInt8) (before more : List Receipt) :
    gather out (before ++ more) = match gather out before with
      | some (b, ended, rest) => some (b, ended, rest ++ more)
      | none => gather (out ++ before.flatMap Receipt.content) more := by
  induction before generalizing out with
  | nil => simp [gather]
  | cons x before ih =>
    rw [List.cons_append, List.flatMap_cons]
    cases x with
    | bytes b =>
      rw [gather, gather, ih, List.append_assoc]
      rfl
    | closed => rfl
    | nothing =>
      rw [gather, gather]
      by_cases ho : out.isEmpty
      · rw [if_pos ho, if_pos ho, ih]
        rfl
      · rw [if_neg ho, if_neg ho]

/-- As long as no look breaks, the loop goes on. -/
theorem gather_unbroken (h : ∀ m < n, ¬Breaks looks m) : gather [] (seen looks n) = none := by
  induction n with
  | zero => rfl
  | succ n ih =>
    rw [seen_succ, gather_append, ih fun m hm => h m (Nat.lt_succ_of_lt hm), List.nil_append]
    have last := h n (Nat.lt_succ_self n)
    cases hx : looks n with
    | none => rfl
    | some x => cases x with
      | bytes b => rfl
      | closed => exact absurd (.inl hx) last
      | nothing =>
        have none : came looks n = [] := by
          by_contra hc
          exact last (.inr ⟨hx, found_of_came hc⟩)
        rw [came] at none
        simp [gather, none]

/-- The first look that breaks ends the loop with all that came. -/
theorem gather_breaks (proper : ∀ n b, looks n = some (.bytes b) → b ≠ [])
    (first : ∀ m < n, ¬Breaks looks m) (h : Breaks looks n) :
    gather [] (seen looks (n + 1)) = some (came looks n, decide (looks n = some .closed), []) := by
  rw [seen_succ, gather_append, gather_unbroken first, List.nil_append, ← came]
  rcases h with h | ⟨h, found⟩
  · simp [h, gather]
  · have some_ := came_of_found proper found
    simp [h, gather, some_]

/-! ## The loop around it -/

theorem loop_unbroken (he : r.ended = false) (h : ∀ m < n, ¬Breaks looks m) (round : ℕ) :
    r.loop round (seen looks n) = none := by
  rw [loop, he, if_neg Bool.false_ne_true]
  split
  · rfl
  · rename_i hg
    rw [gather_unbroken h] at hg
    cases hg

/-- One round of a read. -/
theorem loop_of_gather (he : r.ended = false) {found rest : List Receipt} {bytes : List UInt8}
    {ended : Bool} (hg : gather [] found = some (bytes, ended, rest)) (round : ℕ) :
    r.loop round found =
      if (Utf8.scan (r.decoder.pending ++ bytes)).1 ≠ "" then
        some (.text (Utf8.scan (r.decoder.pending ++ bytes)).1,
          ⟨⟨(Utf8.scan (r.decoder.pending ++ bytes)).2⟩, [], ended⟩, round + 1, rest)
      else loop ⟨⟨(Utf8.scan (r.decoder.pending ++ bytes)).2⟩, [], ended⟩ (round + 1) rest := by
  rw [loop, he, if_neg Bool.false_ne_true]
  split
  · rename_i h
    rw [hg] at h
    cases h
  · rename_i h
    rw [hg] at h
    cases h
    simp only [Decoder.decode, Bool.not_eq_true', ne_eq, ite_not]
    by_cases ht : (Utf8.scan (r.decoder.pending ++ bytes)).1 = "" <;> simp [ht]

/-- Bytes that complete no text are returned as what is left of them. -/
theorem returned_tail {all : List UInt8} (h : (Utf8.scan all).1 = "") :
    (⟨⟨all⟩, [], true⟩ : Reader).readTail.1 = returned all := by
  have tail := Utf8.scan_of_empty h
  simp only [readTail, Decoder.finish, returned, h, ne_eq, not_true_eq_false, if_false]
  by_cases ha : all = []
  · subst ha
    rfl
  · simp [Utf8.lossy, tail, ha]

/-- Bytes are returned as a text. -/
theorem returned_text {all : List UInt8} (h : all ≠ []) : ∃ t, t ≠ "" ∧ returned all = .text t := by
  unfold returned
  split
  · exact ⟨_, ‹_›, rfl⟩
  · rename_i ht
    refine ⟨_, ?_, rfl⟩
    simp [Utf8.lossy, Utf8.scan_of_empty (not_not.mp ht), h]

/-- A break ends the read, if the bytes complete a text or the stream is at its end. -/
theorem loop_breaks (proper : ∀ n b, looks n = some (.bytes b) → b ≠ []) (he : r.ended = false)
    (first : ∀ m < n, ¬Breaks looks m) (h : Breaks looks n)
    (ends : looks n = some .closed ∨ (Utf8.scan (r.decoder.pending ++ came looks n)).1 ≠ "")
    (round : ℕ) : ∃ r' rounds, r.loop round (seen looks (n + 1)) =
      some (returned (r.decoder.pending ++ came looks n), r', rounds, []) := by
  rw [loop_of_gather he (gather_breaks proper first h)]
  by_cases ht : (Utf8.scan (r.decoder.pending ++ came looks n)).1 = ""
  · have closed : looks n = some .closed := ends.resolve_right (not_not.mpr ht)
    rw [if_neg (not_not.mpr ht), Utf8.scan_of_empty ht, loop]
    simp only [closed, decide_true, if_true, returned_tail ht]
    exact ⟨_, _, rfl⟩
  · rw [if_pos ht, returned, if_pos ht]
    exact ⟨_, _, rfl⟩

/-- Where the first break brings no result, the read goes on behind it and holds back more. -/
theorem loop_goes_on (proper : ∀ n b, looks n = some (.bytes b) → b ≠ []) (he : r.ended = false)
    (first : ∀ m < n, ¬Breaks looks m) (h : Breaks looks n) (open_ : looks n ≠ some .closed)
    (none : (Utf8.scan (r.decoder.pending ++ came looks n)).1 = "") (round i : ℕ) :
    r.loop round (seen looks (n + 1 + i)) =
      loop ⟨⟨r.decoder.pending ++ came looks n⟩, [], false⟩ (round + 1)
        (seen (later looks (n + 1)) i) := by
  have found : gather [] (seen looks (n + 1 + i)) =
      some (came looks n, false, seen (later looks (n + 1)) i) := by
    rw [seen_add, gather_append, gather_breaks proper first h]
    simp [open_]
  rw [loop_of_gather he found, if_neg (not_not.mpr none), Utf8.scan_of_empty none]

/-- Bytes that complete no text are three at most. -/
theorem held_length {x : List UInt8} (h : (Utf8.scan x).1 = "") : x.length ≤ 3 := by
  have tail := Utf8.scan_tail x
  rw [Utf8.scan_of_empty h] at tail
  exact Utf8.length_of_none tail

/-- Breaks enough bring a result, since at most three bytes are held back. -/
theorem loop_rests (proper : ∀ n b, looks n = some (.bytes b) → b ≠ []) (he : r.ended = false)
    (tail : (Utf8.scan r.decoder.pending).1 = "")
    (rests : Rests (4 - r.decoder.pending.length) looks) (round : ℕ) :
    ∃ n r' rounds, r.loop round (seen looks n) =
      some (returned (r.decoder.pending ++ came looks n), r', rounds, []) := by
  induction hk : 4 - r.decoder.pending.length using Nat.strongRecOn generalizing r looks round with
  | ind k ih =>
    have three := held_length tail
    obtain ⟨j, hj⟩ : ∃ j, 4 - r.decoder.pending.length = j + 1 :=
      ⟨3 - r.decoder.pending.length, by omega⟩
    rw [hj] at rests
    obtain ⟨n, hn, first, rests⟩ := rests.first
    by_cases ends : looks n = some .closed ∨ (Utf8.scan (r.decoder.pending ++ came looks n)).1 ≠ ""
    · obtain ⟨r', rounds, hr⟩ := loop_breaks proper he first hn ends round
      refine ⟨n + 1, r', rounds, ?_⟩
      rw [hn.came_succ]
      exact hr
    · push Not at ends
      obtain ⟨open_, none⟩ := ends
      -- the bytes that came are held back with those before, so fewer breaks are left to wait for
      have more : came looks n ≠ [] := by
        rcases hn with hx | ⟨-, found⟩
        · exact absurd hx open_
        · exact came_of_found proper found
      have longer := held_length none
      have fewer : 4 - (r.decoder.pending ++ came looks n).length ≤ j := by
        have := List.length_pos_iff.mpr more
        rw [List.length_append] at longer ⊢
        omega
      have proper' (m : ℕ) (b : List UInt8) : later looks (n + 1) m = some (.bytes b) → b ≠ [] :=
        proper _ b
      obtain ⟨i, r', rounds, hi⟩ :=
        ih (4 - (r.decoder.pending ++ came looks n).length) (by omega)
          (r := ⟨⟨r.decoder.pending ++ came looks n⟩, [], false⟩) proper' rfl none
          (rests.fewer fewer) (round + 1) rfl
      refine ⟨n + 1 + i, r', rounds, ?_⟩
      rw [loop_goes_on proper he first hn open_ none, hi, came_add, hn.came_succ, List.append_assoc]

/-- **A read returns when its stream rests.** If some look finds the end of the stream, or nothing
behind bytes that came, then the first such look ends the inner loop, not earlier and with all the
bytes that came before it. The read returns with that look what they and the bytes held back
complete, which is a text unless there are none; at the end of the stream it returns what is left of
them. A read whose bytes complete no text goes on, and returns at the latest when that has happened
four times, fewer where bytes were held back. -/
theorem read_returns (proper : ∀ n b, looks n = some (.bytes b) → b ≠ [])
    (hc : r.collected = []) (he : r.ended = false) (tail : (Utf8.scan r.decoder.pending).1 = "") :
    (∀ n, Breaks looks n → ∃ k ≤ n,
      (∀ m ≤ k, gather [] (seen looks m) = none ∧ r.follow 0 (seen looks m) = none) ∧
      gather [] (seen looks (k + 1)) = some (came looks k, decide (looks k = some .closed), []) ∧
      (looks k = some .closed ∨ (Utf8.scan (r.decoder.pending ++ came looks k)).1 ≠ "" →
        ∃ r' rounds, r.follow 0 (seen looks (k + 1)) =
          some (returned (r.decoder.pending ++ came looks k), r', rounds, [])) ∧
      (came looks k ≠ [] → ∃ t, t ≠ "" ∧
        returned (r.decoder.pending ++ came looks k) = .text t)) ∧
    (Rests (4 - r.decoder.pending.length) looks → ∃ n r' rounds, r.follow 0 (seen looks n) =
      some (returned (r.decoder.pending ++ came looks n), r', rounds, [])) := by
  simp only [← loop_eq_follow hc]
  refine ⟨fun n hn => ?_, fun rests => loop_rests proper he tail rests 0⟩
  obtain ⟨k, hk, hb, first⟩ := hn.first
  refine ⟨k, hk, fun m hm => ?_, gather_breaks proper first hb,
    fun ends => loop_breaks proper he first hb ends 0, fun hcame => ?_⟩
  · have before : ∀ i < m, ¬Breaks looks i := fun i hi => first i (hi.trans_le hm)
    exact ⟨gather_unbroken before, loop_unbroken he before 0⟩
  · exact returned_text (by simp [hcame])

/-- The looks at a script that writes a letter, rests, and goes on so. -/
def letterThenRest (n : ℕ) : Option Receipt := if n % 2 = 0 then some (.bytes [0x61]) else some .nothing

/-- A script that rests is heard at its first rest. -/
theorem read_returns_letterThenRest :
    (∃ r' rounds, ({} : Reader).follow 0 (seen letterThenRest 2) = some (.text "a", r', rounds, [])) ∧
      ∃ n r' rounds, ({} : Reader).follow 0 (seen letterThenRest n) =
        some (returned ([] ++ came letterThenRest n), r', rounds, []) := by
  have proper : ∀ n b, letterThenRest n = some (.bytes b) → b ≠ [] := by
    intro n b h
    unfold letterThenRest at h
    split at h <;> cases h
    exact List.cons_ne_nil _ _
  have rest (n : ℕ) : Breaks (later letterThenRest (2 * n)) 1 := by
    refine .inr ⟨?_, 0, Nat.zero_lt_one, [0x61], ?_⟩ <;> simp [later, letterThenRest, Nat.add_mod]
  have rests (k n : ℕ) : Rests k (later letterThenRest (2 * n)) := by
    induction k generalizing n with
    | zero => trivial
    | succ k ih =>
      refine ⟨1, rest n, ?_⟩
      rw [later_later]
      exact ih (n + 1)
  obtain ⟨first, again⟩ := read_returns (r := {}) proper rfl rfl rfl
  refine ⟨?_, again (rests 4 0).of_later⟩
  obtain ⟨k, hk, -, hg, text, -⟩ := first 1 (rest 0).of_later
  -- the first look brings bytes, and so does not break
  obtain rfl : k = 1 := by
    rcases Nat.le_one_iff_eq_zero_or_eq_one.mp hk with rfl | rfl
    · cases hg
    · rfl
  exact text (.inr (by decide))

/-- The looks at a script that writes without a rest. -/
def neverRests (_ : ℕ) : Option Receipt := some (.bytes [0x61])

/-- The looks at a script that writes the first byte of a character and no more. -/
def firstByteOnly (n : ℕ) : Option Receipt := if n = 0 then some (.bytes [0xE2]) else some .nothing

/-- Bytes alone do not make a read return: not if they never rest, when even its inner loop does
not end, and not if they complete no character. -/
theorem read_returns_never :
    (∀ n, gather [] (seen neverRests n) = none ∧ ({} : Reader).follow 0 (seen neverRests n) = none) ∧
      ∀ n, ({} : Reader).follow 0 (seen firstByteOnly n) = none := by
  simp only [← loop_eq_follow (r := {}) rfl]
  constructor
  · intro n
    have unbroken (m : ℕ) (_ : m < n) : ¬Breaks neverRests m := by simp [Breaks, neverRests]
    exact ⟨gather_unbroken unbroken, loop_unbroken rfl unbroken 0⟩
  · have proper : ∀ n b, firstByteOnly n = some (.bytes b) → b ≠ [] := by
      intro n b h
      unfold firstByteOnly at h
      split at h <;> cases h
      exact List.cons_ne_nil _ _
    have first : ∀ m < 1, ¬Breaks firstByteOnly m := by simp [Breaks, firstByteOnly]
    have rest : Breaks firstByteOnly 1 := .inr ⟨rfl, 0, Nat.zero_lt_one, [0xE2], rfl⟩
    intro n
    rcases Nat.lt_or_ge n 2 with hn | hn
    · exact loop_unbroken rfl (fun m hm => first m (by omega)) 0
    · obtain ⟨i, rfl⟩ : ∃ i, n = 1 + 1 + i := ⟨n - 2, by omega⟩
      rw [loop_goes_on proper rfl first rest (by decide) (by decide)]
      refine loop_unbroken rfl (fun m _ => ?_) 1
      simp [Breaks, later, firstByteOnly]

end Reader

namespace Channel.History

variable {h : History}

/-- A look that finds bytes collects them, and returns nothing. -/
theorem look_bytes {c : Channel} (he : c.reader.ended = false) {n : ℕ} (hb : c.buffer ≠ []) :
    (c.look (.upTo n)).1 = .pending ∧ (c.look (.upTo n)).2.reader.ended = false := by
  rcases take_buffer c n with ⟨b, found, -⟩ | ⟨empty, -⟩
  · unfold look
    rw [he, if_neg Bool.false_ne_true]
    simp only [found, take_reader]
    exact ⟨rfl, he⟩
  · exact absurd empty hb

/-- **Writing faster than the looks.** As long as something is written before every look, nothing is
returned, however much is written and however much of it each look may take. -/
theorem outrun (turns : List (List UInt8 × ℕ)) (full : ∀ turn ∈ turns, turn.1 ≠ [])
    (hw : h.channel.writing = true) (hr : h.channel.reading = true)
    (he : h.channel.reader.ended = false) :
    ((turns.flatMap fun turn => [.write turn.1, .look (.upTo turn.2)]).foldl use h).results =
      h.results := by
  induction turns generalizing h with
  | nil => rfl
  | cons turn turns ih =>
    obtain ⟨bytes, n⟩ := turn
    have hb : bytes ≠ [] := full _ List.mem_cons_self
    have put : h.channel.put bytes = { h.channel with pieces := bytes :: h.channel.pieces } := by
      simp [Channel.put, Channel.write, hb, hr, Except.toOption]
    have held : (h.channel.put bytes).buffer ≠ [] := by simp [put, buffer, hb]
    obtain ⟨none, open_⟩ :=
      look_bytes (c := h.channel.put bytes) (n := n) (by rw [put_reader, he]) held
    have ends := look_ends (h.channel.put bytes) (.upTo n)
    have both : (h.use (.write bytes)).use (.look (.upTo n)) = { h with
        channel := ((h.channel.put bytes).look (.upTo n)).2, written := h.written ++ bytes
        turn := h.turn + (h.channel.put bytes).rounds (.upTo n) } := by
      rw [show h.use (.write bytes) = _ from if_pos hw]
      exact if_pos none
    rw [List.flatMap_cons, List.foldl_append, List.foldl_cons, List.foldl_cons, List.foldl_nil,
      both]
    exact ih (fun turn ht => full turn (List.mem_cons_of_mem _ ht))
      (ends.1.trans ((put_ends _ _).1.trans hw)) (ends.2.trans ((put_ends _ _).2.trans hr)) open_

end Channel.History
end ScriptHost
