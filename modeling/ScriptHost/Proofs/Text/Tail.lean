import ScriptHost.Proofs.Text.Chunks

/-!
# What a decoder holds back

`Partial p` says that `p` is the beginning of a character and not all of it.
After any chunks a decoder holds back the end of its input that is partial, and
nothing if no end of it is: there is at most one.

* `head_eq_incomplete_iff`: `Utf8.head` finds a string incomplete if it is partial.
* `scan_append_partial`: a scan stops before a partial end, whatever comes before it.
* `feed_pending`: what was told, what is held back, and what it is given up for.
-/
namespace ScriptHost

namespace Utf8

variable {p x : List UInt8} {b : UInt8}

/-- `p` is not empty, and becomes the encoding of some character only by further bytes. -/
def Partial (p : List UInt8) : Prop :=
  p ≠ [] ∧ ∃ c y, y ≠ [] ∧ p ++ y = String.utf8EncodeChar c

theorem head_eq_incomplete_iff : head p = .incomplete ↔ Partial p := by
  constructor
  · intro h
    obtain ⟨y, c, hy, hc⟩ := begins_of_incomplete h
    have hp : p ≠ [] := fun h0 => by rw [h0] at h; cases h
    exact ⟨hp, c, y, hy, hc⟩
  · rintro ⟨hp, c, y, hy, hc⟩
    have whole : head (p ++ y) = .char c (p ++ y).length := by
      rw [hc, ← List.append_nil (String.utf8EncodeChar c), head_encode]
      simp
    -- a unit at the beginning of `p` would be the one of the whole, and too long
    cases hu : head p with
    | incomplete => rfl
    | done => exact absurd (head_eq_done hu) hp
    | char d n =>
      have same := head_append y (by rw [hu]; nofun) (by rw [hu]; nofun)
      rw [whole, hu] at same
      obtain ⟨r, hr, hn⟩ := encode_of_head hu
      have long : (p ++ y).length = n := congrArg (fun | .char _ n => n | _ => 0) same
      have : n ≤ p.length := by rw [hr, List.length_append]; omega
      have := List.length_pos_iff.mpr hy
      rw [List.length_append] at long
      omega
    | invalid n =>
      have same := head_append y (by rw [hu]; nofun) (by rw [hu]; nofun)
      rw [whole, hu] at same
      cases same

/-- A partial character has one byte to three. -/
theorem Partial.length (h : Partial p) : 1 ≤ p.length ∧ p.length ≤ 3 :=
  ⟨List.length_pos_iff.mpr h.1, length_of_none (by rw [head_eq_incomplete_iff.mpr h]; rfl)⟩

theorem toNat_lead (h : 2 ≤ width b) : 0xC2 ≤ b.toNat := by
  rcases width_cases b with ⟨hw, -⟩ | ⟨-, hb, -⟩ | ⟨-, hb, -⟩ | ⟨-, hb, -⟩ | hw <;> omega

/-- None of its bytes is ASCII. -/
theorem Partial.not_ascii (h : Partial p) (hb : b ∈ p) : 0x80 ≤ b.toNat := by
  have lead {a : UInt8} (hw : 2 ≤ width a) : 0x80 ≤ a.toNat := Nat.le_trans (by decide) (toNat_lead hw)
  cases head_eq_iff.mp (head_eq_incomplete_iff.mpr h) with
  | cutLead hw =>
    obtain rfl := List.mem_singleton.mp hb
    exact lead hw
  | cutSecond hw hs =>
    rcases List.mem_pair.mp hb with rfl | rfl
    · exact lead (by omega)
    · exact (isSecond_iff.mp hs).1
  | cutThird hw hs hc =>
    simp only [List.mem_cons, List.not_mem_nil, or_false] at hb
    rcases hb with rfl | rfl | rfl
    · exact lead (by omega)
    · exact (isSecond_iff.mp hs).1
    · exact (isContinuation_iff.mp hc).1

/-- Its first byte continues nothing. -/
theorem Partial.begins (h : Partial p) : ∃ a r, p = a :: r ∧ isContinuation a = false := by
  have lead {a : UInt8} (hw : 2 ≤ width a) : isContinuation a = false := by
    have := toNat_lead hw
    rw [Bool.eq_false_iff, Ne, isContinuation_iff]
    omega
  cases head_eq_iff.mp (head_eq_incomplete_iff.mpr h) with
  | cutLead hw => exact ⟨_, _, rfl, lead hw⟩
  | cutSecond hw => exact ⟨_, _, rfl, lead (by omega)⟩
  | cutThird hw => exact ⟨_, _, rfl, lead (by omega)⟩

/-- What a scan leaves over is nothing or a partial character. -/
theorem scan_snd_cases (x : List UInt8) : (scan x).2 = [] ∨ Partial (scan x).2 := by
  have tail := scan_tail x
  cases h : head (scan x).2 with
  | done => exact .inl (head_eq_done h)
  | incomplete => exact .inr (head_eq_incomplete_iff.mp h)
  | char | invalid => rw [h] at tail; cases tail

/-- What a scan leaves over is the end of what it has scanned. -/
theorem scan_snd_suffix (x : List UInt8) : (scan x).2 <:+ x := by
  induction hk : x.length using Nat.strongRecOn generalizing x with
  | ind k ih =>
    subst hk
    cases hu : (head x).unit? with
    | none => rw [scan_of_none hu]
    | some u =>
      obtain ⟨c, n⟩ := u
      have hn := unit?_size hu
      rw [scan_of_some hu]
      exact (ih _ (by rw [List.length_drop]; omega) _ rfl).trans (List.drop_suffix n x)

/-- A scan stops before a partial end, which refuses what was open before it. -/
theorem scan_append_partial (h : Partial p) (x : List UInt8) : scan (x ++ p) = (lossy x, p) := by
  have stops : scan p = ("", p) := scan_of_none (by rw [head_eq_incomplete_iff.mpr h]; rfl)
  rw [scan_append, lossy_eq x]
  rcases scan_snd_cases x with none | rest
  · rw [none, List.nil_append, stops]
    rfl
  · obtain ⟨a, r, rfl, ha⟩ := h.begins
    have incomplete := head_eq_incomplete_iff.mpr rest
    have refused : (head ((scan x).2 ++ a :: r)).unit? = some (replacement, (scan x).2.length) := by
      rw [head_incomplete_cons ha incomplete]
      rfl
    rw [scan_of_some refused, List.drop_left, stops, lossy_of_incomplete incomplete, String.append_empty]

/-- The text of a scan is that of all bytes before the end at which it stops. -/
theorem scan_parts (x : List UInt8) :
    ∃ seen, x = seen ++ (scan x).2 ∧ (scan x).1 = lossy seen := by
  rcases scan_snd_cases x with none | rest
  · refine ⟨x, by rw [none, List.append_nil], ?_⟩
    rw [lossy_eq x, none]
    exact String.append_empty.symm
  · obtain ⟨seen, split⟩ := scan_snd_suffix x
    refine ⟨seen, split.symm, ?_⟩
    have parts := scan_append_partial rest seen
    rw [split] at parts
    rw [parts]

/-- The end at which a scan stops is the one that is partial. -/
theorem scan_snd_iff (hp : p ≠ []) : (scan x).2 = p ↔ p <:+ x ∧ Partial p := by
  constructor
  · rintro rfl
    exact ⟨scan_snd_suffix x, (scan_snd_cases x).resolve_left hp⟩
  · rintro ⟨⟨y, rfl⟩, h⟩
    rw [scan_append_partial h]

end Utf8

namespace Decoder

/-- A partial character is given up for one U+FFFD. -/
theorem finish_fst {d : Decoder} (h : d.pending = [] ∨ Utf8.Partial d.pending) :
    d.finish.1 = if d.pending.isEmpty then "" else String.singleton Utf8.replacement := by
  rcases h with none | rest
  · rw [finish, none]
    rfl
  · rw [if_neg (by simpa using rest.1)]
    exact Utf8.lossy_of_incomplete (Utf8.head_eq_incomplete_iff.mpr rest)

/-- **A decoder holds back what is partial, and nothing else.** Whatever it was fed, the texts it has
told are the one text of the bytes before those it holds back. These are none, or one byte to three
that begin a character: the end of the whole input that is incomplete from its first byte on, of which
there is at most one. So nothing is held back behind an ASCII byte, and at the end it is given up for
one U+FFFD if it is anything. -/
theorem feed_pending (chunks : List (List UInt8)) :
    let (text, d) := ({} : Decoder).feed chunks
    (∃ seen, chunks.flatten = seen ++ d.pending ∧ text = Utf8.lossy seen ∧
      ∀ cs, Utf8.Decodes seen cs ↔ cs = text.toList) ∧
    (d.pending = [] ∨ 1 ≤ d.pending.length ∧ d.pending.length ≤ 3 ∧ Utf8.Partial d.pending) ∧
    (∀ tail, tail ≠ [] →
      (d.pending = tail ↔ tail <:+ chunks.flatten ∧ Utf8.head tail = .incomplete)) ∧
    (∀ b, chunks.flatten.getLast? = some b → b.toNat ≤ 0x7F → d.pending = []) ∧
    d.finish.1 = if d.pending.isEmpty then "" else String.singleton Utf8.replacement := by
  rw [feed_eq_scan rfl]
  simp only [List.nil_append]
  generalize chunks.flatten = whole
  have cases_ := Utf8.scan_snd_cases whole
  refine ⟨?_, ?_, fun tail some_ => ?_, fun b last ascii => ?_, ?_⟩
  · obtain ⟨seen, split, text⟩ := Utf8.scan_parts whole
    exact ⟨seen, split, text, fun cs => by rw [text]; exact Utf8.decodes_iff⟩
  · exact cases_.imp_right fun rest => ⟨rest.length.1, rest.length.2, rest⟩
  · rw [Utf8.head_eq_incomplete_iff]
    exact Utf8.scan_snd_iff some_
  · -- the last byte of the input is the last of what is held back
    refine cases_.resolve_right fun rest => ?_
    obtain ⟨seen, split⟩ := Utf8.scan_snd_suffix whole
    rw [← split, List.getLast?_append_of_ne_nil seen rest.1] at last
    have := rest.not_ascii (List.mem_of_getLast? last)
    omega
  · exact finish_fst cases_

/-- The second byte makes a surrogate of the first: both are refused at once, and the next is held
back. -/
example : ({} : Decoder).feed [[0xED], [0xA0, 0xF0]] = ("\ufffd\ufffd", ⟨[0xF0]⟩) := by
  decide +kernel

end Decoder
end ScriptHost
