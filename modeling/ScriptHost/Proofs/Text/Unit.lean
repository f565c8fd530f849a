import Mathlib.Algebra.Group.Nat.Defs
import Mathlib.Data.List.Infix
import ScriptHost.Text.Utf8

/-!
# Units of a byte string

`Utf8.head` looks at bits and ranges of single bytes. Here it is tied to the
encoding of characters itself, `String.utf8EncodeChar`:

* `head_eq_iff`: all that it can find at the beginning of a string (`Reads`).
* `encode_of_head`, `head_encode`: it reads a character exactly where the
  encoding of that character stands.
* `head_append`: a unit that was recognised stays the same whatever follows.
* `begins_of_incomplete`: an incomplete tail is a proper prefix of an encoding.
* `maximalSubpart_of_invalid`: what it calls invalid is the maximal subpart
  (`MaximalSubpart`), and there is only one (`MaximalSubpart.unique`).
-/
namespace ScriptHost.Utf8

/-! ## Bytes as numbers -/

theorem toNat_low (a : UInt8) (k : Nat) (m : UInt8) (hm : m.toNat = 2 ^ k - 1) :
    (a &&& m).toNat = a.toNat % 2 ^ k := by
  rw [UInt8.toNat_and, hm, Nat.and_two_pow_sub_one_eq_mod]

theorem payload_eq (b : UInt8) : payload b = b.toNat % 64 := toNat_low b 6 0x3F rfl

theorem isContinuation_iff {b : UInt8} :
    isContinuation b = true ↔ 0x80 ≤ b.toNat ∧ b.toNat ≤ 0xBF := by
  simp [isContinuation, UInt8.le_iff_toNat_le]

theorem isSecond_iff {a b : UInt8} : isSecond a b = true ↔
    0x80 ≤ b.toNat ∧ b.toNat ≤ 0xBF ∧ (a.toNat = 0xE0 → 0xA0 ≤ b.toNat) ∧
      (a.toNat = 0xED → b.toNat ≤ 0x9F) ∧ (a.toNat = 0xF0 → 0x90 ≤ b.toNat) ∧
      (a.toNat = 0xF4 → b.toNat ≤ 0x8F) := by
  unfold isSecond
  simp only [← UInt8.toNat_inj, UInt8.reduceToNat]
  split
  · simp [UInt8.le_iff_toNat_le]; omega
  split
  · simp [UInt8.le_iff_toNat_le]; omega
  split
  · simp [UInt8.le_iff_toNat_le]; omega
  split
  · simp [UInt8.le_iff_toNat_le]; omega
  · rw [isContinuation_iff]; omega

theorem width_eq (a : UInt8) : width a =
    if a.toNat ≤ 0x7F then 1
    else if 0xC2 ≤ a.toNat ∧ a.toNat ≤ 0xDF then 2
    else if 0xE0 ≤ a.toNat ∧ a.toNat ≤ 0xEF then 3
    else if 0xF0 ≤ a.toNat ∧ a.toNat ≤ 0xF4 then 4 else 0 := by
  simp [width, UInt8.le_iff_toNat_le]

/-- The five classes of lead bytes. -/
theorem width_cases (a : UInt8) :
    (width a = 1 ∧ a.toNat ≤ 0x7F) ∨ (width a = 2 ∧ 0xC2 ≤ a.toNat ∧ a.toNat ≤ 0xDF) ∨
      (width a = 3 ∧ 0xE0 ≤ a.toNat ∧ a.toNat ≤ 0xEF) ∨
      (width a = 4 ∧ 0xF0 ≤ a.toNat ∧ a.toNat ≤ 0xF4) ∨ width a = 0 := by
  rw [width_eq]
  repeat' split
  all_goals simp_all

theorem two_le_width {a : UInt8} (h : 2 ≤ width a) : width a = 2 ∨ width a = 3 ∨ width a = 4 := by
  rcases width_cases a with ⟨hw, -⟩ | ⟨hw, -⟩ | ⟨hw, -⟩ | ⟨hw, -⟩ | hw <;> omega

theorem three_le_width {a : UInt8} (h : 3 ≤ width a) : width a = 3 ∨ width a = 4 := by
  rcases two_le_width (a := a) (by omega) with hw | hw | hw <;> omega

theorem width_two {a : UInt8} (h1 : 0xC2 ≤ a.toNat) (h2 : a.toNat ≤ 0xDF) : width a = 2 := by
  rw [width_eq, if_neg (by omega), if_pos ⟨h1, h2⟩]

theorem width_three {a : UInt8} (h1 : 0xE0 ≤ a.toNat) (h2 : a.toNat ≤ 0xEF) : width a = 3 := by
  rw [width_eq, if_neg (by omega), if_neg (by omega), if_pos ⟨h1, h2⟩]

theorem width_four {a : UInt8} (h1 : 0xF0 ≤ a.toNat) (h2 : a.toNat ≤ 0xF4) : width a = 4 := by
  rw [width_eq, if_neg (by omega), if_neg (by omega), if_neg (by omega), if_pos ⟨h1, h2⟩]

theorem val_ofNat {n : Nat} (h : n.isValidChar) : (Char.ofNat n).val.toNat = n := by
  unfold Char.ofNat
  rw [dif_pos h]
  rfl

theorem byte_eq {n : Nat} {b : UInt8} (h : n = b.toNat) : UInt8.ofNat n = b := by
  rw [h, UInt8.ofNat_toNat]

theorem toNat_byte {n : Nat} (h : n < 256) : (UInt8.ofNat n).toNat = n := by
  rw [UInt8.toNat_ofNat', Nat.mod_eq_of_lt h]

/-! ## Encodings by their length -/

/-- `a` and `b` are the two bytes of code point `v`. -/
structure Two (v : Nat) (a b : UInt8) : Prop where
  above : 0x7F < v
  below : v ≤ 0x7FF
  first : a.toNat = v / 64 + 0xC0
  second : b.toNat = v % 64 + 0x80

/-- The three bytes of code point `v`, which is no surrogate. -/
structure Three (v : Nat) (a b c : UInt8) : Prop where
  above : 0x7FF < v
  below : v ≤ 0xFFFF
  valid : v < 0xD800 ∨ 0xDFFF < v
  first : a.toNat = v / 4096 + 0xE0
  second : b.toNat = v / 64 % 64 + 0x80
  third : c.toNat = v % 64 + 0x80

/-- The four bytes of code point `v`. -/
structure Four (v : Nat) (a b c d : UInt8) : Prop where
  above : 0xFFFF < v
  below : v ≤ 0x10FFFF
  first : a.toNat = v / 262144 + 0xF0
  second : b.toNat = v / 4096 % 64 + 0x80
  third : c.toNat = v / 64 % 64 + 0x80
  fourth : d.toNat = v % 64 + 0x80

theorem encode_one {v : Nat} {a : UInt8} (h : v ≤ 0x7F) (ha : a.toNat = v) :
    String.utf8EncodeChar (Char.ofNat v) = [a] := by
  rw [String.utf8EncodeChar, val_ofNat (.inl (by omega)), if_pos h, byte_eq (b := a) (by omega)]

theorem Two.encode {v : Nat} {a b : UInt8} (h : Two v a b) :
    String.utf8EncodeChar (Char.ofNat v) = [a, b] := by
  obtain ⟨h1, h2, ha, hb⟩ := h
  rw [String.utf8EncodeChar, val_ofNat (.inl (by omega)), if_neg (by omega), if_pos h2,
    byte_eq (b := a) (by omega), byte_eq (b := b) (by omega)]

theorem Three.encode {v : Nat} {a b c : UInt8} (h : Three v a b c) :
    String.utf8EncodeChar (Char.ofNat v) = [a, b, c] := by
  obtain ⟨h1, h2, hv, ha, hb, hc⟩ := h
  have hv : v.isValidChar := hv.imp id fun h => ⟨h, by omega⟩
  rw [String.utf8EncodeChar, val_ofNat hv, if_neg (by omega), if_neg (by omega), if_pos h2,
    byte_eq (b := a) (by omega), byte_eq (b := b) (by omega), byte_eq (b := c) (by omega)]

theorem Four.encode {v : Nat} {a b c d : UInt8} (h : Four v a b c d) :
    String.utf8EncodeChar (Char.ofNat v) = [a, b, c, d] := by
  obtain ⟨h1, h2, ha, hb, hc, hd⟩ := h
  rw [String.utf8EncodeChar, val_ofNat (.inr ⟨by omega, by omega⟩), if_neg (by omega),
    if_neg (by omega), if_neg (by omega), byte_eq (b := a) (by omega), byte_eq (b := b) (by omega),
    byte_eq (b := c) (by omega), byte_eq (b := d) (by omega)]

theorem head_one {v : Nat} {a : UInt8} (h : v ≤ 0x7F) (ha : a.toNat = v) (r : List UInt8) :
    head (a :: r) = .char (Char.ofNat v) 1 := by
  have hw : width a = 1 := by rw [width_eq, if_pos (by omega)]
  simp only [head, hw, ha]

theorem Two.head {v : Nat} {a b : UInt8} (h : Two v a b) (r : List UInt8) :
    head (a :: b :: r) = .char (Char.ofNat v) 2 := by
  obtain ⟨h1, h2, ha, hb⟩ := h
  have hw : width a = 2 := width_two (by omega) (by omega)
  have hs : isSecond a b = true := isSecond_iff.mpr (by omega)
  have hn : a.toNat % 2 ^ 5 * 64 + b.toNat % 64 = v := by omega
  simp only [Utf8.head, hw, hs, payload_eq, toNat_low a 5 0x1F rfl, hn, if_true]

theorem Three.head {v : Nat} {a b c : UInt8} (h : Three v a b c) (r : List UInt8) :
    head (a :: b :: c :: r) = .char (Char.ofNat v) 3 := by
  obtain ⟨h1, h2, hv, ha, hb, hc⟩ := h
  have hw : width a = 3 := width_three (by omega) (by omega)
  have hs : isSecond a b = true := isSecond_iff.mpr (by omega)
  have ht : isContinuation c = true := isContinuation_iff.mpr (by omega)
  have hn : (a.toNat % 2 ^ 4 * 64 + b.toNat % 64) * 64 + c.toNat % 64 = v := by omega
  simp only [Utf8.head, hw, hs, ht, payload_eq, toNat_low a 4 0x0F rfl, hn, Bool.not_true,
    Bool.false_eq_true, if_false, if_true]

theorem Four.head {v : Nat} {a b c d : UInt8} (h : Four v a b c d) (r : List UInt8) :
    head (a :: b :: c :: d :: r) = .char (Char.ofNat v) 4 := by
  obtain ⟨h1, h2, ha, hb, hc, hd⟩ := h
  have hw : width a = 4 := width_four (by omega) (by omega)
  have hs : isSecond a b = true := isSecond_iff.mpr (by omega)
  have ht : isContinuation c = true := isContinuation_iff.mpr (by omega)
  have hu : isContinuation d = true := isContinuation_iff.mpr (by omega)
  have hn : ((a.toNat % 2 ^ 3 * 64 + b.toNat % 64) * 64 + c.toNat % 64) * 64 + d.toNat % 64 = v := by
    omega
  simp only [Utf8.head, hw, hs, ht, hu, payload_eq, toNat_low a 3 0x07 rfl, hn, Bool.not_true,
    Bool.false_eq_true, if_false, if_true]

/-! ## What a string begins with -/

/-- `x` begins with unit `u`. A unit is a character, or it breaks off at the end of the string or at
a byte that may not stand there. -/
inductive Reads : List UInt8 → Head → Prop where
  | done : Reads [] .done
  | one {v : Nat} {a : UInt8} (r : List UInt8) : v ≤ 0x7F → a.toNat = v →
      Reads (a :: r) (.char (Char.ofNat v) 1)
  | two {v : Nat} {a b : UInt8} (r : List UInt8) : Two v a b →
      Reads (a :: b :: r) (.char (Char.ofNat v) 2)
  | three {v : Nat} {a b c : UInt8} (r : List UInt8) : Three v a b c →
      Reads (a :: b :: c :: r) (.char (Char.ofNat v) 3)
  | four {v : Nat} {a b c d : UInt8} (r : List UInt8) : Four v a b c d →
      Reads (a :: b :: c :: d :: r) (.char (Char.ofNat v) 4)
  | cutLead {a : UInt8} : 2 ≤ width a → Reads [a] .incomplete
  | cutSecond {a b : UInt8} : 3 ≤ width a → isSecond a b = true → Reads [a, b] .incomplete
  | cutThird {a b c : UInt8} : width a = 4 → isSecond a b = true → isContinuation c = true →
      Reads [a, b, c] .incomplete
  | badLead {a : UInt8} (r : List UInt8) : width a = 0 → Reads (a :: r) (.invalid 1)
  | badSecond {a b : UInt8} (r : List UInt8) : 2 ≤ width a → isSecond a b = false →
      Reads (a :: b :: r) (.invalid 1)
  | badThird {a b c : UInt8} (r : List UInt8) : 3 ≤ width a → isSecond a b = true →
      isContinuation c = false → Reads (a :: b :: c :: r) (.invalid 2)
  | badFourth {a b c d : UInt8} (r : List UInt8) : width a = 4 → isSecond a b = true →
      isContinuation c = true → isContinuation d = false →
      Reads (a :: b :: c :: d :: r) (.invalid 3)

theorem reads_head (x : List UInt8) : Reads x (head x) := by
  rcases x with _ | ⟨a, r⟩
  · exact .done
  rcases width_cases a with ⟨hw, h1⟩ | ⟨hw, h1, h2⟩ | ⟨hw, h1, h2⟩ | ⟨hw, h1, h2⟩ | hw <;>
    simp only [head, hw, payload_eq]
  · exact .one r h1 rfl
  · rcases r with _ | ⟨b, r⟩
    · exact .cutLead (by omega)
    cases hb : isSecond a b <;> simp only [hb]
    · exact .badSecond r (by omega) hb
    rw [if_pos trivial, toNat_low a 5 0x1F rfl]
    rw [isSecond_iff] at hb
    exact .two r ⟨by omega, by omega, by omega, by omega⟩
  · rcases r with _ | ⟨b, r⟩
    · exact .cutLead (by omega)
    cases hb : isSecond a b <;> simp only [hb]
    · exact .badSecond r (by omega) hb
    rcases r with _ | ⟨c, r⟩
    · exact .cutSecond (by omega) hb
    cases hc : isContinuation c <;> simp only [hc]
    · exact .badThird r (by omega) hb hc
    rw [toNat_low a 4 0x0F rfl]
    rw [isSecond_iff] at hb
    rw [isContinuation_iff] at hc
    exact .three r ⟨by omega, by omega, by omega, by omega, by omega, by omega⟩
  · rcases r with _ | ⟨b, r⟩
    · exact .cutLead (by omega)
    cases hb : isSecond a b <;> simp only [hb]
    · exact .badSecond r (by omega) hb
    rcases r with _ | ⟨c, r⟩
    · exact .cutSecond (by omega) hb
    cases hc : isContinuation c <;> simp only [hc]
    · exact .badThird r (by omega) hb hc
    rcases r with _ | ⟨d, r⟩
    · exact .cutThird hw hb hc
    cases hd : isContinuation d <;> simp only [hd]
    · exact .badFourth r hw hb hc hd
    rw [toNat_low a 3 0x07 rfl]
    rw [isSecond_iff] at hb
    rw [isContinuation_iff] at hc hd
    exact .four r ⟨by omega, by omega, by omega, by omega, by omega, by omega⟩
  · exact .badLead r hw

theorem Reads.head_eq {x : List UInt8} {u : Head} (h : Reads x u) : head x = u := by
  cases h with
  | done => rfl
  | one r h ha => exact head_one h ha r
  | two r h => exact h.head r
  | three r h => exact h.head r
  | four r h => exact h.head r
  | cutLead hw => rcases two_le_width hw with hw | hw | hw <;> simp only [head, hw]
  | cutSecond hw hb => rcases three_le_width hw with hw | hw <;> simp [head, hw, hb]
  | cutThird hw hb hc => simp [head, hw, hb, hc]
  | badLead r hw => simp only [head, hw]
  | badSecond r hw hb => rcases two_le_width hw with hw | hw | hw <;> simp [head, hw, hb]
  | badThird r hw hb hc => rcases three_le_width hw with hw | hw <;> simp [head, hw, hb, hc]
  | badFourth r hw hb hc hd => simp [head, hw, hb, hc, hd]

theorem head_eq_iff {x : List UInt8} {u : Head} : head x = u ↔ Reads x u :=
  ⟨fun h => h ▸ reads_head x, Reads.head_eq⟩

/-! ## Characters -/

/-- The encoding of a character is read as that character, whatever follows. -/
theorem head_encode (c : Char) (r : List UInt8) :
    head (String.utf8EncodeChar c ++ r) = .char c (String.utf8EncodeChar c).length := by
  obtain ⟨v, hv, rfl⟩ : ∃ v : Nat, v.isValidChar ∧ Char.ofNat v = c :=
    ⟨c.val.toNat, c.valid, Char.ofNat_toNat c⟩
  by_cases h1 : v ≤ 0x7F
  · have ha : (UInt8.ofNat v).toNat = v := toNat_byte (by omega)
    rw [encode_one h1 ha]
    exact head_one h1 ha r
  by_cases h2 : v ≤ 0x7FF
  · have h : Two v (.ofNat (v / 64 + 0xC0)) (.ofNat (v % 64 + 0x80)) :=
      ⟨by omega, h2, toNat_byte (by omega), toNat_byte (by omega)⟩
    rw [h.encode]
    exact h.head r
  by_cases h3 : v ≤ 0xFFFF
  · have h : Three v (.ofNat (v / 4096 + 0xE0)) (.ofNat (v / 64 % 64 + 0x80)) (.ofNat (v % 64 + 0x80)) :=
      ⟨by omega, h3, hv.imp id And.left, toNat_byte (by omega), toNat_byte (by omega),
        toNat_byte (by omega)⟩
    rw [h.encode]
    exact h.head r
  · have h4 : v ≤ 0x10FFFF := by rcases hv with hv | hv <;> omega
    have h : Four v (.ofNat (v / 262144 + 0xF0)) (.ofNat (v / 4096 % 64 + 0x80))
        (.ofNat (v / 64 % 64 + 0x80)) (.ofNat (v % 64 + 0x80)) :=
      ⟨by omega, h4, toNat_byte (by omega), toNat_byte (by omega), toNat_byte (by omega),
        toNat_byte (by omega)⟩
    rw [h.encode]
    exact h.head r

/-- What is read as a character is the encoding of that character. -/
theorem encode_of_head {x : List UInt8} {c : Char} {n : Nat} (h : head x = .char c n) :
    ∃ r, x = String.utf8EncodeChar c ++ r ∧ n = (String.utf8EncodeChar c).length := by
  cases head_eq_iff.mp h with
  | one r hv ha => rw [encode_one hv ha]; exact ⟨r, rfl, rfl⟩
  | two r hv => rw [hv.encode]; exact ⟨r, rfl, rfl⟩
  | three r hv => rw [hv.encode]; exact ⟨r, rfl, rfl⟩
  | four r hv => rw [hv.encode]; exact ⟨r, rfl, rfl⟩

/-! ## Units in a longer string -/

/-- A unit that was recognised stays the same whatever follows. -/
theorem head_append {x : List UInt8} (y : List UInt8) (hd : head x ≠ .done)
    (hi : head x ≠ .incomplete) : head (x ++ y) = head x := by
  apply Reads.head_eq
  generalize hu : head x = u at hd hi ⊢
  cases head_eq_iff.mp hu with
  | done => exact absurd rfl hd
  | one r h ha => exact .one (r ++ y) h ha
  | two r h => exact .two (r ++ y) h
  | three r h => exact .three (r ++ y) h
  | four r h => exact .four (r ++ y) h
  | cutLead | cutSecond | cutThird => exact absurd rfl hi
  | badLead r hw => exact .badLead (r ++ y) hw
  | badSecond r hw hb => exact .badSecond (r ++ y) hw hb
  | badThird r hw hb hc => exact .badThird (r ++ y) hw hb hc
  | badFourth r hw hb hc he => exact .badFourth (r ++ y) hw hb hc he

/-- An incomplete tail is refused as a whole by a byte that continues nothing. -/
theorem head_incomplete_cons {x : List UInt8} {b : UInt8} (hb : isContinuation b = false)
    (h : head x = .incomplete) (y : List UInt8) : head (x ++ b :: y) = .invalid x.length := by
  have second (a : UInt8) : isSecond a b = false := by
    rw [Bool.eq_false_iff, Ne, isContinuation_iff] at hb
    rw [Bool.eq_false_iff, Ne, isSecond_iff]
    omega
  apply Reads.head_eq
  cases head_eq_iff.mp h with
  | cutLead hw => exact .badSecond y hw (second _)
  | cutSecond hw hs => exact .badThird y hw hs hb
  | cutThird hw hs hc => exact .badFourth y hw hs hc hb

/-- The least byte that may stand behind a lead byte. -/
def leastSecond (a : UInt8) : UInt8 := if a = 0xE0 then 0xA0 else if a = 0xF0 then 0x90 else 0x80

theorem isSecond_leastSecond (a : UInt8) : isSecond a (leastSecond a) = true := by
  rw [isSecond_iff, leastSecond]
  simp only [← UInt8.toNat_inj, UInt8.reduceToNat]
  split
  · simp; omega
  split
  · simp; omega
  · simp; omega

/-- What completes an incomplete tail. -/
def completion : List UInt8 → List UInt8
  | [] => []
  | [a] => leastSecond a :: List.replicate (width a - 2) 0x80
  | a :: r => List.replicate (width a - 1 - r.length) 0x80

theorem head_completion {x : List UInt8} (h : head x = .incomplete) :
    completion x ≠ [] ∧ ∃ c, head (x ++ completion x) = .char c (x ++ completion x).length := by
  have ht : isContinuation 0x80 = true := rfl
  cases head_eq_iff.mp h with
  | @cutLead a hw =>
    have hs := isSecond_leastSecond a
    rcases two_le_width hw with hw | hw | hw <;> simp [completion, head, hw, hs, ht]
  | cutSecond hw hb => rcases three_le_width hw with hw | hw <;> simp [completion, head, hw, hb, ht]
  | cutThird hw hb hc => simp [completion, head, hw, hb, hc, ht]

/-- An invalid subpart is one byte or an incomplete tail that the next byte refuses; the bytes up to
that one settle it. -/
theorem head_invalid {x : List UInt8} {n : Nat} (h : head x = .invalid n) :
    0 < n ∧ n ≤ x.length ∧ (n = 1 ∨ head (x.take n) = .incomplete) ∧
      ∀ m, n < m → head (x.take m) = .invalid n := by
  cases head_eq_iff.mp h with
  | badLead r hw =>
    refine ⟨by omega, by simp, .inl rfl, fun m hm => ?_⟩
    obtain ⟨m, rfl⟩ : ∃ k, m = k + 1 := ⟨m - 1, by omega⟩
    exact (Reads.badLead (r.take m) hw).head_eq
  | badSecond r hw hb =>
    refine ⟨by omega, by simp, .inl rfl, fun m hm => ?_⟩
    obtain ⟨m, rfl⟩ : ∃ k, m = k + 2 := ⟨m - 2, by omega⟩
    exact (Reads.badSecond (r.take m) hw hb).head_eq
  | badThird r hw hb hc =>
    refine ⟨by omega, by simp, .inr (Reads.cutSecond hw hb).head_eq, fun m hm => ?_⟩
    obtain ⟨m, rfl⟩ : ∃ k, m = k + 3 := ⟨m - 3, by omega⟩
    exact (Reads.badThird (r.take m) hw hb hc).head_eq
  | badFourth r hw hb hc hd =>
    refine ⟨by omega, by simp, .inr (Reads.cutThird hw hb hc).head_eq, fun m hm => ?_⟩
    obtain ⟨m, rfl⟩ : ∃ k, m = k + 4 := ⟨m - 4, by omega⟩
    exact (Reads.badFourth (r.take m) hw hb hc hd).head_eq

/-! ## Maximal invalid subparts -/

/-- `p` begins the encoding of some character. -/
def Begins (p : List UInt8) : Prop := ∃ c : Char, p <+: String.utf8EncodeChar c

/-- `p` is the maximal subpart of an ill-formed string `x`: no character stands at its beginning,
and `p` is the longest piece of it that is a single byte or begins some character. -/
structure MaximalSubpart (p x : List UInt8) : Prop where
  isPrefix : p <+: x
  noChar : ∀ c : Char, ¬ String.utf8EncodeChar c <+: x
  piece : p.length = 1 ∨ p ≠ [] ∧ Begins p
  maximal : ∀ q, q <+: x → Begins q → q.length ≤ p.length

theorem MaximalSubpart.pos {p x : List UInt8} (h : MaximalSubpart p x) : 0 < p.length := by
  rcases h.piece with h | ⟨h, -⟩
  · omega
  · exact List.length_pos_iff.mpr h

/-- There is only one. -/
theorem MaximalSubpart.unique {p q x : List UInt8} (hp : MaximalSubpart p x)
    (hq : MaximalSubpart q x) : p = q := by
  have hl : p.length = q.length := by
    have h1 := hp.pos
    have h2 := hq.pos
    rcases hp.piece with hp1 | ⟨-, hpb⟩ <;> rcases hq.piece with hq1 | ⟨-, hqb⟩
    · omega
    · have := hp.maximal q hq.isPrefix hqb; omega
    · have := hq.maximal p hp.isPrefix hpb; omega
    · have := hp.maximal q hq.isPrefix hqb
      have := hq.maximal p hp.isPrefix hpb
      omega
  exact (List.prefix_of_prefix_length_le hp.isPrefix hq.isPrefix hl.le).eq_of_length hl

theorem head_eq_char {x : List UInt8} {c : Char} (h : String.utf8EncodeChar c <+: x) :
    head x = .char c (String.utf8EncodeChar c).length := by
  obtain ⟨r, rfl⟩ := h
  exact head_encode c r

/-- An incomplete tail is a proper prefix of the encoding of some character. -/
theorem begins_of_incomplete {x : List UInt8} (h : head x = .incomplete) :
    ∃ y c, y ≠ [] ∧ x ++ y = String.utf8EncodeChar c := by
  obtain ⟨hne, c, hc⟩ := head_completion h
  obtain ⟨r, hr, hl⟩ := encode_of_head hc
  rw [hr, List.length_append] at hl
  have hr0 : r = [] := List.length_eq_zero_iff.mp (by omega)
  exact ⟨completion x, c, hne, by rw [hr, hr0, List.append_nil]⟩

theorem maximalSubpart_of_incomplete {x : List UInt8} (h : head x = .incomplete) :
    MaximalSubpart x x := by
  refine ⟨List.prefix_rfl, fun c hc => ?_, .inr ⟨fun hx => ?_, ?_⟩, fun q hq _ => hq.length_le⟩
  · rw [head_eq_char hc] at h; cases h
  · rw [hx] at h; cases h
  · obtain ⟨y, c, -, hy⟩ := begins_of_incomplete h
    exact ⟨c, y, hy⟩

theorem maximalSubpart_of_invalid {x : List UInt8} {n : Nat} (h : head x = .invalid n) :
    MaximalSubpart (x.take n) x := by
  obtain ⟨hn, hl, hp, hm⟩ := head_invalid h
  have hlen : (x.take n).length = n := by rw [List.length_take]; omega
  refine ⟨List.take_prefix n x, fun c hc => ?_, ?_, fun q hq hb => ?_⟩
  · rw [head_eq_char hc] at h; cases h
  · rcases hp with rfl | hp
    · exact .inl hlen
    · refine .inr ⟨fun h0 => ?_, ?_⟩
      · rw [h0] at hlen; simp at hlen; omega
      · obtain ⟨y, c, -, hy⟩ := begins_of_incomplete hp
        exact ⟨c, y, hy⟩
  · -- a longer piece is refused by its own bytes, and so is every string it begins
    rw [hlen]
    by_contra hlt
    obtain ⟨c, y, hy⟩ := hb
    have hq' := hm q.length (by omega)
    rw [← List.prefix_iff_eq_take.mp hq] at hq'
    have hc := head_append y (by rw [hq']; nofun) (by rw [hq']; nofun)
    rw [hy, hq', ← List.append_nil (String.utf8EncodeChar c), head_encode] at hc
    cases hc

end ScriptHost.Utf8
