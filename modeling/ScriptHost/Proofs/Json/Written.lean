import Mathlib.Data.List.Basic
import ScriptHost.Proofs.Json.Reader

/-!
# Written JSON is read back

Every class of characters that is escaped is read back as the character it
stands for, so a quoted text is read back whole (`reads_quote`). From there it
goes up: numbers (`reads_repr`), and objects of members that are read back
(`reads_object`).
-/
namespace ScriptHost.Json

/-! ## Characters -/

theorem hexValue?_hexDigit {n : Nat} (h : n < 16) : hexValue? (hexDigit n) = some n := by
  have all : ∀ i : Fin 16, hexValue? (hexDigit i) = some i.val := by decide
  exact all ⟨n, h⟩

theorem hexValue4?_low {n : Nat} (h : n < 0x20) :
    hexValue4? '0' '0' (hexDigit (n / 16)) (hexDigit (n % 16)) = some n := by
  have zero : hexValue? '0' = some 0 := rfl
  have high := hexValue?_hexDigit (n := n / 16) (by omega)
  have low := hexValue?_hexDigit (n := n % 16) (by omega)
  simp only [hexValue4?, zero, high, low, Option.bind_eq_bind, Option.bind_some, Option.some.injEq]
  omega

/-- `p` is what is read of an escaped `c`, and it stands for `c`. -/
structure Escapes (c : Char) (p : Piece) : Prop where
  read : ∀ r, pieces (escape c ++ r) = (pieces r).map fun x => (p :: x.1, x.2)
  stands : ∀ ps, assemble (p :: ps) = (assemble ps).map (c :: ·)

theorem escapes_char {c : Char}
    (read : ∀ r, pieces (escape c ++ r) = (pieces r).map fun x => (.char c :: x.1, x.2)) :
    Escapes c (.char c) := ⟨read, fun _ => rfl⟩

/-- An escape of two letters. -/
theorem escapes_short {c e : Char} (written : escape c = ['\\', e]) (short : shortEscape? e = some c)
    (other : e ≠ 'u') : Escapes c (.char c) := by
  refine escapes_char fun r => ?_
  rw [written, List.cons_append, List.cons_append, List.nil_append, pieces]
  · rw [short]
    cases pieces r <;> rfl
  · intro a b c d r h
    exact absurd h other

/-- A control character without an escape of two letters. -/
theorem escapes_long {c : Char} (low : c.toNat < 0x20)
    (written : escape c = ['\\', 'u', '0', '0', hexDigit (c.toNat / 16), hexDigit (c.toNat % 16)]) :
    Escapes c (.code c.toNat) := by
  refine ⟨fun r => ?_, fun ps => ?_⟩
  · simp only [written, List.cons_append, List.nil_append, pieces, hexValue4?_low low]
    cases pieces r <;> rfl
  · have small : c.toNat < highSurrogate := by
      rw [highSurrogate]
      omega
    rw [assemble.eq_def (.code _ :: ps)]
    simp only [small, true_or, if_true, Char.ofNat_toNat]

/-- A character that stands for itself. -/
theorem escapes_plain {c : Char} (written : escape c = [c]) (high : 0x20 ≤ c.toNat) (quote : c ≠ '"')
    (backslash : c ≠ '\\') : Escapes c (.char c) := by
  refine escapes_char fun r => ?_
  rw [written, List.cons_append, List.nil_append, pieces]
  · rw [if_neg (by omega)]
    cases pieces r <;> rfl
  · exact quote
  · exact backslash

/-- **Every character is read back**, whichever way it is escaped. -/
theorem exists_escapes (c : Char) : ∃ p, Escapes c p := by
  by_cases h1 : c = '"'
  · exact ⟨_, escapes_short (e := '"') (by rw [h1]; rfl) (by rw [h1]; rfl) (by decide)⟩
  by_cases h2 : c = '\\'
  · exact ⟨_, escapes_short (e := '\\') (by rw [h2]; rfl) (by rw [h2]; rfl) (by decide)⟩
  by_cases h3 : c = '\n'
  · exact ⟨_, escapes_short (e := 'n') (by rw [h3]; rfl) (by rw [h3]; rfl) (by decide)⟩
  by_cases h4 : c = '\r'
  · exact ⟨_, escapes_short (e := 'r') (by rw [h4]; rfl) (by rw [h4]; rfl) (by decide)⟩
  by_cases h5 : c = '\t'
  · exact ⟨_, escapes_short (e := 't') (by rw [h5]; rfl) (by rw [h5]; rfl) (by decide)⟩
  by_cases h6 : c = '\x08'
  · exact ⟨_, escapes_short (e := 'b') (by rw [h6]; rfl) (by rw [h6]; rfl) (by decide)⟩
  by_cases h7 : c = '\x0c'
  · exact ⟨_, escapes_short (e := 'f') (by rw [h7]; rfl) (by rw [h7]; rfl) (by decide)⟩
  by_cases h8 : c.toNat < 0x20
  · exact ⟨_, escapes_long h8 (by simp [escape, h1, h2, h3, h4, h5, h6, h7, h8])⟩
  · exact ⟨_, escapes_plain (by simp [escape, h1, h2, h3, h4, h5, h6, h7, h8]) (by omega) h1 h2⟩

/-- No escape holds a line break. -/
theorem newline_notMem_escape (c : Char) : '\n' ∉ escape c := by
  have digit (n : Nat) (h : n < 16) : '\n' ≠ hexDigit n := by
    have all : ∀ i : Fin 16, '\n' ≠ hexDigit i := by decide
    exact all ⟨n, h⟩
  unfold escape
  by_cases h3 : c = '\n'
  · simp [h3]
  · have first := digit (c.toNat / 16)
    have second := digit (c.toNat % 16) (by omega)
    split_ifs with h1 h2 h4 h5 h6 h7 h8 <;> simp [Ne.symm h3, second]
    exact first (by omega)

/-! ## Strings -/

/-- A text between quotes, as characters. -/
theorem quote_toList (s : String) :
    (quote s).toList = '"' :: (s.toList.flatMap escape ++ ['"']) := by
  have push (l : List Char) (out : String) : (l.foldl String.push out).toList = out.toList ++ l := by
    induction l generalizing out with
    | nil => simp
    | cons c l ih => simp [ih]
  have fold (l : List Char) (out : String) :
      (l.foldl (fun out c => (escape c).foldl String.push out) out).toList =
        out.toList ++ l.flatMap escape := by
    induction l generalizing out with
    | nil => simp
    | cons c l ih => simp [ih, push]
  simp [quote, String.foldl_eq_foldl_toList, fold]

/-- An escaped text is read back up to the quote behind it. -/
theorem stringBody_escaped (s : String) (r : List Char) :
    stringBody (s.toList.flatMap escape ++ '"' :: r) = some (s, r) := by
  have read (cs : List Char) : ∃ ps, pieces (cs.flatMap escape ++ '"' :: r) = some (ps, r) ∧
      assemble ps = some cs := by
    induction cs with
    | nil => exact ⟨[], by rw [List.flatMap_nil, List.nil_append, pieces], rfl⟩
    | cons c cs ih =>
      obtain ⟨ps, read, whole⟩ := ih
      obtain ⟨p, h⟩ := exists_escapes c
      refine ⟨p :: ps, ?_, ?_⟩
      · rw [List.flatMap_cons, List.append_assoc, h.read, read]
        rfl
      · rw [h.stands, whole]
        rfl
  obtain ⟨ps, read, whole⟩ := read s.toList
  simp [stringBody, read, whole]

/-! ## Values -/

variable {α : Type} {item : List Char → Option (α × List Char)}

/-- Characters that close an array or an object. -/
def Closes (c : Char) : Prop := c = ']' ∨ c = '\x7d'

/-- What can stand behind a value. -/
def Ends (rest : List Char) : Prop := ∀ c ∈ rest.head?, c = ',' ∨ Closes c

theorem Closes.ends {c : Char} (h : Closes c) (rest : List Char) : Ends (c :: rest) := by
  intro d hd
  cases hd
  exact .inr h

theorem Closes.not_blank {c : Char} (h : Closes c) : isBlank c = false := by
  rcases h with rfl | rfl <;> rfl

/-- `t` is read as `a`, whatever ends it; it begins with no blank and nothing that closes. -/
structure Reads (item : List Char → Option (α × List Char)) (a : α) (t : List Char) : Prop where
  read : ∀ rest, Ends rest → item (t ++ rest) = some (a, rest)
  begins : ∃ c r, t = c :: r ∧ isBlank c = false ∧ ¬ Closes c

theorem Reads.skipBlanks_eq {a : α} {t : List Char} (h : Reads item a t) (rest : List Char) :
    skipBlanks (t ++ rest) = t ++ rest := by
  obtain ⟨c, r, rfl, hc, -⟩ := h.begins
  simp [skipBlanks, hc]

theorem reads_quote (depth : Nat) (s : String) :
    Reads (value (depth + 1)) (.string s) (quote s).toList := by
  refine ⟨fun rest _ => ?_, ⟨'"', _, quote_toList s, rfl, by simp [Closes]⟩⟩
  rw [quote_toList, List.cons_append, List.append_assoc, List.singleton_append, value,
    stringBody_escaped]
  rfl

theorem Ends.not_number {rest : List Char} (h : Ends rest) :
    ∀ c ∈ rest.head?, c.isDigit = false ∧ c ≠ '.' ∧ c ≠ 'e' ∧ c ≠ 'E' := by
  intro c hc
  rcases h c hc with rfl | rfl | rfl <;> decide

/-- Digits are read as far as they go. -/
theorem digits_append {ds rest : List Char} (all : ∀ c ∈ ds, c.isDigit) (some_digit : ds ≠ [])
    (h : Ends rest) : digits (ds ++ rest) = some (ds, rest) := by
  have none_behind : rest.takeWhile Char.isDigit = [] ∧ rest.dropWhile Char.isDigit = rest := by
    cases rest with
    | nil => exact ⟨rfl, rfl⟩
    | cons c r =>
      have hc := (h.not_number c rfl).1
      exact ⟨List.takeWhile_cons_of_neg (by simp [hc]), List.dropWhile_cons_of_neg (by simp [hc])⟩
  have taken : (ds ++ rest).takeWhile Char.isDigit = ds ++ rest.takeWhile Char.isDigit :=
    List.takeWhile_append_of_pos all
  have dropped : (ds ++ rest).dropWhile Char.isDigit = rest.dropWhile Char.isDigit :=
    List.dropWhile_append_of_pos all
  rw [digits, taken, dropped, none_behind.1, none_behind.2, List.append_nil, if_neg]
  simpa using some_digit

theorem isDigit_of_mem {n : Nat} {c : Char} (h : c ∈ Nat.toDigits 10 n) : c.isDigit = true :=
  Nat.isDigit_of_mem_toDigits (by decide) (by decide) h

theorem ne_of_isDigit {c d : Char} (h : c.isDigit = true) (other : d.isDigit = false) : c ≠ d := by
  rintro rfl
  rw [h] at other
  cases other

/-- The digits of a number above zero do not begin with a zero. -/
theorem exists_toDigits {n : Nat} (h : 0 < n) : ∃ c r, Nat.toDigits 10 n = c :: r ∧ c ≠ '0' := by
  induction n using Nat.strongRecOn with
  | ind n ih =>
    by_cases small : n < 10
    · refine ⟨n.digitChar, [], Nat.toDigits_of_lt_base small, ?_⟩
      have all : ∀ i : Fin 10, 0 < i.val → i.val.digitChar ≠ '0' := by decide
      exact all ⟨n, small⟩ h
    · obtain ⟨c, r, front, hc⟩ := ih (n / 10) (by omega) (by omega)
      refine ⟨c, r ++ Nat.toDigits 10 (n % 10), ?_, hc⟩
      have parts : 10 * (n / 10) + n % 10 = n := Nat.div_add_mod n 10
      rw [← parts, ← Nat.toDigits_append_toDigits (by decide) (by omega) (by omega), front, parts]
      rfl

/-- A whole number is read as it is written. -/
theorem whole_toDigits (n : Nat) {rest : List Char} (h : Ends rest) :
    whole (Nat.toDigits 10 n ++ rest) = some (Nat.toDigits 10 n, rest) := by
  by_cases zero : n = 0
  · subst zero
    rfl
  · obtain ⟨c, r, hd, hc⟩ := exists_toDigits (Nat.pos_of_ne_zero zero)
    have read := digits_append (fun _ => isDigit_of_mem) (Nat.toDigits_ne_nil (n := n)) h
    rw [hd] at read ⊢
    rw [List.cons_append, whole]
    · exact read
    · intro x hx
      exact hc (List.cons.inj hx).1

/-- Only the digits of a number are read: nothing that ends it is a part of it. -/
theorem number_toDigits (n : Nat) {rest : List Char} (h : Ends rest) :
    number (Nat.toDigits 10 n ++ rest) = some (.number (Nat.toDigits 10 n), rest) := by
  have unsigned : sign (Nat.toDigits 10 n ++ rest) = ([], Nat.toDigits 10 n ++ rest) := by
    obtain ⟨c, r, hd⟩ := List.exists_cons_of_ne_nil (Nat.toDigits_ne_nil (n := n) (b := 10))
    have digit : c.isDigit = true := isDigit_of_mem (hd ▸ List.mem_cons_self)
    rw [hd, List.cons_append, sign]
    intro r' hx
    exact ne_of_isDigit digit (by decide) (List.cons.inj hx).1
  have ended : fraction rest = some ([], rest) ∧ exponent rest = some ([], rest) := by
    cases rest with
    | nil => exact ⟨rfl, rfl⟩
    | cons c r =>
      obtain ⟨-, point, e, E⟩ := h.not_number c rfl
      refine ⟨?_, ?_⟩
      · rw [fraction]
        intro r' hx
        exact point (List.cons.inj hx).1
      · simp [exponent, e, E]
  simp [number, unsigned, whole_toDigits n h, ended]

/-- A number is read as it is written. -/
theorem reads_repr (depth n : Nat) :
    Reads (value (depth + 1)) (.number n.repr.toList) n.repr.toList := by
  rw [Nat.toList_repr]
  obtain ⟨c, r, hd⟩ := List.exists_cons_of_ne_nil (Nat.toDigits_ne_nil (n := n) (b := 10))
  have digit : c.isDigit = true := isDigit_of_mem (hd ▸ List.mem_cons_self)
  refine ⟨fun rest h => ?_, c, r, hd, ?_, ?_⟩
  · have read := number_toDigits n h
    rw [hd, List.cons_append] at read ⊢
    rw [value]
    · exact read
    -- no other kind of value begins with a digit
    all_goals
      intro x hx
      exact ne_of_isDigit digit (by decide) (List.cons.inj hx).1
  · simp only [isBlank, Bool.or_eq_false_iff, decide_eq_false_iff_not]
    refine ⟨⟨⟨?_, ?_⟩, ?_⟩, ?_⟩ <;> exact ne_of_isDigit digit (by decide)
  · rintro (h | h) <;> exact ne_of_isDigit digit (by decide) h

/-! ## Objects -/

theorem intercalate_cons_cons (t t' : List Char) (ts : List (List Char)) :
    [','].intercalate (t :: t' :: ts) = t ++ ',' :: [','].intercalate (t' :: ts) := rfl

/-- Items with commas between them are read up to what closes them. -/
theorem separated_intercalate {close : Char} (closes : Closes close) {as : List α}
    {ts : List (List Char)} (h : List.Forall₂ (Reads item) as ts) (rest : List Char) (fuel : Nat)
    (some_item : as ≠ []) (enough : as.length ≤ fuel) :
    separated close item fuel ([','].intercalate ts ++ close :: rest) = some (as, rest) := by
  induction h generalizing fuel with
  | nil => exact absurd rfl some_item
  | @cons a t as ts hat hs ih =>
    obtain ⟨fuel, rfl⟩ : ∃ k, fuel = k + 1 := ⟨fuel - 1, by simp at enough; omega⟩
    cases hs with
    | nil =>
      have skip : skipBlanks (close :: rest) = close :: rest := by
        simp [skipBlanks, closes.not_blank]
      simp [separated, List.intercalate, hat.skipBlanks_eq, hat.read _ (closes.ends rest), skip]
    | @cons a' t' as ts hat' hs =>
      have further := ih fuel (by simp) (by simpa using enough)
      have comma (r : List Char) : Ends (',' :: r) ∧ skipBlanks (',' :: r) = ',' :: r := by
        refine ⟨fun c hc => ?_, rfl⟩
        cases hc
        exact .inl rfl
      have no_close : ',' ≠ close := by
        rcases closes with rfl | rfl <;> decide
      rw [intercalate_cons_cons, List.append_assoc, List.cons_append, separated, hat.skipBlanks_eq,
        hat.read _ (comma _).1]
      simp [(comma _).2, no_close, further]

/-- There is fuel for as many items as a text has. -/
theorem length_le_intercalate {as : List α} {ts : List (List Char)}
    (h : List.Forall₂ (Reads item) as ts) : as.length ≤ ([','].intercalate ts).length := by
  induction h with
  | nil => exact Nat.le_refl 0
  | @cons a t as ts hat hs ih =>
    obtain ⟨c, r, rfl, -⟩ := hat.begins
    cases hs with
    | nil => simp [List.intercalate]
    | cons _ _ =>
      rw [intercalate_cons_cons, List.length_append]
      simp only [List.length_cons] at ih ⊢
      omega

theorem items_intercalate {close : Char} (closes : Closes close) {as : List α}
    {ts : List (List Char)} (h : List.Forall₂ (Reads item) as ts) (rest : List Char) :
    items close item ([','].intercalate ts ++ close :: rest) = some (as, rest) := by
  have enough := length_le_intercalate h
  have read := separated_intercalate closes h rest
    ([','].intercalate ts ++ close :: rest).length
  cases h with
  | nil =>
    simp [items, List.intercalate, skipBlanks, closes.not_blank]
  | @cons a t as ts hat hs =>
    obtain ⟨c, r, rfl, blank, no_close⟩ := hat.begins
    have begins : ∃ r', [','].intercalate ((c :: r) :: ts) ++ close :: rest = c :: r' := by
      cases ts <;> exact ⟨_, rfl⟩
    obtain ⟨r', hr⟩ := begins
    have other : c ≠ close := fun e => no_close (e ▸ closes)
    have all := read (by simp) (by rw [List.length_append]; omega)
    rw [hr] at all ⊢
    have skip : skipBlanks (c :: r') = c :: r' := by
      simp [skipBlanks, blank]
    simp only [items, skip, if_neg other, all]

/-- A name, a colon and a value are read as a member. -/
theorem reads_member {depth : Nat} {v : Value} {t : List Char} (name : String)
    (h : Reads (value depth) v t) :
    Reads (member (value depth)) (name, v) ((quote name).toList ++ ':' :: t) := by
  rw [quote_toList]
  refine ⟨fun rest ends => ?_, '"', _, rfl, rfl, by simp [Closes]⟩
  have colon : skipBlanks (':' :: (t ++ rest)) = ':' :: (t ++ rest) := rfl
  simp only [List.cons_append, List.append_assoc, List.nil_append, member, stringBody_escaped,
    Option.bind_eq_bind, Option.bind_some, colon, h.skipBlanks_eq, h.read rest ends]

/-- Members between braces are read as an object. -/
theorem reads_object {depth : Nat} {ms : List (String × Value)} {ts : List (List Char)}
    (h : List.Forall₂ (Reads (member (value depth))) ms ts) :
    Reads (value (depth + 1)) (.object ms) ('\x7b' :: ([','].intercalate ts ++ ['\x7d'])) := by
  refine ⟨fun rest _ => ?_, '\x7b', _, rfl, rfl, by simp [Closes]⟩
  rw [List.cons_append, List.append_assoc, List.singleton_append, value, items_intercalate (.inr rfl) h]
  rfl

/-- A text that is read as a value, to its end, is that value. -/
theorem read?_of_reads {v : Value} {t : List Char} (h : Reads (value (t.length + 1)) v t) :
    read? t = some v := by
  have read := h.read [] (by simp [Ends])
  rw [List.append_nil] at read
  have skip := h.skipBlanks_eq []
  rw [List.append_nil] at skip
  rw [read?, skip, read]
  rfl

end ScriptHost.Json
