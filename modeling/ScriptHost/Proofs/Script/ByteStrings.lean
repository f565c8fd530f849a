import Mathlib.Data.List.Basic
import Mathlib.Data.List.TakeWhile
import ScriptHost.Proofs.Text.Chunks
import ScriptHost.Script.Bytes

/-!
# Byte strings as lists

Cutting out, replacing and splitting are defined on arrays of bytes. As lists,
replacing one byte is a `flatMap` and splitting at one is `List.splitOn`.
-/
namespace ScriptHost.Script.Bytes

instance : LawfulBEq ByteArray where
  eq_of_beq {a b} h := by
    change (a.data == b.data) = true at h
    exact ByteArray.ext (eq_of_beq h)
  rfl {a} := beq_self_eq_true a.data

/-- The bytes in their order. -/
abbrev bytes (b : Bytes) : List UInt8 := b.data.toList

theorem bytes_injective {a b : Bytes} (h : bytes a = bytes b) : a = b :=
  ByteArray.ext (Array.toList_inj.mp h)

theorem toList_eq (b : Bytes) : b.toList = bytes b := by
  rw [ByteArray.toList, Utf8.toList_loop]
  rfl

theorem bytes_append (a b : Bytes) : bytes (a ++ b) = bytes a ++ bytes b := by
  simp [bytes, ByteArray.data_append]

theorem bytes_extract (b : Bytes) (i j : Nat) :
    bytes (b.extract i j) = ((bytes b).drop i).take (j - i) := by
  simp [bytes, ByteArray.data_extract]

theorem length_bytes (b : Bytes) : (bytes b).length = b.size := rfl

theorem bytes_ofText (s : String) : bytes (ofText s) = s.toList.flatMap String.utf8EncodeChar := by
  rw [← toList_eq, ofText, Utf8.toList_toUTF8]

theorem ofText_injective {a b : String} (h : ofText a = ofText b) : a = b := by
  rw [← Utf8.lossy_toUTF8 a, ← Utf8.lossy_toUTF8 b]
  exact congrArg (fun c : Bytes => Utf8.lossy c.toList) h

/-! ## The bytes before a NUL -/

theorem bytes_untilNul (b : Bytes) : bytes b.untilNul = (bytes b).takeWhile (· ≠ 0) := rfl

theorem untilNul_of_notMem {b : Bytes} (h : 0 ∉ bytes b) : b.untilNul = b := by
  apply bytes_injective
  rw [bytes_untilNul, List.takeWhile_eq_self_iff]
  intro x hx
  simpa using fun (e : x = 0) => h (e ▸ hx)

theorem untilNul_append {a : Bytes} (h : 0 ∉ bytes a) (b : Bytes) : (a ++ b).untilNul = a ++ b.untilNul := by
  apply bytes_injective
  rw [bytes_append, bytes_untilNul, bytes_untilNul, bytes_append, List.takeWhile_append_of_pos]
  intro x hx
  simpa using fun (e : x = 0) => h (e ▸ hx)

theorem zero_notMem_untilNul (b : Bytes) : 0 ∉ bytes b.untilNul := by
  rw [bytes_untilNul]
  intro h
  simpa using List.mem_takeWhile_imp h

theorem untilNul_untilNul (b : Bytes) : b.untilNul.untilNul = b.untilNul :=
  untilNul_of_notMem (zero_notMem_untilNul b)

theorem mem_of_mem_untilNul {b : Bytes} {x : UInt8} (h : x ∈ bytes b.untilNul) : x ∈ bytes b := by
  rw [bytes_untilNul] at h
  exact (List.takeWhile_prefix _).subset h

/-! ## Replacing a byte -/

/-- Every `c` in a list is replaced. -/
def fill (c : UInt8) (new l : List UInt8) : List UInt8 := l.flatMap fun b => if b = c then new else [b]

variable {s pattern : Bytes} {c : UInt8}

theorem fill_of_notMem {new l : List UInt8} (h : c ∉ l) : fill c new l = l := by
  induction l with
  | nil => rfl
  | cons b l ih =>
    have hb : b ≠ c := fun e => h (e ▸ List.mem_cons_self)
    have ih := ih fun hl => h (List.mem_cons_of_mem b hl)
    rw [fill, List.flatMap_cons, if_neg hb, List.singleton_append]
    exact congrArg (b :: ·) ih

theorem fill_append (c : UInt8) (new l l' : List UInt8) :
    fill c new (l ++ l') = fill c new l ++ fill c new l' := List.flatMap_append ..

theorem fill_cons_self (c : UInt8) (new l : List UInt8) : fill c new (c :: l) = new ++ fill c new l := by
  rw [fill, List.flatMap_cons, if_pos rfl]
  rfl

theorem isAt_byte (one : bytes pattern = [c]) (i : Nat) :
    s.isAt pattern i = true ↔ (bytes s)[i]? = some c := by
  have size : pattern.size = 1 := by rw [← length_bytes, one, List.length_singleton]
  rw [isAt, size, Bool.and_eq_true, decide_eq_true_eq, beq_iff_eq]
  constructor
  · rintro ⟨_, here⟩
    have here := congrArg bytes here
    rw [bytes_extract, one, Nat.add_sub_cancel_left] at here
    have first := congrArg List.head? here
    rwa [List.head?_take, if_neg Nat.one_ne_zero, List.head?_drop] at first
  · intro here
    obtain ⟨inside, at_i⟩ := List.getElem?_eq_some_iff.mp here
    refine ⟨inside, bytes_injective ?_⟩
    rw [bytes_extract, one, Nat.add_sub_cancel_left, List.drop_eq_getElem_cons inside, at_i]
    rfl

/-- The first place of a byte. -/
theorem findFrom_byte (one : bytes pattern = [c]) {l l' : List UInt8} (before : c ∉ l) {fuel i : Nat}
    (here : (bytes s).drop i = l ++ c :: l') (enough : l.length < fuel) :
    s.findFrom pattern fuel i = some (i + l.length) := by
  induction l generalizing fuel i with
  | nil =>
    obtain ⟨fuel, rfl⟩ : ∃ k, fuel = k + 1 := ⟨fuel - 1, by omega⟩
    have at_i : (bytes s)[i]? = some c := by
      rw [← List.head?_drop, here]
      rfl
    rw [findFrom, if_pos ((isAt_byte one i).mpr at_i)]
    rfl
  | cons b l ih =>
    obtain ⟨fuel, rfl⟩ : ∃ k, fuel = k + 1 := ⟨fuel - 1, by omega⟩
    have other : ¬ s.isAt pattern i = true := by
      rw [isAt_byte one, ← List.head?_drop, here]
      intro h
      exact before (Option.some.inj h ▸ List.mem_cons_self)
    have rest : (bytes s).drop (i + 1) = l ++ c :: l' := by
      rw [← List.drop_drop, here]
      rfl
    rw [findFrom, if_neg other, ih (fun h => before (List.mem_cons_of_mem b h)) rest
      (by simpa using enough), List.length_cons, Nat.add_assoc, Nat.add_comm 1]

theorem findFrom_none (one : bytes pattern = [c]) {fuel i : Nat} (absent : c ∉ (bytes s).drop i) :
    s.findFrom pattern fuel i = none := by
  induction fuel generalizing i with
  | zero => rfl
  | succ fuel ih =>
    have other : ¬ s.isAt pattern i = true := by
      rw [isAt_byte one, ← List.head?_drop]
      intro h
      exact absent (List.mem_of_head? h)
    have rest : c ∉ (bytes s).drop (i + 1) := by
      rw [← List.drop_drop]
      intro h
      exact absent (List.mem_of_mem_drop h)
    rw [findFrom, if_neg other, ih rest]

theorem replaceFrom_byte (one : bytes pattern = [c]) (new out : Bytes) {fuel i : Nat}
    (enough : s.size - i < fuel) :
    bytes (s.replaceFrom pattern new fuel i out) =
      bytes out ++ fill c (bytes new) ((bytes s).drop i) := by
  induction fuel generalizing i out with
  | zero => cases enough
  | succ fuel ih =>
    have size : pattern.size = 1 := by rw [← length_bytes, one, List.length_singleton]
    rw [replaceFrom, find?]
    by_cases h : c ∈ (bytes s).drop i
    · obtain ⟨l, l', here, before⟩ := List.eq_append_cons_of_mem h
      have total : l.length + (l'.length + 1) = s.size - i := by
        have := congrArg List.length here
        simpa [length_bytes] using this.symm
      have rest : (bytes s).drop (i + l.length + 1) = l' := by
        rw [Nat.add_assoc, ← List.drop_drop, here, List.drop_length_add_append]
        rfl
      rw [findFrom_byte one before here (by omega)]
      dsimp only
      rw [size, ih _ (by omega), rest, bytes_append, bytes_append, bytes_extract, here,
        Nat.add_sub_cancel_left, List.take_left, fill_append, fill_of_notMem before, fill_cons_self]
      simp only [List.append_assoc]
    · rw [findFrom_none one h]
      dsimp only
      rw [bytes_append, bytes_extract, fill_of_notMem h, List.take_of_length_le (by simp)]

/-- Replacing a byte everywhere. -/
theorem bytes_replace (one : bytes pattern = [c]) (new : Bytes) :
    bytes (s.replace pattern new) = fill c (bytes new) (bytes s) := by
  have some_byte : pattern.isEmpty = false := by
    have size : pattern.size = 1 := by rw [← length_bytes, one, List.length_singleton]
    rw [ByteArray.isEmpty, size]
    rfl
  rw [replace, some_byte, if_neg Bool.false_ne_true, replaceFrom_byte one new .empty (by omega)]
  rfl

/-! ## Splitting at a byte -/

theorem foldl_eq {α : Type} (f : α → UInt8 → α) (init : α) (b : Bytes) :
    b.foldl f init = (bytes b).foldl f init := by
  have loop (n i : Nat) (h : i + n = b.size) (a : α) :
      ByteArray.foldlM.loop (m := Id) (fun a c => pure (f a c)) b b.size (Nat.le_refl _) n i a =
        ((bytes b).drop i).foldl f a := by
    induction n generalizing i a with
    | zero =>
      have outside : b.size = i := h.symm
      simp [ByteArray.foldlM.loop, outside, List.drop_of_length_le]
      rfl
    | succ n ih =>
      have inside : i < b.size := by omega
      rw [ByteArray.foldlM.loop, dif_pos inside, List.drop_eq_getElem_cons inside, List.foldl_cons]
      exact ih (i + 1) (by omega) _
  have whole := loop b.size 0 (Nat.zero_add _) init
  rw [ByteArray.foldl, ByteArray.foldlM, dif_pos (Nat.le_refl _)]
  exact whole

theorem bytes_push (b : Bytes) (c : UInt8) : bytes (b.push c) = bytes b ++ [c] := by
  simp [bytes, ByteArray.data_push]

/-- One byte more is read: the piece that is open, and those that are done, newest first. -/
def cutStep (c : UInt8) : Bytes × List Bytes → UInt8 → Bytes × List Bytes :=
  fun (cur, done) b => if b = c then (ByteArray.empty, cur :: done) else (cur.push b, done)

theorem cut_eq (c : UInt8) (l : List UInt8) (cur : Bytes) (done : List Bytes) (open_ : c ∉ bytes cur) :
    (((l.foldl (cutStep c) (cur, done)).1 :: (l.foldl (cutStep c) (cur, done)).2).reverse.map bytes) =
      done.reverse.map bytes ++ (bytes cur ++ l).splitOn c := by
  induction l generalizing cur done with
  | nil => simp [List.splitOn_eq_singleton open_]
  | cons b l ih =>
    rw [List.foldl_cons]
    by_cases hb : b = c
    · subst hb
      have step : cutStep b (cur, done) b = (ByteArray.empty, cur :: done) := if_pos rfl
      rw [step, ih ByteArray.empty (cur :: done) (by simp [bytes]),
        List.splitOn_append_cons_self_of_not_mem open_]
      simp [bytes]
    · have step : cutStep c (cur, done) b = (cur.push b, done) := if_neg hb
      have still : c ∉ bytes (cur.push b) := by
        rw [bytes_push]
        simp [open_, Ne.symm hb]
      rw [step, ih (cur.push b) done still, bytes_push, List.append_assoc]
      rfl

theorem bytes_split (s : Bytes) (c : UInt8) : (s.split c).map bytes = (bytes s).splitOn c := by
  have whole := cut_eq c (bytes s) .empty [] (by simp [bytes])
  rw [split, foldl_eq]
  exact whole

end ScriptHost.Script.Bytes
