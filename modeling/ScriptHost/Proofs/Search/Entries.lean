import Mathlib.Data.List.Basic
import ScriptHost.Proofs.Text.Chunks
import ScriptHost.SearchPath

/-!
# Directories of the environment

A path list is split at `:` as bytes, and each piece is decoded by itself. A
piece may end inside a character or begin with bytes that continue none, and
still its text is what stands between two `:` of the decoded list: an ASCII byte
ends whatever is open before it, and nothing else is decoded as `:`.

* `Utf8.splitOn_lossy`: splitting at an ASCII byte commutes with decoding.
* `entries_joined`: a list of entries joined with one or more `:` is read back.
* `environment_entries`: the directories of a variable are the entries of its text.
-/
namespace ScriptHost

/-- A list is split at a separator one element after the other. -/
theorem eq_splitOn {α : Type} [DecidableEq α] {sep : α} {f : List α → List (List α)}
    (nil : f [] = [[]]) (cons : ∀ a r, f (a :: r) = if a = sep then [] :: f r
      else match f r with
        | p :: ps => (a :: p) :: ps
        | [] => [[a]]) (x : List α) : f x = x.splitOn sep := by
  induction x with
  | nil => exact nil
  | cons a r ih =>
    rw [cons, ih, List.splitOn_cons_eq_if_modifyHead]
    by_cases h : a = sep
    · simp [h]
    · cases hr : r.splitOn sep with
      | nil => exact absurd hr (List.splitOn_ne_nil sep r)
      | cons p ps => simp [h]

namespace Utf8

/-! ## An ASCII byte ends what is open -/

variable {b : UInt8} {x : List UInt8}

/-- What is incomplete before an ASCII byte is refused by it as a whole. -/
theorem head_incomplete_ascii (ascii : b.toNat ≤ 0x7F) (h : head x = .incomplete) (y : List UInt8) :
    head (x ++ b :: y) = .invalid x.length := by
  refine head_incomplete_cons ?_ h y
  rw [Bool.eq_false_iff, Ne, isContinuation_iff]
  omega

theorem lossy_ascii_cons (ascii : b.toNat ≤ 0x7F) (y : List UInt8) :
    (lossy (b :: y)).toList = Char.ofNat b.toNat :: (lossy y).toList := by
  have h : (head (b :: y)).unit? = some (Char.ofNat b.toNat, 1) := by
    rw [head_one ascii rfl]
    rfl
  rw [lossy_of_some h]
  rfl

/-- The texts before and behind an ASCII byte do not depend on each other. -/
theorem lossy_ascii (ascii : b.toNat ≤ 0x7F) (x y : List UInt8) :
    (lossy (x ++ b :: y)).toList = (lossy x).toList ++ Char.ofNat b.toNat :: (lossy y).toList := by
  induction hk : x.length using Nat.strongRecOn generalizing x with
  | ind k ih =>
    subst hk
    cases hx : head x with
    | done =>
      rw [head_eq_done hx]
      exact lossy_ascii_cons ascii y
    | incomplete =>
      have hu : (head (x ++ b :: y)).unit? = some (replacement, x.length) := by
        rw [head_incomplete_ascii ascii hx]
        rfl
      rw [lossy_of_some hu, List.drop_left, lossy_ascii_cons ascii, lossy_of_incomplete hx]
      simp
    | char c n => exact further (by rw [hx]; rfl) ih
    | invalid n => exact further (by rw [hx]; rfl) ih
where
  further {x : List UInt8} {u : Char × Nat} (hu : (head x).unit? = some u)
      (ih : ∀ k < x.length, ∀ z : List UInt8, z.length = k →
        (lossy (z ++ b :: y)).toList = (lossy z).toList ++ Char.ofNat b.toNat :: (lossy y).toList) :
      (lossy (x ++ b :: y)).toList = (lossy x).toList ++ Char.ofNat b.toNat :: (lossy y).toList := by
    obtain ⟨pos, size⟩ := unit?_size hu
    rw [lossy_of_some hu, lossy_of_some (unit?_append hu (b :: y)), List.drop_append_of_le_length size,
      ih _ (by rw [List.length_drop]; omega) _ rfl]
    rfl

/-- An ASCII character of a text is a byte of what was decoded. -/
theorem Decodes.mem_of_ascii {cs : List Char} (ascii : b.toNat ≤ 0x7F) (h : Decodes x cs)
    (present : Char.ofNat b.toNat ∈ cs) : b ∈ x := by
  induction h with
  | nil => cases present
  | char c _ ih =>
    rcases List.mem_cons.mp present with rfl | later
    · apply List.mem_append_left
      rw [encode_one ascii (by rfl)]
      exact List.mem_singleton_self b
    · exact List.mem_append_right _ (ih later)
  | invalid _ _ ih =>
    rcases List.mem_cons.mp present with here | later
    · have same : (Char.ofNat b.toNat).val.toNat = 0xFFFD := by
        rw [here]
        rfl
      rw [val_ofNat (.inl (by omega))] at same
      omega
    · exact List.mem_append_right _ (ih later)

/-- **Splitting at an ASCII byte commutes with decoding.** -/
theorem splitOn_lossy (ascii : b.toNat ≤ 0x7F) (x : List UInt8) :
    (lossy x).toList.splitOn (Char.ofNat b.toNat) =
      (x.splitOn b).map fun piece => (lossy piece).toList := by
  induction hk : x.length using Nat.strongRecOn generalizing x with
  | ind k ih =>
    subst hk
    by_cases hb : b ∈ x
    · obtain ⟨p, y, rfl⟩ := List.append_of_mem hb
      rw [lossy_ascii ascii, List.splitOn_append_cons_self, List.splitOn_append_cons_self,
        ih p.length (by simp) p rfl, ih y.length (by simp; omega) y rfl, List.map_append]
    · have absent : Char.ofNat b.toNat ∉ (lossy x).toList :=
        fun h => hb ((decodes_lossy x).mem_of_ascii ascii h)
      rw [List.splitOn_eq_singleton absent, List.splitOn_eq_singleton hb]
      rfl

end Utf8

namespace SearchPath

/-! ## Entries of a text -/

/-- The separator of a path list. -/
theorem colon_eq : Char.ofNat (0x3A : UInt8).toNat = ':' := rfl

/-- What stands in a text between two `:`, where anything stands there. -/
def entries (text : String) : List String :=
  ((text.toList.splitOn ':').filter (!·.isEmpty)).map String.ofList

/-- A directory that a path list can hold: a path list has no way to quote a `:`. -/
structure IsEntry (dir : String) : Prop where
  nonempty : dir.toList ≠ []
  unsplit : ':' ∉ dir.toList

/-- `t` is the entries `dirs` with one or more `:` between them, and any number before and behind. -/
inductive Joins : List String → List Char → Prop where
  | none (k : Nat) : Joins [] (List.replicate k ':')
  | last (k : Nat) (dir : String) : Joins [dir] (List.replicate k ':' ++ dir.toList)
  | more (k : Nat) (dir : String) {dirs : List String} {t : List Char} :
    Joins dirs t → Joins (dir :: dirs) (List.replicate k ':' ++ (dir.toList ++ ':' :: t))

theorem splitBytes_eq (sep : UInt8) (x : List UInt8) : splitBytes sep x = x.splitOn sep :=
  eq_splitOn rfl (fun _ _ => by rw [splitBytes]; cases splitBytes sep _ <;> rfl) x

/-- No piece of a list holds the separator. -/
theorem unsplit_of_mem {α : Type} [BEq α] [LawfulBEq α] {sep : α} {l piece : List α}
    (h : piece ∈ l.splitOn sep) : sep ∉ piece := by
  induction l generalizing piece with
  | nil =>
    rw [List.splitOn_nil, List.mem_singleton] at h
    rw [h]
    exact List.not_mem_nil
  | cons x l ih =>
    rw [List.splitOn_cons_eq_if_modifyHead] at h
    obtain ⟨first, others, split⟩ := List.exists_cons_of_ne_nil (List.splitOn_ne_nil sep l)
    rw [split] at h ih
    by_cases hx : x = sep
    · rw [if_pos (beq_iff_eq.mpr hx), List.mem_cons] at h
      rcases h with rfl | later
      · exact List.not_mem_nil
      · exact ih later
    · rw [if_neg (by simpa using hx), List.modifyHead_cons, List.mem_cons] at h
      rcases h with rfl | later
      · intro here
        rcases List.mem_cons.mp here with rfl | later
        · exact hx rfl
        · exact ih List.mem_cons_self later
      · exact ih (List.mem_cons_of_mem first later)

theorem isEntry_of_mem {text dir : String} (h : dir ∈ entries text) : IsEntry dir := by
  obtain ⟨p, hp, rfl⟩ := List.mem_map.mp h
  obtain ⟨piece, nonempty⟩ := List.mem_filter.mp hp
  refine ⟨by simpa using nonempty, ?_⟩
  rw [String.toList_ofList]
  exact unsplit_of_mem piece

/-! ## Entries that were joined -/

theorem entries_colon (t : List Char) :
    entries (String.ofList (':' :: t)) = entries (String.ofList t) := by
  rw [entries, entries, String.toList_ofList, String.toList_ofList, ← List.nil_append (':' :: t),
    List.splitOn_append_cons_self]
  rfl

/-- Separators before the first entry say nothing. -/
theorem entries_colons (k : Nat) (t : List Char) :
    entries (String.ofList (List.replicate k ':' ++ t)) = entries (String.ofList t) := by
  induction k with
  | zero => rfl
  | succ k ih => rw [List.replicate_succ, List.cons_append, entries_colon, ih]

/-- **Entries that were joined are read back.** -/
theorem entries_joined {dirs : List String} {t : List Char} (h : Joins dirs t)
    (all : ∀ dir ∈ dirs, IsEntry dir) : entries (String.ofList t) = dirs := by
  induction h with
  | none k =>
    rw [← List.append_nil (List.replicate k ':'), entries_colons]
    rfl
  | last k dir =>
    have entry := all dir (List.mem_singleton_self dir)
    rw [entries_colons, entries, String.toList_ofList, List.splitOn_eq_singleton entry.unsplit]
    simp [entry.nonempty]
  | @more k dir dirs t _ ih =>
    have entry := all dir List.mem_cons_self
    have rest := ih fun d hd => all d (List.mem_cons_of_mem dir hd)
    rw [entries, String.toList_ofList] at rest
    rw [entries_colons, entries, String.toList_ofList,
      List.splitOn_append_cons_self_of_not_mem entry.unsplit]
    simp [entry.nonempty, rest]

/-! ## The directories of a variable -/

/-- **The directories of a variable are the entries of its text**: it does not matter whether the
bytes are split first or decoded first. None is empty or holds a `:`, entries joined with `:` come
back as they were, and they stand behind the included directories and the script's own. -/
theorem environment_entries (value : List UInt8) :
    ofEnvironment (some value) = entries (Utf8.lossy value) ∧
      (∀ dir ∈ ofEnvironment (some value), IsEntry dir) ∧
      (∀ dirs t, Joins dirs t → (∀ dir ∈ dirs, IsEntry dir) →
        value = (String.ofList t).toUTF8.toList → ofEnvironment (some value) = dirs) ∧
      ∀ script included, directories script included (some value) =
        included ++ scriptDirectory script :: entries (Utf8.lossy value) := by
  have same : ofEnvironment (some value) = entries (Utf8.lossy value) := by
    have split := Utf8.splitOn_lossy (b := 0x3A) (by decide) value
    have nonempty (piece : List UInt8) : (Utf8.lossy piece).toList.isEmpty = piece.isEmpty := by
      rw [Bool.eq_iff_iff, List.isEmpty_iff, List.isEmpty_iff, ← Utf8.lossy_eq_empty]
      exact String.toList_eq_nil_iff
    rw [colon_eq] at split
    rw [entries, split, List.filter_map, List.map_map]
    simp only [ofEnvironment, Option.map_some, Option.getD_some, ofList, splitBytes_eq,
      Function.comp_def, nonempty, String.ofList_toList]
  refine ⟨same, fun dir h => isEntry_of_mem (same ▸ h), fun dirs t joins all h => ?_, fun script included => ?_⟩
  · rw [same, h, Utf8.lossy_toUTF8]
    exact entries_joined joins all
  · rw [directories, same, List.append_assoc]
    rfl

/-- Two entries with separators before, between and behind them. -/
theorem environment_entries_loose :
    Joins ["é", "b"] "::é:::b:".toList ∧ (∀ dir ∈ ["é", "b"], IsEntry dir) ∧
      ofEnvironment (some "::é:::b:".toUTF8.toList) = ["é", "b"] := by
  have joins : Joins ["é", "b"] "::é:::b:".toList := .more 2 "é" (.more 2 "b" (.none 0))
  have all : ∀ dir ∈ ["é", "b"], IsEntry dir := by
    intro dir h
    rcases List.mem_pair.mp h with rfl | rfl <;> exact ⟨by decide, by decide⟩
  refine ⟨joins, all, (environment_entries _).2.2.1 _ _ joins all ?_⟩
  rw [String.ofList_toList]

/-- A character cut in two by a separator. -/
example : ofEnvironment (some [0x61, 0xE2, 0x82, 0x3A, 0x82, 0x3A]) = ["a\ufffd", "\ufffd"] := by
  decide +kernel

end SearchPath
end ScriptHost
