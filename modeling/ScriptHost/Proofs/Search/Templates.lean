import ScriptHost.Payload
import ScriptHost.Proofs.Script.ByteStrings
import ScriptHost.Proofs.Search.Entries
import ScriptHost.Script.Library.Modules

/-!
# Files that templates name

The search path of a run is one text: a template for each directory, each with
its `;`, and the standard path behind them. For a module the sign `?` is filled in
everywhere, and only then the text is cut at `;`. When neither the directories nor
the module hold one of the two signs, what is cut out is one file in each directory
and then exactly the files of the standard path.
-/
namespace ScriptHost

theorem ofNat_mem_of_byte {s : String} {b : UInt8} (ascii : b.toNat ≤ 0x7F)
    (h : b ∈ Script.Bytes.bytes (Script.Bytes.ofText s)) : Char.ofNat b.toNat ∈ s.toList := by
  obtain ⟨x, y, hxy⟩ := List.append_of_mem h
  have text := Utf8.lossy_toUTF8 s
  rw [Script.Bytes.toList_eq] at text
  rw [← text]
  change Char.ofNat b.toNat ∈ (Utf8.lossy (Script.Bytes.bytes (Script.Bytes.ofText s))).toList
  rw [hxy, Utf8.lossy_ascii ascii]
  exact List.mem_append_right _ List.mem_cons_self

namespace Script.Modules

open Bytes

/-- The signs that stand for something in a search path. -/
def Plain (dir : String) : Prop := ';' ∉ dir.toList ∧ '?' ∉ dir.toList

/-- The name of a module as a path: dots separate directories. -/
def asPath (name : Bytes) : Bytes := ⟨name.data.map fun b => if b = 0x2E then 0x2F else b⟩

/-- The file of a module in a directory, which is taken without the separators at its end. -/
def fileIn (m : Bytes) (dir : String) : Bytes :=
  Bytes.cat [Bytes.ofText (SearchPath.trimmed dir), Bytes.ofText "/", m, Bytes.ofText ".lua"]

theorem replace_dot (name : Bytes) : name.replace dot slash = asPath name := by
  apply bytes_injective
  rw [bytes_replace (c := 0x2E) rfl, fill]
  have one (b : UInt8) : (if b = 0x2E then bytes slash else [b]) = [if b = 0x2E then 0x2F else b] := by
    split <;> rfl
  simp [one, asPath, bytes, ← List.map_eq_flatMap]

theorem mem_of_mem_trimmed {dir : String} {c : Char} (h : c ∈ (SearchPath.trimmed dir).toList) :
    c ∈ dir.toList := by
  rw [SearchPath.trimmed, String.toList_ofList, List.mem_reverse] at h
  exact List.mem_reverse.mp ((List.dropWhile_suffix _).subset h)

/-- Neither sign is among the bytes of a directory without its last separators. -/
theorem Plain.notMem {dir : String} (plain : Plain dir) :
    0x3B ∉ bytes (Bytes.ofText (SearchPath.trimmed dir)) ∧
      0x3F ∉ bytes (Bytes.ofText (SearchPath.trimmed dir)) :=
  ⟨fun h => plain.1 (mem_of_mem_trimmed (ofNat_mem_of_byte (by decide) h)),
    fun h => plain.2 (mem_of_mem_trimmed (ofNat_mem_of_byte (by decide) h))⟩

theorem bytes_fileIn (m : Bytes) (dir : String) :
    bytes (fileIn m dir) = bytes (Bytes.ofText (SearchPath.trimmed dir)) ++
      0x2F :: (bytes m ++ [0x2E, 0x6C, 0x75, 0x61]) := by
  have slash : bytes (Bytes.ofText "/") = [0x2F] := by decide
  have ending : bytes (Bytes.ofText ".lua") = [0x2E, 0x6C, 0x75, 0x61] := by decide
  have empty : bytes .empty = [] := rfl
  simp only [fileIn, Bytes.cat, List.foldl_cons, List.foldl_nil, bytes_append, slash, ending, empty]
  simp

/-- The template of a directory becomes its file and a `;`. -/
theorem fill_template {dir : String} (plain : Plain dir) (m : Bytes) :
    fill 0x3F (bytes m) (bytes (Bytes.ofText (SearchPath.template dir))) =
      bytes (fileIn m dir) ++ [0x3B] := by
  have rest : bytes (Bytes.ofText "/?.lua;") = [0x2F, 0x3F, 0x2E, 0x6C, 0x75, 0x61, 0x3B] := by decide
  have whole : bytes (Bytes.ofText (SearchPath.template dir)) =
      bytes (Bytes.ofText (SearchPath.trimmed dir)) ++ [0x2F, 0x3F, 0x2E, 0x6C, 0x75, 0x61, 0x3B] := by
    rw [← rest, SearchPath.template, bytes_ofText, bytes_ofText, bytes_ofText, String.toList_append,
      List.flatMap_append]
  rw [whole, fill_append, fill_of_notMem plain.notMem.2, bytes_fileIn]
  simp [fill]

theorem Plain.notMem_fileIn {dir : String} (plain : Plain dir) {m : Bytes} (unsplit : 0x3B ∉ bytes m) :
    0x3B ∉ bytes (fileIn m dir) := by
  rw [bytes_fileIn]
  simp [plain.notMem.1, unsplit]

theorem bytes_candidates (path m : Bytes) :
    (candidates path m).map bytes =
      if fill 0x3F (bytes m) (bytes path) = [] then []
      else (fill 0x3F (bytes m) (bytes path)).splitOn 0x3B := by
  have filled : bytes (path.replace (Bytes.ofText "?") m) = fill 0x3F (bytes m) (bytes path) :=
    bytes_replace (by decide) m
  have empty (b : Bytes) : b.isEmpty = true ↔ bytes b = [] := by
    rw [ByteArray.isEmpty, beq_iff_eq, ← length_bytes, List.length_eq_zero_iff]
  rw [candidates, ← filled]
  by_cases h : bytes (path.replace (Bytes.ofText "?") m) = []
  · rw [if_pos h, if_pos ((empty _).mpr h)]
    rfl
  · rw [if_neg h, if_neg fun he => h ((empty _).mp he), bytes_split]

/-- The candidates of a path that stands behind templates: where nothing is left of it, it still names
an empty file behind the last `;`. -/
def behind (dirs : List String) (candidates : List Bytes) : List Bytes :=
  if candidates.isEmpty && !dirs.isEmpty then [.empty] else candidates

/-- **Each directory has one candidate, and the standard path keeps its own.** -/
theorem candidates_templates {dirs : List String} (plain : ∀ dir ∈ dirs, Plain dir) {m : Bytes}
    (unsplit : 0x3B ∉ bytes m) (base : Bytes) :
    candidates (Bytes.ofText (SearchPath.templates dirs) ++ base) m =
      dirs.map (fileIn m) ++ behind dirs (candidates base m) := by
  have filled : fill 0x3F (bytes m) (bytes (Bytes.ofText (SearchPath.templates dirs) ++ base)) =
      dirs.flatMap (fun dir => bytes (fileIn m dir) ++ [0x3B]) ++ fill 0x3F (bytes m) (bytes base) := by
    have texts : bytes (Bytes.ofText (SearchPath.templates dirs)) =
        dirs.flatMap fun dir => bytes (Bytes.ofText (SearchPath.template dir)) := by
      simp only [bytes_ofText, SearchPath.templates, String.toList_join, List.flatMap_map,
        List.flatMap_assoc]
    rw [bytes_append, fill_append, texts, fill, List.flatMap_assoc]
    refine congrArg (· ++ _) (List.flatMap_congr fun dir hd => ?_)
    exact fill_template (plain dir hd) m
  -- in front of the base there is one file for each directory, each with its `;`
  have cut (dirs : List String) (plain : ∀ dir ∈ dirs, Plain dir) (rest : List UInt8) :
      (dirs.flatMap (fun dir => bytes (fileIn m dir) ++ [0x3B]) ++ rest).splitOn 0x3B =
        (dirs.map (fileIn m)).map bytes ++ rest.splitOn 0x3B := by
    induction dirs with
    | nil => rfl
    | cons dir dirs ih =>
      have ih := ih fun d hd => plain d (List.mem_cons_of_mem _ hd)
      have first := (plain dir List.mem_cons_self).notMem_fileIn unsplit
      rw [List.flatMap_cons, List.append_assoc, List.append_assoc, List.singleton_append,
        List.splitOn_append_cons_self_of_not_mem first, ih]
      rfl
  have own : (candidates base m).isEmpty = (fill 0x3F (bytes m) (bytes base)).isEmpty := by
    rw [← List.isEmpty_map (f := bytes), bytes_candidates]
    by_cases none : fill 0x3F (bytes m) (bytes base) = []
    · rw [if_pos none, none]
      rfl
    · rw [if_neg none, List.isEmpty_eq_false_iff.mpr none]
      exact List.isEmpty_eq_false_iff.mpr (List.splitOn_ne_nil _ _)
  apply List.map_injective_iff.mpr @bytes_injective
  rw [List.map_append, bytes_candidates, filled, cut dirs plain, behind, own]
  cases dirs with
  | nil => simp [bytes_candidates]
  | cons dir dirs =>
    rw [if_neg (by simp)]
    by_cases none : fill 0x3F (bytes m) (bytes base) = []
    · rw [none]
      rfl
    · rw [List.isEmpty_eq_false_iff.mpr none, Bool.false_and, if_neg Bool.false_ne_true,
        bytes_candidates, if_neg none]

end Script.Modules
end ScriptHost
