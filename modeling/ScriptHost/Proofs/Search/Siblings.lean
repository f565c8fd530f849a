import Mathlib.Data.List.DropRight
import ScriptHost.Proofs.Search.Parents
import ScriptHost.Proofs.Search.Templates
import ScriptHost.Script.Library.Standard

/-!
# Modules beside a script

The directory of a script is the parent of its path, or `.` where that is empty; as
a template it loses the separators at its end, even where it is the root, and gets
one before the name of the module. What comes out leads where the script does, but
for the last step.

* `steps_moduleFile`: a file in a directory has the steps of the directory, and then
  its own.
* `scriptDirectory_spec`: the directory of a script has all of its steps but the last.
* `siblings_found`: so a module is looked for beside the script.
-/
namespace ScriptHost

namespace Path

variable {path q : List Char}

/-- Separators at the end say nothing. -/
theorem parts_rdropWhile (path : List Char) : parts (path.rdropWhile (· = '/')) = parts path := by
  induction path using List.reverseRecOn with
  | nil => rfl
  | append_singleton path c ih =>
    by_cases h : c = '/'
    · rw [List.rdropWhile_concat_pos _ _ _ (by simpa using h), ih, h, parts_append, parts_nil,
        List.append_nil]
    · rw [List.rdropWhile_concat_neg _ _ _ (by simpa using h)]

/-- Without the separators at its end and with one behind it, a path has the root it had. -/
theorem root_rdropWhile (some_ : path ≠ []) (q : List Char) :
    root (path.rdropWhile (· = '/') ++ '/' :: q) = root path := by
  have pre : path.rdropWhile (· = '/') <+: path := List.rdropWhile_prefix _ _
  cases ht : path.rdropWhile (· = '/') with
  | nil =>
    -- there was nothing but separators
    obtain ⟨c, r, rfl⟩ := List.exists_cons_of_ne_nil some_
    obtain rfl : c = '/' := by simpa using List.rdropWhile_eq_nil_iff.mp ht c List.mem_cons_self
    rfl
  | cons c t =>
    obtain ⟨r, hr⟩ := ht ▸ pre
    rw [← hr]
    rfl

theorem absolute_iff (h : root path = root q) : path.head? = some '/' ↔ q.head? = some '/' := by
  unfold root at h
  split at h <;> split at h <;> simp_all

/-- A path with a name at its end. -/
theorem parts_of_fileName? {n : List Char} (h : fileName? path = some n) :
    ∃ front, parts path = front ++ [.name n] := by
  have last : (components path).getLast? = some (.name n) := by
    unfold fileName? at h
    split at h
    · cases h
      assumption
    · cases h
  obtain ⟨front, split⟩ := List.getLast?_eq_some_iff.mp last
  have steps : steps path = front.filter (· ≠ .here) ++ [.name n] := by
    rw [Path.steps, split, List.filter_append]
    rfl
  rw [steps_eq] at steps
  rcases List.eq_nil_or_concat' (parts path) with none | ⟨front, c, some_⟩
  · -- a root is no name
    have := congrArg List.getLast? steps
    rw [none, List.append_nil, List.getLast?_concat, root] at this
    split at this <;> cases this
  · rw [some_, ← List.append_assoc] at steps
    obtain rfl : c = .name n := by simpa using (List.append_inj' steps rfl).2
    exact ⟨front, some_⟩

end Path

namespace SearchPath

/-- The file of a module in a directory. -/
def moduleFile (dir stem : String) : String := trimmed dir ++ "/" ++ stem ++ ".lua"

theorem moduleFile_toList (dir stem : String) : (moduleFile dir stem).toList =
    dir.toList.rdropWhile (· = '/') ++ '/' :: (stem ++ ".lua").toList := by
  simp [moduleFile, trimmed, List.rdropWhile]

theorem root_moduleFile {dir : String} (some_ : dir.toList ≠ []) (stem : String) :
    Path.root (moduleFile dir stem).toList = Path.root dir.toList := by
  rw [moduleFile_toList, Path.root_rdropWhile some_]

/-- **A file in a directory** has the steps of the directory, and then its own. -/
theorem steps_moduleFile {dir : String} (some_ : dir.toList ≠ []) (stem : String) :
    Path.steps (moduleFile dir stem).toList =
      Path.steps dir.toList ++ Path.parts (stem ++ ".lua").toList := by
  rw [Path.steps_eq, Path.steps_eq, root_moduleFile some_, moduleFile_toList, Path.parts_append,
    Path.parts_rdropWhile, List.append_assoc]

/-- **The directory of a script** has all of its steps but the last. -/
theorem scriptDirectory_spec {script : String} {front : List Path.Component} {c : Path.Component}
    (h : Path.parts script.toList = front ++ [c]) :
    (scriptDirectory script).toList ≠ [] ∧
      Path.root (scriptDirectory script).toList = Path.root script.toList ∧
      Path.parts (scriptDirectory script).toList = front ∧
      ∀ x ∈ (scriptDirectory script).toList, x ∈ script.toList ∨ x = '.' := by
  have some_ : Path.parts script.toList ≠ [] := by simp [h]
  obtain ⟨q, parent, pre, root, parts⟩ := Path.parent?_spec some_
  rw [h, List.dropLast_concat] at parts
  unfold scriptDirectory
  rw [parent]
  cases q with
  | nil =>
    refine ⟨by decide, root, parts, fun x hx => .inr ?_⟩
    simpa using hx
  | cons d q =>
    simp only [String.toList_ofList]
    exact ⟨nofun, root, parts, fun x hx => .inl (pre.subset hx)⟩

open Script (Bytes)
open Script.Bytes Script.Modules

theorem fileIn_ofText (dir stem : String) :
    fileIn (Bytes.ofText stem) dir = Bytes.ofText (moduleFile dir stem) := by
  have slash : bytes (Bytes.ofText "/") = [0x2F] := by decide
  have ending : bytes (Bytes.ofText ".lua") = [0x2E, 0x6C, 0x75, 0x61] := by decide
  have whole (s t : String) : bytes (Bytes.ofText (s ++ t)) =
      bytes (Bytes.ofText s) ++ bytes (Bytes.ofText t) := by
    simp only [bytes_ofText, String.toList_append, List.flatMap_append]
  apply bytes_injective
  rw [bytes_fileIn, moduleFile, whole, whole, whole, slash, ending]
  simp

theorem plain_scriptDirectory {script : String} (plain : Plain script) {front : List Path.Component}
    {c : Path.Component} (h : Path.parts script.toList = front ++ [c]) :
    Plain (scriptDirectory script) := by
  have within := (scriptDirectory_spec h).2.2.2
  constructor <;> intro hx <;> rcases within _ hx with hx | hx
  · exact plain.1 hx
  · cases hx
  · exact plain.2 hx
  · cases hx

/-- The file of a module that lies in no directory of its own is one name. -/
theorem parts_stem {stem : String} (single : '/' ∉ stem.toList) :
    Path.parts (stem ++ ".lua").toList = [.name (stem ++ ".lua").toList] := by
  have free : '/' ∉ (stem ++ ".lua").toList := by
    rw [String.toList_append, List.mem_append]
    rintro (h | h)
    · exact single h
    · revert h
      decide
  have long : 4 ≤ (stem ++ ".lua").toList.length := by
    rw [String.toList_append, List.length_append]
    exact Nat.le_add_left 4 _
  have short (n : List Char) (hn : n.length < 4) : (stem ++ ".lua").toList ≠ n := fun h => by
    rw [h] at long
    omega
  rw [Path.parts_of_notMem free, Path.Component.ofName?, if_neg, if_neg]
  · rfl
  · exact short _ (by decide)
  · rintro (h | h)
    · exact short _ (by decide) h
    · exact short _ (by decide) h

/-- **A module is looked for beside the script.** If the path of a script ends in a name, and holds
no sign that means something in a search path, then the template of its directory becomes, with any
module for the sign `?`, one file and a `;`, and that file stands in the search path before those of
the standard one. It has the steps of the script but for the last, for which it has those of the
module's own file, and is absolute exactly if the script is. -/
theorem siblings_found {script : String} {n : List Char} (plain : Plain script)
    (named : Path.fileName? script.toList = some n) (stem : String) :
    ∃ file front,
      (Bytes.ofText (template (scriptDirectory script))).replace (Bytes.ofText "?") (Bytes.ofText stem) =
        Bytes.ofText (file ++ ";") ∧
      (';' ∉ stem.toList →
        candidates (Bytes.ofText (templates [scriptDirectory script]) ++
            Bytes.ofText Script.Library.defaultPath) (Bytes.ofText stem) =
          Bytes.ofText file ::
            candidates (Bytes.ofText Script.Library.defaultPath) (Bytes.ofText stem)) ∧
      Path.steps script.toList = front ++ [.name n] ∧
      Path.steps file.toList = front ++ Path.parts (stem ++ ".lua").toList ∧
      ('/' ∉ stem.toList →
        Path.steps file.toList = front ++ [.name (stem ++ ".lua").toList]) ∧
      (file.toList.head? = some '/' ↔ script.toList.head? = some '/') := by
  obtain ⟨front, parts⟩ := Path.parts_of_fileName? named
  obtain ⟨some_, root, rest, -⟩ := scriptDirectory_spec parts
  have plain := plain_scriptDirectory plain parts
  have steps : Path.steps (moduleFile (scriptDirectory script) stem).toList =
      Path.root script.toList ++ front ++ Path.parts (stem ++ ".lua").toList := by
    rw [steps_moduleFile some_, Path.steps_eq, root, rest]
  refine ⟨moduleFile (scriptDirectory script) stem, Path.root script.toList ++ front, ?_, fun unsplit => ?_,
    ?_, steps, fun single => ?_, ?_⟩
  · apply bytes_injective
    rw [bytes_replace (c := 0x3F) (by decide), fill_template plain, fileIn_ofText]
    simp only [bytes_ofText, String.toList_append, List.flatMap_append]
    rfl
  · have only : ∀ dir ∈ [scriptDirectory script], Plain dir := fun dir h =>
      List.mem_singleton.mp h ▸ plain
    have unsplit : 0x3B ∉ bytes (Bytes.ofText stem) := fun h =>
      unsplit (ofNat_mem_of_byte (by decide) h)
    obtain ⟨rest, absolute⟩ :
      ∃ rest, bytes (Bytes.ofText Script.Library.defaultPath) = 0x2F :: rest := ⟨_, rfl⟩
    have own : (candidates (Bytes.ofText Script.Library.defaultPath) (Bytes.ofText stem)).isEmpty = false := by
      rw [← List.isEmpty_map (f := bytes), bytes_candidates, if_neg (by simp [absolute, fill])]
      exact List.isEmpty_eq_false_iff.mpr (List.splitOn_ne_nil _ _)
    rw [candidates_templates only unsplit, behind, own, Bool.false_and, if_neg Bool.false_ne_true,
      List.map_singleton, fileIn_ofText, List.singleton_append]
  · rw [Path.steps_eq, parts, List.append_assoc]
  · rw [steps, parts_stem single]
  · exact Path.absolute_iff ((root_moduleFile some_ stem).trans root)

/-- A script right under the root. The template loses the root, and gets it back. -/
theorem siblings_found_root :
    Plain "/./main.lua/" ∧ Path.fileName? "/./main.lua/".toList = some "main.lua".toList ∧
      ∃ file front, (Bytes.ofText (template (scriptDirectory "/./main.lua/"))).replace
          (Bytes.ofText "?") (Bytes.ofText "m") = Bytes.ofText (file ++ ";") ∧
        Path.steps "/./main.lua/".toList = front ++ [.name "main.lua".toList] ∧
        Path.steps file.toList = front ++ [.name "m.lua".toList] ∧ file.toList.head? = some '/' := by
  have plain : Plain "/./main.lua/" := ⟨by decide, by decide⟩
  have named : Path.fileName? "/./main.lua/".toList = some "main.lua".toList := by decide +kernel
  obtain ⟨file, front, filled, -, own, -, beside, absolute⟩ := siblings_found plain named "m"
  exact ⟨plain, named, file, front, filled, own, beside (by decide), absolute.mpr (by decide)⟩

/-- A bare name, and a path with names that say nothing. -/
example : scriptDirectory "main.lua" = "." ∧ scriptDirectory "a/..//./b/./main.lua//." = "a/..//./b" := by
  decide +kernel

end SearchPath
end ScriptHost
