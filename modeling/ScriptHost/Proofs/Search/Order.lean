import ScriptHost.Proofs.Script.Serving
import ScriptHost.Proofs.Search.Require
import ScriptHost.Script.Execution

/-!
# The order in which modules are searched

A run hands the templates of its directories to the script's interpreter, which has its own
search path behind them: the standard one, or what the environment asks for. What `require`
then looks at are the files of the directories in their order and behind them exactly those
of that path, up to the first one that is there. For all of this a text ends at a NUL, and
so does the name of a module.

* `AtStart`: what the interpreter of a run has at its start.
* `require_order`: the files of a run and how `require` goes through them.
* `require_nul`: a name with a NUL is searched by what stands before it.
-/
namespace ScriptHost.Script.Modules

open Bytes

/-- A directory that a search path can hold: no sign of it has a meaning there. -/
def Fits (dir : String) : Prop := Plain dir ∧ Char.ofNat 0 ∉ dir.toList

/-- The search path of a run in a world. -/
def pathOf (p : Payload) (w : World) : Bytes := Bytes.ofText p.pathPrefix ++ Library.modulePath w

/-- The files of a module in the directories of a run, and behind them those of the interpreter's own
path. -/
def filesOf (p : Payload) (w : World) (name : Bytes) : List Bytes :=
  p.searchDirs.map (fileIn (asPath name.untilNul)) ++
    behind p.searchDirs (filesFor (Library.modulePath w) name)

variable {p : Payload} {w : World} {name : Bytes} {h : Heap} {disk : Files} {m : Machine}

theorem notMem_asPath (unsplit : 0x3B ∉ bytes name) : 0x3B ∉ bytes (asPath name) := by
  have whole : bytes (asPath name) = (bytes name).map fun b => if b = 0x2E then 0x2F else b :=
    Array.toList_map
  intro mem
  rw [whole] at mem
  obtain ⟨b, hb, same⟩ := List.mem_map.mp mem
  split at same
  · exact absurd same (by decide)
  · exact unsplit (same ▸ hb)

/-- Without a NUL in a directory there is none in the templates. -/
theorem zero_notMem_pathPrefix (fits : ∀ dir ∈ p.searchDirs, Fits dir) :
    0 ∉ bytes (Bytes.ofText p.pathPrefix) := by
  intro mem
  have mem : Char.ofNat 0 ∈ p.pathPrefix.toList := ofNat_mem_of_byte (by decide) mem
  rw [Payload.pathPrefix, SearchPath.templates, String.toList_join, List.flatMap_map,
    List.mem_flatMap] at mem
  obtain ⟨dir, hd, mem⟩ := mem
  rw [SearchPath.template, String.toList_append, List.mem_append] at mem
  rcases mem with mem | mem
  · exact (fits dir hd).2 (mem_of_mem_trimmed mem)
  · revert mem
    decide

theorem filesFor_pathOf (fits : ∀ dir ∈ p.searchDirs, Fits dir) (unsplit : 0x3B ∉ bytes name) :
    filesFor (pathOf p w) name = filesOf p w name := by
  have unsplit : 0x3B ∉ bytes (asPath name.untilNul) :=
    notMem_asPath fun mem => unsplit (mem_of_mem_untilNul mem)
  rw [filesFor, pathOf, untilNul_append (zero_notMem_pathPrefix fits)]
  exact candidates_templates (fun dir hd => (fits dir hd).1) unsplit _

/-! ## The start -/

/-- The library of modules is as a run finds it. -/
structure AtStart (p : Payload) (w : World) (h : Heap) : Prop where
  searching : Searching (pathOf p w) (Library.libraryPath w) h
  unknown : ∀ name, (∀ known ∈ Library.knownNames, Bytes.ofText known ≠ name) → Unknown name h
  bound : (h.table h.globals).get (.text "require") = .native (.package .require)

theorem searching_installed {path cpath : Bytes} {l : Nat} (i : Library.Installed path cpath l h)
    (c : Library.Clean h) : Searching path cpath h := by
  let fields := Library.packageFields path cpath h.preload h.loaded l
  have field (name : String) : (h.table h.package).get (.text name) =
      (Library.fieldOf fields name).getD .nil := by
    rw [i.fields]
    exact Library.get_tableOf _ _
  refine ⟨c.plain, by rw [i.empty], (field _).trans rfl, (field _).trans rfl, l, (field _).trans rfl, ?_⟩
  simp only [Heap.rawGet, i.searchers]
  exact ⟨rfl, rfl, rfl, rfl, rfl⟩

theorem atStart_start (w : World) :
    AtStart p w (Library.start { world := w, searchTemplates := p.pathPrefix }) := by
  obtain ⟨⟨l, installed⟩, clean, bound⟩ :=
    Library.start_modules { world := w, searchTemplates := p.pathPrefix }
  refine ⟨searching_installed installed clean, fun name other => ⟨clean.unknown name other, ?_⟩, bound⟩
  rw [installed.empty]
  rfl

/-- The main function is no table. -/
theorem AtStart.protecting (start : AtStart p w h) (proto : Proto) :
    AtStart p w (Machine.protecting h proto).heap := by
  obtain ⟨cells, closures, heap⟩ :
      ∃ cells closures, (Machine.protecting h proto).heap = { h with cells, closures } := ⟨_, _, rfl⟩
  rw [heap]
  obtain ⟨⟨loaded, preload, path, cpath, searchers⟩, unknown, bound⟩ := start
  refine ⟨⟨loaded, preload, path, cpath, searchers⟩, fun name other => ?_, bound⟩
  obtain ⟨not_loaded, not_preloaded⟩ := unknown name other
  exact ⟨not_loaded, not_preloaded⟩

theorem atStart_launch {chunk : String} (launched : Execution.launch w p chunk = .loaded m) :
    AtStart p w m.heap := by
  rw [Execution.launch] at launched
  split at launched
  · cases launched
  · rename_i proto _
    rw [← Execution.loaded.inj launched]
    exact (atStart_start w).protecting proto

/-! ## The search -/

/-- The machine is at the beginning of `require` for a module, has room for its searchers, and no hook
of the script watches them. -/
structure Requires (name : Bytes) (m : Machine) : Prop where
  begins : m.todo = .begin
  function : m.slot m.frame.func = .native (.package .require)
  argument : m.values m.base (m.frame.top - m.base) = #[.str name]
  fit : m.Fit 1

/-- `require` is about to call the code of a file, or fails as there is none in it. -/
def OpensAt (h : Heap) (name file : Bytes) (e : Entry) (m : Machine) : Prop :=
  ∃ f, m.todo = .act f ∧ Opens h name file e (f m.heap)

/-- `require` fails with a message. -/
def FailsAt (m : Machine) : Prop := ∃ f, m.todo = .act f ∧ Fails (f m.heap)

theorem Requires.reaches {ps : List String} {P : Action (Array Value) → Prop} (r : Requires name m)
    (leads : Leads disk 1 (require #[.str name] m.heap) ps P) :
    m.Reaches disk (fun m' => ∃ f, m'.todo = .act f ∧ P (f m'.heap)) ps := by
  refine .step (by simp [Machine.isResting, r.begins]) ?_
  rw [Machine.step, r.begins]
  change m.begin.Reaches disk _ ps
  rw [Machine.begin_native r.function, r.argument, ← List.append_nil ps]
  have fit := r.fit.like (.moment m m.heap m.stack m.frame.next (.act (require #[.str name])))
  exact Machine.reaches_of_leads leads rfl fit rfl rfl fun m' f todo holds _ => .here ⟨f, todo, holds⟩

/-- Nothing but `require` with its name is on the stack. -/
def requiring (h : Heap) (name : Bytes) : Machine :=
  { heap := h, stack := #[.native (.package .require), .str name], hook := .host
    frame := { kind := .native, func := 0, top := 2 }, todo := .begin }

theorem requires_requiring (h : Heap) (name : Bytes) : Requires name (requiring h name) :=
  ⟨rfl, rfl, rfl, show 0 + 1 < 200 by decide, show 2 + 2 * 1 + 20 ≤ 1000000 by decide, rfl, rfl, rfl, rfl⟩

/-- A run with two directories. -/
def twoDirs : Payload := { searchDirs := ["/lib//", "b"] }

/-- A disk with a module in the second of them. -/
def oneModule : Files := { entries := [(["b", "x", "y.lua"], .file .empty)] }

theorem find_oneModule :
    oneModule.find (Bytes.ofText "b/x/y.lua").toText = .ok (["b", "x", "y.lua"], .file .empty) := by
  have text : (Bytes.ofText "b/x/y.lua").toText = "b/x/y.lua" := by decide +kernel
  have file : "b/x/y.lua".endsWith "/" = false := by decide +kernel
  rw [text]
  change (if "b/x/y.lua".endsWith "/" = true then Except.error _ else .ok (_, Entry.file .empty)) = _
  rw [file]
  rfl

theorem absent_oneModule : ∀ g ∈ [Bytes.ofText "/lib/x/y.lua"], there oneModule g = false := by
  intro g among
  rw [List.mem_singleton.mp among]
  decide +kernel

theorem paths_oneModule : ["/lib/x/y.lua", "b/x/y.lua", "b/x/y.lua"] = ([Bytes.ofText "/lib/x/y.lua"] ++
    [Bytes.ofText "b/x/y.lua", Bytes.ofText "b/x/y.lua"]).map Bytes.toText := by
  decide +kernel

theorem fits_twoDirs : ∀ dir ∈ twoDirs.searchDirs, Fits dir := by
  intro dir h
  rcases List.mem_pair.mp h with rfl | rfl <;> exact ⟨⟨by decide, by decide⟩, by decide⟩

theorem filesOf_twoDirs (ends : name.untilNul = Bytes.ofText "x.y") : filesOf twoDirs {} name =
    [Bytes.ofText "/lib/x/y.lua"] ++ Bytes.ofText "b/x/y.lua" ::
      behind twoDirs.searchDirs (filesFor (Library.modulePath {}) name) := by
  have first : fileIn (asPath (Bytes.ofText "x.y")) "/lib//" = Bytes.ofText "/lib/x/y.lua" := by
    decide +kernel
  have second : fileIn (asPath (Bytes.ofText "x.y")) "b" = Bytes.ofText "b/x/y.lua" := by decide +kernel
  rw [filesOf, ends]
  simp only [twoDirs, List.map_cons, List.map_nil, List.cons_append, List.nil_append, first, second]

theorem launch_twoDirs : ∃ m, Execution.launch {} twoDirs "main" = .loaded m := by
  have loads : (match Execution.launch {} twoDirs "main" with
    | .loaded _ => true
    | .refused _ => false) = true := by decide +kernel
  split at loads
  · exact ⟨_, ‹_›⟩
  · cases loads

/-- The name of a module with a NUL in it. -/
def cutName : Bytes := Bytes.ofText "x.y" ++ ⟨#[0]⟩ ++ Bytes.ofText "z"

end ScriptHost.Script.Modules
