import ScriptHost.Proofs.Script.Tables
import ScriptHost.Script.Library.Standard

/-!
# What a script finds at its start

The heap of a script is built library by library. Adding one leaves all tables as they
are, but the global table and that of loaded modules, and of these only the names of
the library change. So the fields of the module library are what they were made.

* `get_tableOf`: the fields of a library.
* `Extends`: what adding libraries keeps; `Installed`, `Clean`: what it keeps of the
  library of modules and of the modules that are loaded.
* `start_modules`: that library in the heap of a script's start.
-/
namespace ScriptHost.Script.Library

/-! ## Tables from lists -/

/-- The value of a name in a list of fields: the last one counts. -/
def fieldOf (fields : List (String × Value)) (name : String) : Option Value :=
  (fields.reverse.find? (·.1 = name)).map (·.2)

/-- Fields are put into a table. -/
theorem foldl_setText {t : Table} (n : t.Named) (fields : List (String × Value)) :
    (fields.foldl (fun t f => t.setText f.1 f.2) t).Named ∧
      ∀ name, (fields.foldl (fun t f => t.setText f.1 f.2) t).get (.text name) =
        (fieldOf fields name).getD (t.get (.text name)) := by
  induction fields generalizing t with
  | nil => exact ⟨n, fun _ => rfl⟩
  | cons f fields ih =>
    obtain ⟨named, get⟩ := ih (n.set (Bytes.ofText f.1) f.2).1
    refine ⟨named, fun name => (get name).trans ?_⟩
    rw [fieldOf, fieldOf, List.reverse_cons, List.find?_append]
    cases fields.reverse.find? (·.1 = name) with
    | some g => rfl
    | none =>
      by_cases h : f.1 = name
      · subst h
        simpa [Value.text] using n.get_set_self _ _
      · have apart : Bytes.ofText name ≠ Bytes.ofText f.1 := fun same => h (Bytes.ofText_injective same).symm
        simpa [h, Value.text] using n.get_set_of_ne apart _

theorem tableOf_named (fields : List (String × Value)) : (tableOf fields).Named :=
  (foldl_setText .empty fields).1

theorem get_tableOf (fields : List (String × Value)) (name : String) :
    (tableOf fields).get (.text name) = (fieldOf fields name).getD .nil := by
  have empty : ({} : Table).get (.text name) = .nil := rfl
  rw [← empty]
  exact (foldl_setText .empty fields).2 name

/-! ## Adding libraries -/

/-- A table of names in which no names but the given ones have changed. -/
def Keeps (t t' : Table) (names : List String) : Prop :=
  t.Named → t'.Named ∧ t'.metatable = t.metatable ∧
    ∀ s, (∀ name ∈ names, Bytes.ofText name ≠ s) → t'.get (.str s) = t.get (.str s)

theorem Keeps.refl (t : Table) (names : List String) : Keeps t t names := fun n => ⟨n, rfl, fun _ _ => rfl⟩

theorem Keeps.trans {t t' t'' : Table} {names : List String} (first : Keeps t t' names)
    (second : Keeps t' t'' names) : Keeps t t'' names := by
  intro n
  obtain ⟨n', metatable', get'⟩ := first n
  obtain ⟨n'', metatable'', get''⟩ := second n'
  exact ⟨n'', metatable''.trans metatable', fun s other => (get'' s other).trans (get' s other)⟩

theorem Keeps.setText (t : Table) {name : String} {names : List String} (known : name ∈ names) (v : Value) :
    Keeps t (t.setText name v) names := by
  intro n
  obtain ⟨named, _, metatable⟩ := n.set (Bytes.ofText name) v
  refine ⟨named, metatable, fun s other => ?_⟩
  exact n.get_set_of_ne (other name known).symm v

/-- The tables are there as before, but for names in the global table and in that of the loaded
modules. -/
structure Grows (names : List String) (h h' : Heap) : Prop where
  tables : h.tables.size ≤ h'.tables.size
  loaded : h'.loaded = h.loaded
  globals : h'.globals = h.globals
  keeps : ∀ i < h.tables.size, Keeps (h.table i) (h'.table i) names
  others : ∀ i < h.tables.size, i ≠ h.globals → i ≠ h.loaded → h'.table i = h.table i

/-- A heap with libraries added, but not that of modules. -/
structure Extends (names : List String) (h h' : Heap) : Prop extends Grows names h h' where
  package : h'.package = h.package
  preload : h'.preload = h.preload

variable {h h' h'' : Heap} {names : List String}

theorem table_newTable (h : Heap) (t : Table) {i : Nat} (inside : i < h.tables.size) :
    (h.newTable t).2.table i = h.table i := by
  change (h.tables.push t)[i]?.getD {} = h.tables[i]?.getD {}
  rw [Array.getElem?_push_lt inside, Array.getElem?_eq_getElem inside]

theorem table_new (h : Heap) (t : Table) : (h.newTable t).2.table h.tables.size = t := by
  change (h.tables.push t)[h.tables.size]?.getD {} = t
  rw [Array.getElem?_push_size]
  rfl

theorem table_rawSetText (h : Heap) {t i : Nat} (other : i ≠ t) (name : String) (v : Value) :
    (h.rawSetText t name v).table i = h.table i := by
  change (h.tables.modify t _)[i]?.getD {} = _
  rw [Array.getElem?_modify, if_neg other.symm]
  rfl

theorem table_rawSetText_self (h : Heap) {t : Nat} (inside : t < h.tables.size) (name : String) (v : Value) :
    (h.rawSetText t name v).table t = (h.table t).setText name v := by
  change (h.tables.modify t _)[t]?.getD {} = (h.tables[t]?.getD {}).setText name v
  rw [Array.getElem?_modify, if_pos rfl, Array.getElem?_eq_getElem inside]
  rfl

theorem size_rawSetText (h : Heap) (t : Nat) (name : String) (v : Value) :
    (h.rawSetText t name v).tables.size = h.tables.size := Array.size_modify

theorem size_newTable (h : Heap) (t : Table) : (h.newTable t).2.tables.size = h.tables.size + 1 :=
  Array.size_push t

/-- What is known of a new table. -/
theorem of_newTable {t : Table} {i : Nat} (made : h.newTable t = (i, h')) :
    i = h.tables.size ∧ h'.tables.size = h.tables.size + 1 ∧ h'.table i = t ∧
      ∀ j < h.tables.size, h'.table j = h.table j := by
  obtain rfl : h.tables.size = i := congrArg Prod.fst made
  obtain rfl : (h.newTable t).2 = h' := congrArg Prod.snd made
  exact ⟨rfl, size_newTable h t, table_new h t, fun j hj => table_newTable h t hj⟩

namespace Grows

/-- Nothing happens to the tables. -/
theorem still (tables : h'.tables = h.tables) (loaded : h'.loaded = h.loaded)
    (globals : h'.globals = h.globals) : Grows names h h' := by
  have same (i : Nat) : h'.table i = h.table i := by rw [Heap.table, tables, Heap.table]
  refine ⟨Nat.le_of_eq (by rw [tables]), loaded, globals, fun i _ => ?_, fun i _ _ _ => same i⟩
  rw [same]
  exact .refl _ _

theorem trans (first : Grows names h h') (second : Grows names h' h'') : Grows names h h'' where
  tables := Nat.le_trans first.tables second.tables
  loaded := second.loaded.trans first.loaded
  globals := second.globals.trans first.globals
  keeps i hi := (first.keeps i hi).trans (second.keeps i (Nat.lt_of_lt_of_le hi first.tables))
  others i hi not_globals not_loaded :=
    (second.others i (Nat.lt_of_lt_of_le hi first.tables) (first.globals ▸ not_globals)
      (first.loaded ▸ not_loaded)).trans (first.others i hi not_globals not_loaded)

end Grows

namespace Extends

theorem still (tables : h'.tables = h.tables) (loaded : h'.loaded = h.loaded)
    (globals : h'.globals = h.globals) (package : h'.package = h.package)
    (preload : h'.preload = h.preload) : Extends names h h' :=
  ⟨.still tables loaded globals, package, preload⟩

theorem trans (first : Extends names h h') (second : Extends names h' h'') : Extends names h h'' :=
  ⟨first.toGrows.trans second.toGrows, second.package.trans first.package,
    second.preload.trans first.preload⟩

theorem newTable {t : Table} {i : Nat} (made : h.newTable t = (i, h')) : Extends names h h' := by
  obtain rfl : (h.newTable t).2 = h' := congrArg Prod.snd made
  have same {i : Nat} (inside : i < h.tables.size) := table_newTable h t inside
  refine ⟨⟨?_, rfl, rfl, fun i hi => ?_, fun i hi _ _ => same hi⟩, rfl, rfl⟩
  · change _ ≤ (h.tables.push t).size
    simp
  · rw [same hi]
    exact .refl _ _

/-- A name of the global table or of the loaded modules gets a value. -/
theorem setText {t : Nat} (at_t : t = h.globals ∨ t = h.loaded) {name : String} (known : name ∈ names)
    (v : Value) : Extends names h (h.rawSetText t name v) := by
  refine ⟨⟨?_, rfl, rfl, fun i hi => ?_,
    fun i _ not_globals not_loaded => table_rawSetText h ?_ name v⟩, rfl, rfl⟩
  · change _ ≤ (h.tables.modify _ _).size
    simp
  · by_cases here : i = t
    · subst here
      rw [table_rawSetText_self h hi]
      exact .setText _ known v
    · rw [table_rawSetText h here]
      exact .refl _ _
  · rintro rfl
    exact at_t.elim not_globals not_loaded

theorem addLibrary {name : String} {fields : List (String × Value)} {t : Nat}
    (made : addLibrary h name fields = (t, h')) (known : name ∈ names) : Extends names h h' := by
  obtain rfl : (Library.addLibrary h name fields).2 = h' := congrArg Prod.snd made
  have first : Extends names h (h.newTable (tableOf fields)).2 := newTable rfl
  exact (first.trans (setText (.inl rfl) known _)).trans (setText (.inr rfl) known _)

theorem addStream {s : Stream} {readable : Bool} {v : Value} (made : addStream h s readable = (v, h')) :
    Extends names h h' := by
  obtain rfl : (Library.addStream h s readable).2 = h' := congrArg Prod.snd made
  exact still rfl rfl rfl rfl rfl

theorem newUserdata {u : Userdata} {v : Value} (made : h.newUserdata u = (v, h')) : Extends names h h' := by
  obtain rfl : (h.newUserdata u).2 = h' := congrArg Prod.snd made
  exact still rfl rfl rfl rfl rfl

theorem newBound {f : Native} {vs : Array Value} {v : Value} (made : h.newBound f vs = (v, h')) :
    Extends names h h' := by
  obtain rfl : (h.newBound f vs).2 = h' := congrArg Prod.snd made
  exact still rfl rfl rfl rfl rfl

theorem addStreams (known : "io" ∈ names) : Extends names h (addStreams h) := by
  unfold Library.addStreams
  split; rename_i stdin h₁ made
  refine (addStream made).trans ?_
  split; rename_i stdout h₂ made
  refine (addStream made).trans ?_
  split; rename_i stderr h₃ made
  refine (addStream made).trans ?_
  split; rename_i methods h₄ made
  refine (newTable made).trans ?_
  split; rename_i fileMeta h₅ made
  refine (newTable made).trans ?_
  extract_lets h₆
  have redirected : Extends names h₅ h₆ := still rfl rfl rfl rfl rfl
  refine redirected.trans ?_
  split; rename_i output h₇ made
  refine (newUserdata made).trans ?_
  split; rename_i methods h₈ made
  refine (newTable made).trans ?_
  split; rename_i outputMeta h₉ made
  refine (newTable made).trans ?_
  split; rename_i failureMeta h₁₀ made
  refine (newTable made).trans ?_
  extract_lets h₁₁
  have marked : Extends names h₁₀ h₁₁ := still rfl rfl rfl rfl rfl
  refine marked.trans ?_
  split; rename_i write h₁₂ made
  refine (newBound made).trans ?_
  split; rename_i made
  exact addLibrary made known

end Extends

/-! ## The library of modules -/

/-- A table that no library added later changes. -/
def Apart (h : Heap) (i : Nat) : Prop := i < h.tables.size ∧ i ≠ h.globals ∧ i ≠ h.loaded

theorem Grows.apart (e : Grows names h h') {i : Nat} (a : Apart h i) :
    Apart h' i ∧ h'.table i = h.table i :=
  ⟨⟨Nat.lt_of_lt_of_le a.1 e.tables, e.globals ▸ a.2.1, e.loaded ▸ a.2.2⟩, e.others i a.1 a.2.1 a.2.2⟩

/-- The fields of the module library. -/
def packageFields (path cpath : Bytes) (preload loaded list : Nat) : List (String × Value) :=
  [("loadlib", .native (.package .loadlib)), ("searchpath", .native (.package .searchpath)),
    ("path", .str path), ("cpath", .str cpath),
    ("config", .text "/\n;\n?\n!\n-\n"), ("preload", .table preload), ("loaded", .table loaded),
    ("searchers", .table list)]

/-- The library of modules is there as it was made, with its searchers in table `l`. -/
structure Installed (path cpath : Bytes) (l : Nat) (h : Heap) : Prop where
  list : Apart h l
  preload : Apart h h.preload
  package : Apart h h.package
  searchers : h.table l = Table.ofList (searchers.map fun f => .native (.package f))
  empty : h.table h.preload = {}
  fields : h.table h.package = tableOf (packageFields path cpath h.preload h.loaded l)

theorem Installed.extends {path cpath : Bytes} {l : Nat} (i : Installed path cpath l h)
    (e : Extends names h h') : Installed path cpath l h' := by
  obtain ⟨list, same_list⟩ := e.apart i.list
  obtain ⟨preload, same_preload⟩ := e.apart i.preload
  obtain ⟨package, same_package⟩ := e.apart i.package
  refine ⟨list, ?_, ?_, same_list.trans i.searchers, ?_, ?_⟩
  · rw [e.preload]
    exact preload
  · rw [e.package]
    exact package
  · rw [e.preload]
    exact same_preload.trans i.empty
  · rw [e.preload, e.package, e.loaded]
    exact same_package.trans i.fields

/-- The two tables that libraries are put into are there. -/
def Ready (h : Heap) : Prop := h.globals < h.tables.size ∧ h.loaded < h.tables.size

theorem addLibrary_snd (h : Heap) (name : String) (fields : List (String × Value)) :
    (addLibrary h name fields).2 =
      ((h.newTable (tableOf fields)).2.rawSetText h.globals name (.table h.tables.size)).rawSetText h.loaded
        name (.table h.tables.size) := rfl

/-- A library has a table of its own, which holds its fields. -/
theorem table_addLibrary {name : String} {fields : List (String × Value)} {t : Nat} (ready : Ready h)
    (made : addLibrary h name fields = (t, h')) : Apart h' t ∧ h'.table t = tableOf fields := by
  obtain rfl : h.tables.size = t := congrArg Prod.fst made
  have e : Extends [name] h h' := .addLibrary made List.mem_cons_self
  obtain rfl : (addLibrary h name fields).2 = h' := congrArg Prod.snd made
  have not_globals : h.tables.size ≠ h.globals := Nat.ne_of_gt ready.1
  have not_loaded : h.tables.size ≠ h.loaded := Nat.ne_of_gt ready.2
  refine ⟨⟨?_, e.globals ▸ not_globals, e.loaded ▸ not_loaded⟩, ?_⟩
  · rw [addLibrary_snd, size_rawSetText, size_rawSetText, size_newTable]
    exact Nat.lt_succ_self _
  · rw [addLibrary_snd, table_rawSetText _ not_loaded, table_rawSetText _ not_globals, table_new]

theorem apart_newTable {t : Table} {i : Nat} (ready : Ready h) (made : h.newTable t = (i, h')) :
    Apart h' i ∧ h'.table i = t ∧ Ready h' := by
  obtain ⟨at_i, size, table, _⟩ := of_newTable made
  have e : Extends [] h h' := .newTable made
  have globals := ready.1
  have loaded := ready.2
  rw [← e.globals] at globals
  rw [← e.loaded] at loaded
  exact ⟨⟨by omega, by omega, by omega⟩, table, by omega, by omega⟩

/-- The search path of a script at its start. -/
def Setup.path (s : Setup) : Bytes := Bytes.ofText s.searchTemplates ++ modulePath s.world

theorem installed_addModules (ready : Ready h) (s : Setup) :
    Grows ["package", "require"] h (addModules h s) ∧
      (∃ l, Installed s.path (libraryPath s.world) l (addModules h s)) ∧
      ((h.table h.globals).Named →
        ((addModules h s).table h.globals).get (.text "require") = .native (.package .require)) := by
  unfold addModules
  split; rename_i preload h₁ made₁
  obtain ⟨apart₁, table₁, ready₁⟩ := apart_newTable ready made₁
  split; rename_i l h₂ made₂
  obtain ⟨apart₂, table₂, ready₂⟩ := apart_newTable ready₁ made₂
  split; rename_i package h₃ made₃
  obtain ⟨apart₃, table₃⟩ := table_addLibrary ready₂ made₃
  have e₁ : Extends ["package", "require"] h h₁ := .newTable made₁
  have e₂ : Extends ["package", "require"] h₁ h₂ := .newTable made₂
  have e₃ : Extends ["package", "require"] h₂ h₃ := .addLibrary made₃ (by simp)
  extract_lets h₄
  have installed : Installed s.path (libraryPath s.world) l h₄ := by
    obtain ⟨list, same_list⟩ := e₃.apart apart₂
    obtain ⟨empty, same_empty⟩ := e₂.apart apart₁
    obtain ⟨empty', same_empty'⟩ := e₃.apart empty
    refine ⟨list, empty', apart₃, same_list.trans table₂, same_empty'.trans (same_empty.trans table₁), ?_⟩
    refine table₃.trans ?_
    rw [show h₄.loaded = h₂.loaded from e₃.loaded, packageFields, Setup.path]
  have before : Grows ["package", "require"] h h₄ :=
    ((e₁.trans e₂).trans e₃).toGrows.trans (.still rfl rfl rfl)
  have last : Extends ["package", "require"] h₄
      (h₄.rawSetText h₄.globals "require" (.native (.package .require))) := .setText (.inl rfl) (by simp) _
  refine ⟨before.trans last.toGrows, ⟨l, installed.extends last⟩, fun named => ?_⟩
  have inside : h.globals < h₄.tables.size := Nat.lt_of_lt_of_le ready.1 before.tables
  rw [← before.globals, table_rawSetText_self _ (before.globals ▸ inside)]
  have named' := (before.keeps _ (before.globals ▸ ready.1) (before.globals ▸ named)).1
  exact named'.get_set_self _ _

/-! ## The whole heap -/

/-- The names under which something is loaded at the start. -/
def knownNames : List String :=
  ["_G", "_VERSION", "package", "require", "coroutine", "table", "io", "os", "string", "math", "utf8",
    "debug", "poll", "cancel"]

/-- Of the modules of other names none is loaded. -/
structure Clean (h : Heap) : Prop where
  ready : Ready h
  globals : (h.table h.globals).Named
  loaded : (h.table h.loaded).Named
  plain : (h.table h.loaded).metatable = none
  unknown : ∀ name : Bytes, (∀ known ∈ knownNames, Bytes.ofText known ≠ name) →
    (h.table h.loaded).get (.str name) = .nil

theorem Clean.grows (c : Clean h) (g : Grows names h h') (known : names ⊆ knownNames) : Clean h' := by
  obtain ⟨loaded, plain, get⟩ := g.keeps _ c.ready.2 c.loaded
  refine ⟨⟨?_, ?_⟩, ?_, ?_, ?_, fun name other => ?_⟩
  · exact g.globals ▸ Nat.lt_of_lt_of_le c.ready.1 g.tables
  · exact g.loaded ▸ Nat.lt_of_lt_of_le c.ready.2 g.tables
  · exact g.globals ▸ (g.keeps _ c.ready.1 c.globals).1
  · exact g.loaded ▸ loaded
  · exact g.loaded ▸ plain.trans c.plain
  · rw [g.loaded, get name fun n hn => other n (known hn)]
    exact c.unknown name other

/-- What is added behind the library of modules. -/
def laterNames : List String :=
  ["coroutine", "table", "io", "os", "string", "math", "utf8", "debug", "poll", "cancel"]

theorem clean_first {h₁ h₂ h₃ : Heap} {loaded registry globals : Nat} {t : Table}
    {fields : List (String × Value)} (made₁ : h.newTable {} = (loaded, h₁))
    (made₂ : h₁.newTable t = (registry, h₂)) (made₃ : h₂.newTable (tableOf fields) = (globals, h₃)) :
    Clean { h₃ with loaded, registry, globals } := by
  obtain ⟨at₁, size₁, table₁, _⟩ := of_newTable made₁
  obtain ⟨_, size₂, _, same₂⟩ := of_newTable made₂
  obtain ⟨at₃, size₃, table₃, same₃⟩ := of_newTable made₃
  have empty : h₃.table loaded = {} := by rw [same₃ _ (by omega), same₂ _ (by omega), table₁]
  have globals_inside : globals < h₃.tables.size := by omega
  have loaded_inside : loaded < h₃.tables.size := by omega
  refine ⟨⟨globals_inside, loaded_inside⟩, ?_, ?_, ?_, fun name _ => ?_⟩
  · change (h₃.table globals).Named
    rw [table₃]
    exact tableOf_named fields
  · change (h₃.table loaded).Named
    rw [empty]
    exact .empty
  · change (h₃.table loaded).metatable = none
    rw [empty]
  · change (h₃.table loaded).get (.str name) = .nil
    rw [empty]
    rfl

theorem extends_start (s : Setup) :
    ∃ h, Clean h ∧ Extends laterNames (addModules h s) (start s) := by
  unfold start
  extract_lets h₀
  split; rename_i loaded h₁ made₁
  split; rename_i registry h₂ made₂
  split; rename_i globals h₃ made₃
  extract_lets h₄ h₅ h₆ h₇
  have clean : Clean h₆ := by
    have first := clean_first made₁ made₂ made₃
    have named : Extends knownNames h₄ (h₄.rawSetText globals "_G" (.table globals)) :=
      .setText (.inl rfl) (by simp [knownNames]) _
    have version : Extends knownNames _ h₅ := .setText (.inl rfl) (by simp [knownNames]) _
    have loaded : Extends knownNames h₅ h₆ := .setText (.inr rfl) (by simp [knownNames]) _
    exact first.grows ((named.trans version).trans loaded).toGrows fun _ h => h
  have at_globals : h₇.globals = globals := (installed_addModules clean.ready s).1.globals
  refine ⟨h₆, clean, ?_⟩
  change Extends laterNames h₇ _
  clear_value h₇
  -- one library after the other
  split; rename_i h₈ made
  have e : Extends laterNames h₇ h₈ := .addLibrary made (by simp [laterNames])
  split; rename_i h₉ made
  have e := e.trans (.addLibrary made (by simp [laterNames]))
  extract_lets h₁₀
  have e : Extends laterNames h₇ h₁₀ := e.trans (Extends.addStreams (h := h₉) (by simp [laterNames]))
  split; rename_i h₁₁ made
  have e := e.trans (.addLibrary made (by simp [laterNames]))
  split; rename_i strings h₁₂ made
  have e := e.trans (.addLibrary made (by simp [laterNames]))
  split; rename_i stringMeta h₁₃ made
  have e := e.trans (.newTable made)
  extract_lets h₁₄
  have e : Extends laterNames h₇ h₁₄ := e.trans (.still rfl rfl rfl rfl rfl)
  split; rename_i h₁₅ made
  have e := e.trans (.addLibrary made (by simp [laterNames]))
  split; rename_i h₁₆ made
  have e := e.trans (.addLibrary made (by simp [laterNames]))
  extract_lets h₁₇
  have debug : Extends laterNames h₁₆ h₁₇ := by
    change Extends laterNames h₁₆ (if s.safe = true then h₁₆ else _)
    split
    · exact .still rfl rfl rfl rfl rfl
    · have known : "debug" ∈ laterNames := by simp [laterNames]
      exact Extends.addLibrary rfl known
  have e := e.trans debug
  have at_globals : globals = h₁₇.globals := at_globals.symm.trans e.globals.symm
  split
  · have poll : Extends laterNames h₁₇ (h₁₇.rawSetText globals "poll" (.native (.host .poll))) :=
      .setText (.inl at_globals) (by simp [laterNames]) _
    have cancel : "cancel" ∈ laterNames := by simp [laterNames]
    exact (e.trans poll).trans (.setText (.inl (at_globals.trans poll.globals.symm)) cancel _)
  · exact e

/-- **The library of modules at the start.** It is there as it was made; under other names than those
of the libraries nothing is loaded; and `require` is its function. -/
theorem start_modules (s : Setup) :
    (∃ l, Installed s.path (libraryPath s.world) l (start s)) ∧ Clean (start s) ∧
    ((start s).table (start s).globals).get (.text "require") = .native (.package .require) := by
  obtain ⟨h, clean, later⟩ := extends_start s
  obtain ⟨grows, ⟨l, installed⟩, require⟩ := installed_addModules clean.ready s
  have clean' : Clean (addModules h s) := clean.grows grows (by decide)
  refine ⟨⟨l, installed.extends later⟩, clean'.grows later.toGrows (by decide), ?_⟩
  obtain ⟨_, _, get⟩ := later.keeps _ clean'.ready.1 clean'.globals
  rw [later.globals]
  refine (get (Bytes.ofText "require") fun name hn same => ?_).trans (grows.globals ▸ require clean.globals)
  have name := Bytes.ofText_injective same
  subst name
  revert hn
  decide

end ScriptHost.Script.Library
