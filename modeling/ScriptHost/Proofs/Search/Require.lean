import ScriptHost.Proofs.Search.Leads
import ScriptHost.Proofs.Search.Library
import ScriptHost.Proofs.Search.Templates

/-!
# How a module is searched

`require` asks four searchers one after the other: for preloaded modules, for scripts in
the search path, and for two kinds of libraries in a path of their own. The second looks
its files up in their order and loads the first one that is there. No library can be
loaded here, so the other two at most find one and fail.

* `Searching`, `Unknown`: the library of modules has its fields, and does not know the
  module yet.
* `leads_search`, `leads_loadFile`: looking for a file, and loading it.
* `leads_findLoader`: asking a searcher that passes.
* `leads_require_some`, `leads_require_none`: the whole search, when one of the files is
  there and when none is.
-/
namespace ScriptHost.Script.Modules

open HostM Bytes

/-- The library of modules as `require` needs it: the fields are there, and nothing diverts it. -/
structure Searching (path cpath : Bytes) (h : Heap) : Prop where
  loaded : (h.table h.loaded).metatable = none
  preload : (h.table h.preload).metatable = none
  path : (h.table h.package).get (.text "path") = .str path
  cpath : (h.table h.package).get (.text "cpath") = .str cpath
  searchers : ∃ l, (h.table h.package).get (.text "searchers") = .table l ∧
    h.rawGet l (.ofNat 1) = .native (.package .searchPreload) ∧
    h.rawGet l (.ofNat 2) = .native (.package .searchScript) ∧
    h.rawGet l (.ofNat 3) = .native (.package .searchLibrary) ∧
    h.rawGet l (.ofNat 4) = .native (.package .searchRoot) ∧ h.rawGet l (.ofNat 5) = .nil

/-- A module is neither loaded nor preloaded. -/
structure Unknown (name : Bytes) (h : Heap) : Prop where
  loaded : (h.table h.loaded).get (.str name) = .nil
  preload : (h.table h.preload).get (.str name) = .nil

variable {disk : Files} {n : Nat} {h h' : Heap} {path cpath name file : Bytes}

theorem Searching.seen (s : Searching path cpath h) (seen : Seen h h') : Searching path cpath h' := by
  obtain ⟨w, rfl⟩ := seen
  exact ⟨s.loaded, s.preload, s.path, s.cpath, s.searchers⟩

theorem Unknown.seen (u : Unknown name h) (seen : Seen h h') : Unknown name h' := by
  obtain ⟨w, rfl⟩ := seen
  exact ⟨u.loaded, u.preload⟩

/-! ## Parts -/

theorem index_present {t : Nat} {key v : Value} (found : (h.table t).get key = v) (some_value : v ≠ .nil) :
    index (.table t) key h = .done v h := by
  refine index_value ?_
  rw [show maxChain = 1999 + 1 from rfl, Heap.lookUp]
  rw [found]
  cases v with
  | nil => exact absurd rfl some_value
  | _ => rfl

theorem index_absent {t : Nat} {key : Value} (plain : (h.table t).metatable = none)
    (absent : (h.table t).get key = .nil) : index (.table t) key h = .done .nil h := by
  refine index_value ?_
  rw [show maxChain = 1999 + 1 from rfl, Heap.lookUp]
  rw [absent, plain]

theorem checkCString_eq (ends : name.untilNul = name) :
    checkCString #[.str name] 1 h = .done name h := by
  change Action.done name.untilNul h = _
  rw [ends]

theorem pathField_eq {field : String} {c : Bytes} (found : (h.table h.package).get (.text field) = .str c) :
    pathField field h = .done c h := by
  rw [pathField, view_bind, bind_apply, index_present found nofun]
  rfl

/-- The files that are looked at for a module in a search path; both end at a NUL. -/
def filesFor (path name : Bytes) : List Bytes := candidates path.untilNul (asPath name.untilNul)

theorem filesFor_untilNul (path name : Bytes) : filesFor path name.untilNul = filesFor path name := by
  rw [filesFor, untilNul_untilNul, filesFor]

theorem leads_search (path name : Bytes) : Leads disk n (search path name dot slash h)
    ((probed disk (filesFor path name)).map Bytes.toText)
    (Outcome (fun r h' => Seen h h' ∧ r = match (filesFor path name).find? (there disk) with
      | some f => .ok f
      | none => .error (notFoundText path.untilNul (asPath name.untilNul))) never) := by
  have sep : dot.untilNul = dot := untilNul_of_notMem (by decide)
  have dirsep : slash.untilNul = slash := untilNul_of_notMem (by decide)
  have some_sep : ¬ dot.isEmpty = true := by decide
  rw [search, sep, dirsep, if_neg some_sep, replace_dot, ← List.append_nil (List.map _ _)]
  refine (leads_firstThere _).bindM (fun r h' q => ?_) fun _ _ no => no.elim
  obtain ⟨rfl, seen⟩ := q
  cases found : (candidates path.untilNul (asPath name.untilNul)).find? (there disk) with
  | some f => exact .done ⟨seen, by rw [filesFor, found]⟩
  | none => exact .done ⟨seen, by rw [filesFor, found]⟩

/-! ## Loading a file -/

/-- What the thing at a path is as code, or why it is none. -/
def code (h : Heap) (file : Bytes) : Entry → Except Bytes Proto
  | .file b => codeOf h (sourceOf b) (Bytes.ofText "@" ++ file)
  | .gate => codeOf h .empty (Bytes.ofText "@" ++ file)
  | .directory =>
    .error (Bytes.cat [Bytes.ofText "cannot read ", file, Bytes.ofText ": ",
      Bytes.ofText (SystemError.describe 21)])

theorem codeOf_seen (seen : Seen h h') (chunk name : Bytes) :
    codeOf h' chunk name = codeOf h chunk name := by
  obtain ⟨w, rfl⟩ := seen
  rw [codeOf, codeOf, undump, undump]

theorem code_seen (seen : Seen h h') (file : Bytes) (e : Entry) : code h' file e = code h file e := by
  cases e with
  | file b => exact codeOf_seen seen _ _
  | gate => exact codeOf_seen seen _ _
  | directory => rfl

/-- A function of this code. -/
def IsFunction (p : Proto) (v : Value) (h : Heap) : Prop :=
  ∃ i cells, v = .closure i ∧ h.closures[i]? = some ⟨p, cells⟩

/-- What loading code comes to: a message, or a function of the code. -/
inductive Yields : Except Bytes Proto → Except Bytes Value → Heap → Prop
  | refused (e : Bytes) (h : Heap) : Yields (.error e) (.error e) h
  | made {p : Proto} {v : Value} {h : Heap} : IsFunction p v h → Yields (.ok p) (.ok v) h

theorem instantiate_eq (p : Proto) (env : Value) (h : Heap) :
    ∃ v h', instantiate p env h = .done v h' ∧ IsFunction p v h' := by
  exact ⟨_, _, rfl, _, _, rfl, Array.getElem?_push_size⟩

theorem loadChunk_eq (chunk name : Bytes) (env : Value) (h : Heap) :
    ∃ r h', loadChunk chunk name (Bytes.ofText "bt") env h = .done r h' ∧
      Yields (codeOf h chunk name) r h' := by
  have allowed : ¬ (!(Bytes.ofText "bt").toList.contains
      (if Bytes.at0 chunk 0 = 0x1B then 0x62 else 0x74)) = true := by
    rw [toList_eq]
    split <;> decide
  rw [loadChunk, if_neg allowed, view_bind]
  cases codeOf h chunk name with
  | error e => exact ⟨_, _, rfl, .refused e h⟩
  | ok p =>
    obtain ⟨v, h', made, function⟩ := instantiate_eq p env h
    refine ⟨.ok v, h', ?_, .made function⟩
    change (instantiate p env >>= fun v => pure (Except.ok v)) h = _
    rw [bind_apply, made]
    rfl

theorem leads_loadFile {r : Route} {e : Entry} (found : disk.find file.toText = .ok (r, e)) (env : Value) :
    Leads disk n (loadFile (some file) (Bytes.ofText "bt") env h) [file.toText]
      (Outcome (Yields (code h file e)) never) := by
  rw [loadFile]
  refine leads_look fun w same => ?_
  rw [view_bind, same.trans found]
  cases e with
  | file b =>
    obtain ⟨r, h', made, spec⟩ :=
      loadChunk_eq (sourceOf b) (Bytes.ofText "@" ++ file) env { h with world := w }
    change Leads disk n (loadChunk _ _ _ _ _) _ _
    rw [codeOf_seen ⟨w, rfl⟩] at spec
    rw [made, code]
    exact .done spec
  | directory => exact .done (.refused _ _)
  | gate =>
    refine .openGate fun w' => .awaitGate fun w'' => ?_
    obtain ⟨r, h', made, spec⟩ := loadChunk_eq .empty (Bytes.ofText "@" ++ file) env { h with world := w'' }
    change Leads disk n (loadChunk _ _ _ _ _) _ _
    rw [codeOf_seen ⟨w'', rfl⟩] at spec
    rw [made, code]
    exact .done spec

/-! ## Searchers -/

/-- A searcher that has found nothing: it says so, or says nothing. -/
def Passes (h : Heap) (vs : Array Value) (h' : Heap) : Prop :=
  Seen h h' ∧ (vs = #[] ∨ ∃ b, vs = #[.str b])

/-- The error for a module whose file cannot be loaded. -/
def loadErrorText (name file message : Bytes) : Bytes :=
  Bytes.cat [Bytes.ofText "error loading module '", name, Bytes.ofText "' from file '", file,
    Bytes.ofText "':\n\t", message]

theorem leads_searchPreload (ends : name.untilNul = name) (s : Searching path cpath h)
    (u : Unknown name h) :
    Leads disk n (searchPreload #[.str name] h) [] (Outcome (Passes h) never) := by
  refine .after (checkCString_eq ends) ?_
  rw [view_bind]
  refine .after (index_absent s.preload u.preload) ?_
  exact .done ⟨.refl h, .inr ⟨_, rfl⟩⟩

theorem leads_searchScript_none (ends : name.untilNul = name) (s : Searching path cpath h)
    (absent : ∀ f ∈ filesFor path name, there disk f = false) :
    Leads disk n (searchScript #[.str name] h) ((filesFor path name).map Bytes.toText)
      (Outcome (Passes h) never) := by
  have nothing : (filesFor path name).find? (there disk) = none :=
    List.find?_eq_none.mpr fun f hf => by simp [absent f hf]
  refine .after (checkCString_eq ends) (.after (pathField_eq s.path) ?_)
  rw [← List.append_nil (List.map _ _), ← probed_of_none absent]
  refine (leads_search path name).bindM (fun r h' q => ?_) fun _ _ no => no.elim
  obtain ⟨seen, rfl⟩ := q
  rw [nothing]
  exact .done ⟨seen, .inr ⟨_, rfl⟩⟩

theorem leads_searchScript_some (ends : name.untilNul = name) (s : Searching path cpath h)
    {before after : List Bytes} {f : Bytes} {r : Route} {e : Entry} (split : filesFor path name = before ++ f :: after)
    (absent : ∀ g ∈ before, there disk g = false) (found : disk.find f.toText = .ok (r, e)) :
    Leads disk n (searchScript #[.str name] h) ((before ++ [f, f]).map Bytes.toText)
      (Outcome (fun vs h' => ∃ p v, code h f e = .ok p ∧ vs = #[v, .str f] ∧ IsFunction p v h')
        fun fault _ => ∃ msg, code h f e = .error msg ∧ fault = .message (loadErrorText name f msg)) := by
  have here : there disk f = true := by rw [there, Files.hasEntry, found]
  have first : (filesFor path name).find? (there disk) = some f := by
    rw [split, List.find?_append, List.find?_eq_none.mpr fun g hg => by simp [absent g hg],
      List.find?_cons, here]
    rfl
  have paths : (before ++ [f, f]).map Bytes.toText =
      (probed disk (filesFor path name)).map Bytes.toText ++ ([f.toText] ++ []) := by
    rw [split, probed_of_first absent here]
    simp
  refine .after (checkCString_eq ends) (.after (pathField_eq s.path) ?_)
  rw [paths]
  refine (leads_search path name).bindM (fun r h' q => ?_) fun _ _ no => no.elim
  obtain ⟨seen, rfl⟩ := q
  rw [first]
  refine .after (x := globals) rfl ?_
  refine (leads_loadFile found _).bindM (fun r h'' yields => ?_) fun _ _ no => no.elim
  rw [code_seen seen] at yields
  cases loaded : code h f e with
  | error msg =>
    rw [loaded] at yields
    cases yields
    exact .here ⟨msg, rfl, rfl⟩
  | ok p =>
    rw [loaded] at yields
    obtain - | function := yields
    exact .done ⟨p, _, rfl, rfl, function⟩

/-- A searcher for libraries: it passes when there is none of its files, else it fails. -/
def SearchesIn (disk : Files) (files : List Bytes) (h : Heap) : Action (Array Value) → Prop :=
  Outcome (fun vs h' => files.any (there disk) = false ∧ Passes h vs h')
    fun e _ => files.any (there disk) = true ∧ ∃ msg, e = .message msg

theorem any_there (files : List Bytes) : files.any (there disk) = (files.find? (there disk)).isSome := by
  rw [List.isSome_find?]

theorem leads_searchIn {k : Except Bytes Bytes → HostM (Array Value)} (path name : Bytes)
    (none : ∀ msg h, k (.error msg) h = .done #[.str msg] h)
    (some : ∀ f h, ∃ msg, k (.ok f) h = .fail (.message msg) h) :
    Leads disk n ((search path name dot slash >>= k) h) ((probed disk (filesFor path name)).map Bytes.toText)
      (SearchesIn disk (filesFor path name) h) := by
  rw [← List.append_nil (List.map _ _)]
  refine (leads_search path name).bindM (fun r h' q => ?_) fun _ _ no => no.elim
  obtain ⟨seen, rfl⟩ := q
  refine .here ?_
  cases found : (filesFor path name).find? (there disk) with
  | none =>
    dsimp only
    rw [none]
    exact ⟨by rw [any_there, found]; rfl, seen, .inr ⟨_, rfl⟩⟩
  | some f =>
    obtain ⟨msg, failed⟩ := some f h'
    dsimp only
    rw [failed]
    exact ⟨by rw [any_there, found]; rfl, msg, rfl⟩

theorem leads_searchLibrary (ends : name.untilNul = name) (s : Searching path cpath h) :
    Leads disk n (searchLibrary #[.str name] h) ((probed disk (filesFor cpath name)).map Bytes.toText)
      (SearchesIn disk (filesFor cpath name) h) :=
  .after (checkCString_eq ends)
    (.after (pathField_eq s.cpath) (leads_searchIn cpath name (fun _ _ => rfl) fun _ _ => ⟨_, rfl⟩))

/-- The files of the library of a module's root. -/
def rootFiles (cpath name : Bytes) : List Bytes :=
  match Bytes.find? name dot 0 with
  | none => []
  | some i => filesFor cpath (name.extract 0 i)

theorem leads_searchRoot (ends : name.untilNul = name) (s : Searching path cpath h) :
    Leads disk n (searchRoot #[.str name] h) ((probed disk (rootFiles cpath name)).map Bytes.toText)
      (SearchesIn disk (rootFiles cpath name) h) := by
  refine .after (checkCString_eq ends) ?_
  rw [rootFiles]
  cases Bytes.find? name dot 0 with
  | none => exact .here ⟨rfl, .refl h, .inl rfl⟩
  | some i =>
    exact .after (pathField_eq s.cpath)
      (leads_searchIn cpath (name.extract 0 i) (fun _ _ => rfl) fun _ _ => ⟨_, rfl⟩)

/-! ## Asking one searcher after the other -/

section

variable {l i fuel : Nat} {f : Native} {msg : Bytes} {ps ps' : List String}
  {P : Action (Value × Value) → Prop} {Q : Array Value → Heap → Prop} {E : Fault → Heap → Prop}

/-- A searcher that passes is followed by the next one. -/
theorem leads_findLoader (at_i : h.rawGet l (.ofNat i) = .native f)
    (asked : Leads disk n (f.run 0 #[] #[.str name] h) ps (Outcome Q E))
    (passes : ∀ vs h', Q vs h' → Passes h vs h')
    (rest : ∀ vs h' msg, Q vs h' → Leads disk (n + 1) (findLoader name l fuel (i + 1) msg h') ps' P)
    (broken : ∀ e h', E e h' → ps' = [] ∧ P (.fail e h')) :
    Leads disk (n + 1) (findLoader name l (fuel + 1) i msg h) (ps ++ ps') P := by
  rw [findLoader, view_bind, at_i]
  refine leads_call asked (fun vs h' q => ?_) broken
  obtain ⟨_, rfl | ⟨b, rfl⟩⟩ := passes vs h' q
  · exact rest _ h' _ q
  · exact rest _ h' _ q

/-- A searcher that has found a loader ends the search. -/
theorem leads_findLoader_found {R : Value × Value → Heap → Prop} (at_i : h.rawGet l (.ofNat i) = .native f)
    (asked : Leads disk n (f.run 0 #[] #[.str name] h) ps (Outcome Q E))
    (gives : ∀ vs h', Q vs h' → ∃ v x, vs = #[v, x] ∧ v.isFunction ∧ R (v, x) h') :
    Leads disk (n + 1) (findLoader name l (fuel + 1) i msg h) ps (Outcome R E) := by
  rw [findLoader, view_bind, at_i, ← List.append_nil ps]
  refine leads_call asked (fun vs h' q => ?_) fun e h' fails => ⟨rfl, fails⟩
  obtain ⟨v, x, rfl, function, r⟩ := gives vs h' q
  refine .here ?_
  change Outcome R E ((if v.isFunction then _ else _ : HostM _) h')
  rw [if_pos function]
  exact r

/-- Behind the last searcher the search fails. -/
theorem leads_findLoader_end (last : h.rawGet l (.ofNat i) = .nil) :
    Leads disk n (findLoader name l (fuel + 1) i msg h) []
      (Outcome (fun _ _ => False) fun e _ => ∃ msg, e = .message msg) := by
  rw [findLoader, view_bind, last]
  exact .here ⟨_, rfl⟩

end

/-- The files that are looked at for a module in the library path. -/
def libraryFiles (cpath name : Bytes) : List Bytes := filesFor cpath name ++ rootFiles cpath name

/-- The searchers behind that for scripts find at most a library, and no library can be loaded. -/
theorem leads_libraries {l fuel : Nat} {msg : Bytes} (ends : name.untilNul = name)
    (s : Searching path cpath h)
    (third : h.rawGet l (.ofNat 3) = .native (.package .searchLibrary))
    (fourth : h.rawGet l (.ofNat 4) = .native (.package .searchRoot))
    (last : h.rawGet l (.ofNat 5) = .nil) :
    Leads disk (n + 1) (findLoader name l (fuel + 3) 3 msg h)
      ((probed disk (libraryFiles cpath name)).map Bytes.toText)
      (Outcome (fun _ _ => False) fun e _ => ∃ msg, e = .message msg) := by
  rw [libraryFiles, probed_append, List.map_append]
  refine leads_findLoader third (leads_searchLibrary ends s) (fun _ _ q => q.2) (fun _ h' msg q => ?_)
    fun e h' fails => ?_
  · obtain ⟨none, ⟨w, rfl⟩, _⟩ := q
    rw [if_neg (by simp [none]), ← List.append_nil (List.map _ _)]
    refine leads_findLoader fourth (leads_searchRoot ends (s.seen ⟨w, rfl⟩)) (fun _ _ q => q.2)
      (fun _ h' msg q => ?_) fun e h' fails => ⟨rfl, fails.2⟩
    obtain ⟨_, ⟨w', rfl⟩, _⟩ := q
    exact leads_findLoader_end last
  · rw [if_pos fails.1]
    exact ⟨rfl, fails.2⟩

/-! ## The whole search -/

/-- What `require` does once it has found a file: it calls the function of its code, with the name of
the module, as it was given, and of the file, or it fails. -/
def Opens (h : Heap) (name file : Bytes) (e : Entry) : Action (Array Value) → Prop
  | .ask (.call v args false) h' _ =>
    args = #[.str name, .str file] ∧ ∃ p, code h file e = .ok p ∧ IsFunction p v h'
  | .fail fault _ =>
    ∃ msg, code h file e = .error msg ∧ fault = .message (loadErrorText name.untilNul file msg)
  | _ => False

/-- It fails with a message. -/
def Fails : Action (Array Value) → Prop
  | .fail (.message _) _ => True
  | _ => False

/-- The searchers in the table `l`, but for the first one. -/
structure Searchers (l : Nat) (h : Heap) : Prop where
  script : h.rawGet l (.ofNat 2) = .native (.package .searchScript)
  library : h.rawGet l (.ofNat 3) = .native (.package .searchLibrary)
  root : h.rawGet l (.ofNat 4) = .native (.package .searchRoot)
  last : h.rawGet l (.ofNat 5) = .nil

/-- A module that is not known is left to the searchers behind that for preloaded ones. -/
theorem leads_require {P : Action (Array Value) → Prop} {ps : List String}
    {Q : Value × Value → Heap → Prop} {E : Fault → Heap → Prop} (s : Searching path cpath h)
    (u : Unknown name.untilNul h)
    (search : ∀ l h' msg, Seen h h' → Searchers l h' →
      Leads disk (n + 1) (findLoader name.untilNul l 9999 2 msg h') ps (Outcome Q E))
    (found : ∀ r h', Q r h' → ∀ k : Value → HostM (Array Value),
      P ((call1 r.1 #[.str name, r.2] >>= k) h'))
    (broken : ∀ e h', E e h' → P (.fail e h')) :
    Leads disk (n + 1) (require #[.str name] h) ps P := by
  obtain ⟨l, list, first, second, third, fourth, last⟩ := s.searchers
  refine .after rfl ?_
  rw [view_bind]
  refine .after (index_absent s.loaded u.loaded) ?_
  rw [show Value.truthy .nil = false from rfl, if_neg Bool.false_ne_true, view_bind]
  refine .after (index_present list nofun) ?_
  have loader : Leads disk (n + 1) (findLoader name.untilNul l 10000 1 .empty h) ps (Outcome Q E) := by
    refine leads_findLoader first (leads_searchPreload (untilNul_untilNul name) s u) (fun _ _ q => q)
      (fun _ h' msg q => ?_) fun _ _ no => no.elim
    obtain ⟨⟨w, rfl⟩, _⟩ := q
    exact search l _ msg ⟨w, rfl⟩ ⟨second, third, fourth, last⟩
  rw [← List.append_nil ps]
  refine loader.bindM (fun r h' q => .here ?_) fun e h' fails => ⟨rfl, broken e h' fails⟩
  exact found r h' q _

theorem leads_require_some (s : Searching path cpath h) (u : Unknown name.untilNul h)
    {before after : List Bytes} {f : Bytes} {r : Route} {e : Entry}
    (split : filesFor path name = before ++ f :: after)
    (absent : ∀ g ∈ before, there disk g = false) (found : disk.find f.toText = .ok (r, e)) :
    Leads disk (n + 1) (require #[.str name] h) ((before ++ [f, f]).map Bytes.toText)
      (Opens h name f e) := by
  refine leads_require (Q := fun r h' => ∃ p v, code h f e = .ok p ∧ r = (v, .str f) ∧ IsFunction p v h')
    (E := fun fault _ =>
      ∃ msg, code h f e = .error msg ∧ fault = .message (loadErrorText name.untilNul f msg))
    s u (fun l h' msg seen searchers => ?_) (fun r h' q k => ?_) fun _ _ fails => fails
  · rw [← filesFor_untilNul] at split
    have asked := leads_searchScript_some (n := n) (untilNul_untilNul name) (s.seen seen) split absent
      found
    rw [code_seen seen] at asked
    refine leads_findLoader_found searchers.script asked fun vs h'' q => ?_
    obtain ⟨p, v, loaded, rfl, i, cells, rfl, closure⟩ := q
    exact ⟨_, _, rfl, rfl, p, _, loaded, rfl, i, cells, rfl, closure⟩
  · obtain ⟨p, v, loaded, rfl, function⟩ := q
    exact ⟨rfl, p, loaded, function⟩

theorem leads_require_none (s : Searching path cpath h) (u : Unknown name.untilNul h)
    (absent : ∀ f ∈ filesFor path name, there disk f = false) :
    Leads disk (n + 1) (require #[.str name] h)
      ((filesFor path name ++ probed disk (libraryFiles cpath name.untilNul)).map Bytes.toText) Fails := by
  refine leads_require (Q := fun _ _ => False) (E := fun e _ => ∃ msg, e = .message msg) s u
    (fun l h' msg seen searchers => ?_) (fun _ _ no _ => no.elim) fun _ _ fails => ?_
  · have ends := untilNul_untilNul name
    rw [← filesFor_untilNul] at absent ⊢
    rw [List.map_append]
    refine leads_findLoader searchers.script (leads_searchScript_none ends (s.seen seen) absent)
      (fun _ _ q => q) (fun _ h'' msg q => ?_) fun _ _ no => no.elim
    obtain ⟨⟨w, rfl⟩, _⟩ := q
    exact leads_libraries ends (s.seen (seen.trans ⟨w, rfl⟩)) searchers.library searchers.root
      searchers.last
  · obtain ⟨msg, rfl⟩ := fails
    trivial

end ScriptHost.Script.Modules
