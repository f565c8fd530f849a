import ScriptHost.Script.Compile.Grammar
import ScriptHost.Script.Library.Streams

/-!
# Chunks and modules

A chunk is a source text or a function in binary form; loaded, it is a function
whose first captured variable is the environment. A module is found by asking
a list of searchers, of which one walks the templates of the search path.
-/
namespace ScriptHost.Script.Modules

open HostM

/-! ## Chunks -/

/-- A function with fresh variables, the first of them the environment. -/
def instantiate (p : Proto) (env : Value) : HostM Value := change fun h =>
  let (cells, h) := (List.range p.captures.size).foldl (fun ((cells : Array Nat), h) i =>
    let (c, h) := Heap.newCell h (.closed (if i = 0 then env else .nil))
    (cells.push c, h)) (#[], h)
  let (i, h) := h.newClosure ⟨p, cells⟩
  (.closure i, h)

/-- The code behind a binary form, which stands for a function dumped on this heap. -/
def undump (h : Heap) (chunk name : Bytes) : Except Bytes Proto :=
  let bad (what : String) : Except Bytes Proto :=
    .error (Bytes.cat [displayName name, Bytes.ofText (": bad binary format (" ++ what ++ ")")])
  match Binary.decode chunk with
  | .error what => bad what
  | .ok index =>
    match h.dumped[index]? with
    | some p => .ok p
    | none => bad "truncated chunk"

/-- The code of a chunk, in binary form or as a source text. -/
def codeOf (h : Heap) (chunk name : Bytes) : Except Bytes Proto :=
  if Bytes.at0 chunk 0 = 0x1B then undump h chunk name else compile chunk name

/-- A chunk as a function, or a message. -/
def loadChunk (chunk name mode : Bytes) (env : Value) : HostM (Except Bytes Value) := do
  let binary := Bytes.at0 chunk 0 = 0x1B
  let letter : UInt8 := if binary then 0x62 else 0x74
  if !mode.toList.contains letter then
    pure (.error (Bytes.cat [Bytes.ofText "attempt to load a ",
      Bytes.ofText (if binary then "binary" else "text"), Bytes.ofText " chunk (mode is '", mode,
      Bytes.ofText "')"]))
  else
    match ← view (codeOf · chunk name) with
    | .error e => pure (.error e)
    | .ok p => do pure (.ok (← instantiate p env))

def globals : HostM Value := view (.table ·.globals)

/-- The text of a file without a byte order mark and a first line that begins with `#`. -/
def sourceOf (b : Bytes) : Bytes :=
  let b := if b.isAt (Bytes.ofList [0xEF, 0xBB, 0xBF]) 0 then b.extract 3 b.size else b
  if Bytes.at0 b 0 = 0x23 then
    match Bytes.find? b (Bytes.ofList [0x0A]) 0 with
    | some i => b.extract i b.size
    | none => Bytes.ofText "\n"
  else b

/-- Loads a file, or standard input. -/
def loadFile (path : Option Bytes) (mode : Bytes) (env : Value) : HostM (Except Bytes Value) := do
  match path with
  | none =>
    match ← Streams.readAll 0 with
    | some (.str b) => loadChunk (sourceOf b) (Bytes.ofText "=stdin") mode env
    | _ => loadChunk .empty (Bytes.ofText "=stdin") mode env
  | some p =>
    let failed (what : String) (e : SystemError) : HostM (Except Bytes Value) :=
      let text := match e with
        | .code n => SystemError.describe n
        | e => e.text
      pure (.error (Bytes.cat [Bytes.ofText ("cannot " ++ what ++ " "), p, Bytes.ofText ": ", Bytes.ofText text]))
    look p
    match ← view (fun h => h.world.files.find p.toText) with
    | .error e => failed "open" e
    | .ok (_, .directory) => failed "read" (.code 21)
    | .ok (_, .gate) =>
      let _ ← ask (.openGate p.toText)
      let _ ← ask (.awaitGate p.toText)
      loadChunk .empty (Bytes.ofText "@" ++ p) mode env
    | .ok (_, .file b) => loadChunk (sourceOf b) (Bytes.ofText "@" ++ p) mode env

/-! ## The search path -/

/-- The files that a search path names for a module: in every template between `;` the sign `?`
stands for the name. Neither holds a NUL. -/
def candidates (path name : Bytes) : List Bytes :=
  let filled := path.replace (Bytes.ofText "?") name
  if filled.isEmpty then [] else filled.split 0x3B

/-- The first of some files that is there; they are looked for one after the other. -/
def firstThere : List Bytes → HostM (Option Bytes)
  | [] => pure none
  | f :: rest => do
    look f
    if ← view (·.world.files.hasEntry f.toText) then pure (some f) else firstThere rest

/-- The message for a module that no template leads to. -/
def notFoundText (path name : Bytes) : Bytes :=
  let filled := path.replace (Bytes.ofText "?") name
  Bytes.cat [Bytes.ofText "no file '", filled.replace (Bytes.ofText ";") (Bytes.ofText "'\n\tno file '"),
    Bytes.ofText "'"]

/-- Walks a search path in which `sep` in the name becomes `dirsep`. Mirrors `searchpath`, for which
every string ends at a NUL. -/
def search (path name sep dirsep : Bytes) : HostM (Except Bytes Bytes) := do
  let path := path.untilNul
  let name := name.untilNul
  let name := if sep.untilNul.isEmpty then name else name.replace sep.untilNul dirsep.untilNul
  match ← firstThere (candidates path name) with
  | some f => pure (.ok f)
  | none => pure (.error (notFoundText path name))

def dot : Bytes := Bytes.ofText "."
def slash : Bytes := Bytes.ofText "/"

/-- A path field of the module library, which must be a text. -/
def pathField (name : String) : HostM Bytes := do
  let package ← view (·.package)
  match ← index (.table package) (.text name) with
  | .str s => pure s
  | v =>
    if v.isNumber then pure (Number.toBytes v) else error s!"'package.{name}' must be a string"

/-! ## Searchers -/

def loadError {α : Type} (name file message : Bytes) : HostM α :=
  errorBytes [Bytes.ofText "error loading module '", name, Bytes.ofText "' from file '", file,
    Bytes.ofText "':\n\t", message]

def searchPreload (args : Args) : HostM (Array Value) := do
  let name ← checkCString args 1
  let preload ← view (·.preload)
  match ← index (.table preload) (.str name) with
  | .nil =>
    pure #[.str (Bytes.cat [Bytes.ofText "no field package.preload['", name, Bytes.ofText "']"])]
  | f => pure #[f, .text ":preload:"]

def searchScript (args : Args) : HostM (Array Value) := do
  let name ← checkCString args 1
  match ← search (← pathField "path") name dot slash with
  | .error msg => pure #[.str msg]
  | .ok file =>
    match ← loadFile (some file) (Bytes.ofText "bt") (← globals) with
    | .ok f => pure #[f, .str file]
    | .error msg => loadError name file msg

def searchLibrary (args : Args) : HostM (Array Value) := do
  let name ← checkCString args 1
  match ← search (← pathField "cpath") name dot slash with
  | .error msg => pure #[.str msg]
  | .ok file => loadError name file (file ++ Bytes.ofText ": file too short")

/-- A submodule may be in the library of its root. -/
def searchRoot (args : Args) : HostM (Array Value) := do
  let name ← checkCString args 1
  match Bytes.find? name dot 0 with
  | none => pure #[]
  | some i =>
    match ← search (← pathField "cpath") (name.extract 0 i) dot slash with
    | .error msg => pure #[.str msg]
    | .ok file => loadError name file (file ++ Bytes.ofText ": file too short")

/-- Asks the searchers from the `i`-th on for a loader. -/
def findLoader (name : Bytes) (searchers : Nat) : Nat → Nat → Bytes → HostM (Value × Value)
  | 0, _, _ => error "too many searchers"
  | fuel + 1, i, msg => do
    match ← view (·.rawGet searchers (.ofNat i)) with
    | .nil =>
      errorBytes [Bytes.ofText "module '", name, Bytes.ofText "' not found:", msg]
    | s =>
      let r ← call s #[.str name]
      let first := arg r 1
      let line (b : Bytes) : Bytes := Bytes.cat [msg, Bytes.ofText "\n\t", b]
      if first.isFunction then pure (first, arg r 2)
      else match first with
        | .str b => findLoader name searchers fuel (i + 1) (line b)
        | v =>
          if v.isNumber then findLoader name searchers fuel (i + 1) (line (Number.toBytes v))
          else findLoader name searchers fuel (i + 1) msg

/-- Mirrors `ll_require`: the name ends at a NUL, but the loader gets all of it. -/
def require (args : Args) : HostM (Array Value) := do
  let whole ← checkString args 1
  let name := whole.untilNul
  let loaded ← view (.table ·.loaded)
  let key : Value := .str name
  let old ← index loaded key
  if old.truthy then pure #[old]
  else
    let package ← view (·.package)
    match ← index (.table package) (.text "searchers") with
    | .table searchers =>
      let (loader, extra) ← findLoader name searchers 10000 1 .empty
      let r ← call1 loader #[.str whole, extra]
      if !r.isNil then setIndex loaded key r
      match ← index loaded key with
      | .nil =>
        setIndex loaded key (.bool true)
        pure #[.bool true, extra]
      | v => pure #[v, extra]
    | _ => error "'package.searchers' must be a table"

def searchpath (args : Args) : HostM (Array Value) := do
  let name ← checkString args 1
  let path ← checkString args 2
  let sep ← optString args 3 dot
  let dirsep ← optString args 4 slash
  match ← search path name sep dirsep with
  | .ok f => pure #[.str f]
  | .error msg => pure #[.nil, .str msg]

/-- Applies a function on modules. -/
def run (f : PackageFn) (args : Args) : HostM (Array Value) :=
  match f with
  | .loadlib => do
    let path ← checkCString args 1
    let _ ← checkString args 2
    pure #[.nil, .str (path ++ Bytes.ofText ": cannot open shared object file: No such file or directory"),
      .text "open"]
  | .require => require args
  | .searchpath => searchpath args
  | .searchPreload => searchPreload args
  | .searchScript => searchScript args
  | .searchLibrary => searchLibrary args
  | .searchRoot => searchRoot args

/-! ## Loading from a script -/

/-- Collects the pieces that a reader function gives; its errors end the reading. -/
def readPieces (f : Value) : Nat → Bytes → HostM (Except Value Bytes)
  | 0, out => pure (.ok out)
  | fuel + 1, out => do
    match ← ask (.protect f #[] .inherited 0) with
    | .failed e => pure (.error e)
    | r =>
      match (valuesOf r).getD 0 .nil with
      | .nil => pure (.ok out)
      | .str b => if b.isEmpty then pure (.ok out) else readPieces f fuel (out ++ b)
      | v =>
        if v.isNumber then readPieces f fuel (out ++ Number.toBytes v)
        else do
          let place := match ← request1 (.position 1) with
            | .str b => b
            | _ => .empty
          pure (.error (.str (place ++ Bytes.ofText "reader function must return a string")))

/-- The result of loading: a function, or nil and a message. -/
def loadResult : Except Bytes Value → HostM (Array Value)
  | .ok f => pure #[f]
  | .error msg => pure #[.nil, .str msg]

def load (args : Args) : HostM (Array Value) := do
  let mode ← optString args 3 (Bytes.ofText "bt")
  let env ← if isNone args 4 then globals else pure (arg args 4)
  let chunk := match arg args 1 with
    | .str s => some s
    | v => if v.isNumber then some (Number.toBytes v) else none
  match chunk with
  | some s =>
    let name ← optString args 2 s
    loadResult (← loadChunk s name mode env)
  | none =>
    let name ← optString args 2 (Bytes.ofText "=(load)")
    let f ← checkFunction args 1
    match ← readPieces f plenty .empty with
    | .error e => pure #[.nil, e]
    | .ok s => loadResult (← loadChunk s name mode env)

def loadfile (args : Args) : HostM (Array Value) := do
  let path ← if isNoneOrNil args 1 then pure none else do pure (some (← checkCString args 1))
  let mode ← optString args 2 (Bytes.ofText "bt")
  let env ← if isNone args 3 then globals else pure (arg args 3)
  loadResult (← loadFile path mode env)

def dofile (args : Args) : HostM (Array Value) := do
  let path ← if isNoneOrNil args 1 then pure none else do pure (some (← checkCString args 1))
  match ← loadFile path (Bytes.ofText "bt") (← globals) with
  | .error msg => fail (.value (.str msg))
  | .ok f => request (.call f #[] true)

end ScriptHost.Script.Modules
