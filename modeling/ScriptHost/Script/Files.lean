import ScriptHost.Path
import ScriptHost.Script.Bytes
import ScriptHost.SystemError

/-!
# The files a script sees

A tree of directories around the current one, with plain files and *gates*:
named pipes whose opening blocks until the other side opens them, and whose
reading blocks until the other side closes them. A route leads from the current
directory to a file; one that begins at the root has the root's name `/` first,
and one that leads above the current directory begins with `..`.
-/
namespace ScriptHost.Script

/-- What a path can lead to. -/
inductive Entry where
  | file (content : Bytes)
  | directory
  | gate
  deriving Inhabited

/-- A path as the names from the current directory on. -/
abbrev Route := List String

/-- The state of a gate. -/
inductive GateState where
  /-- Nobody has opened the other side. -/
  | shut
  /-- The other side is open and gives nothing. -/
  | held
  /-- The other side was closed. -/
  | released
  deriving DecidableEq, Repr, Inhabited

/-- A tree of files. -/
structure Files where
  /-- The absolute path of the current directory, and its route from the root. -/
  home : String := "/home"
  homeRoute : Route := ["/", "home"]
  entries : List (Route × Entry) := [(["/", "tmp"], .directory)]
  gates : List (String × GateState) := []
  /-- The routes that scripts have written to or taken away. -/
  changed : List Route := []
  deriving Inhabited

namespace Files

/-! ## Routes -/

/-- One component further on a route. -/
def follow (r : Route) : Path.Component → Route
  | .root => ["/"]
  | .here => r
  | .up =>
    if r = ["/"] then r
    else if r.all (· = "..") then r ++ [".."]
    else r.dropLast
  | .name n => r ++ [String.ofList n]

/-- The route of a path, wherever it begins. -/
def rawRoute (path : String) : Route := (Path.components path.toList).foldl follow []

/-- No files yet, with the current directory at an absolute path. -/
def inside (home : String) : Files := { home, homeRoute := rawRoute home }

/-- Reads a path. One below the absolute path of the current directory is a path from there. -/
def route? (fs : Files) (path : String) : Option Route :=
  if path.isEmpty then none
  else
    let r := rawRoute path
    some (if fs.homeRoute.isPrefixOf r then r.drop fs.homeRoute.length else r)

/-- The absolute path of a file. -/
def absolute (fs : Files) (path : String) : String :=
  match fs.route? path with
  | none => path
  | some [] => fs.home
  | some ("/" :: names) => "/" ++ "/".intercalate names
  | some names => fs.home ++ "/" ++ "/".intercalate names

/-! ## Looking -/

/-- The directories that are there without an entry. -/
def isAnchor (r : Route) : Bool := r = ["/"] || r.all (· = "..")

def entry? (fs : Files) (r : Route) : Option Entry :=
  if isAnchor r then some .directory
  else (fs.entries.find? (·.1 = r)).map (·.2)

/-- What a path leads to, or why it leads nowhere. -/
def find (fs : Files) (path : String) : Except SystemError (Route × Entry) :=
  match fs.route? path with
  | none => .error .notFound
  | some r =>
    let parents := (List.range r.length).map r.take
    if parents.any (fun p => match fs.entry? p with | some .directory | none => false | _ => true) then
      .error (.code 20)
    else match fs.entry? r with
      | some (.file b) =>
        if path.endsWith "/" then .error (.code 20) else .ok (r, .file b)
      | some e => .ok (r, e)
      | none => .error .notFound

/-- The content of a plain file. -/
def read (fs : Files) (path : String) : Except SystemError Bytes :=
  match fs.find path with
  | .error e => .error e
  | .ok (_, .file b) => .ok b
  | .ok (_, _) => .error (.code 21)

/-- There is something at a path. -/
def hasEntry (fs : Files) (path : String) : Bool :=
  match fs.find path with
  | .ok _ => true
  | .error _ => false

/-! ## Changing from outside -/

def put (fs : Files) (r : Route) (e : Entry) : Files :=
  if (fs.entries.any (·.1 = r)) then
    { fs with entries := fs.entries.map fun x => if x.1 = r then (r, e) else x }
  else { fs with entries := fs.entries ++ [(r, e)] }

/-- Takes the entry of a route away. -/
def drop (fs : Files) (r : Route) : Files :=
  { fs with entries := fs.entries.filter (·.1 != r) }

/-- Makes the directories above a route. -/
def makeParents (fs : Files) (r : Route) : Files :=
  (List.range r.length).foldl (fun fs n =>
    match fs.entry? (r.take n) with
    | some _ => fs
    | none => fs.put (r.take n) .directory) fs

/-- Adds a file, or a directory when the path ends in `/`. -/
def add (fs : Files) (path : String) (content : Bytes) : Files :=
  match fs.route? path with
  | none => fs
  | some r =>
    (fs.makeParents r).put r (if path.endsWith "/" then .directory else .file content)

/-- Takes whatever is at a path away. -/
def forget (fs : Files) (path : String) : Files :=
  match fs.route? path with
  | none => fs
  | some r => fs.drop r

def addGate (fs : Files) (name : String) : Files :=
  match fs.route? name with
  | none => fs
  | some r => { (fs.makeParents r).put r .gate with gates := fs.gates ++ [(name, .shut)] }

/-- The gate a route leads to. -/
def gateState (fs : Files) (name : String) : GateState :=
  ((fs.gates.find? fun g => fs.route? g.1 = fs.route? name).map (·.2)).getD .shut

def setGate (fs : Files) (name : String) (s : GateState) : Files :=
  { fs with gates := fs.gates.map fun g => if fs.route? g.1 = fs.route? name then (g.1, s) else g }

/-! ## Changing by a script -/

/-- Notes that a script has changed what is at a route. -/
def mark (fs : Files) (r : Route) : Files :=
  if fs.changed.contains r then fs else { fs with changed := r :: fs.changed }

/-- Writes a file. -/
def write (fs : Files) (r : Route) (content : Bytes) : Files := (fs.put r (.file content)).mark r

/-- Takes a file or an empty directory away. -/
def remove (fs : Files) (path : String) : Except SystemError Files :=
  match fs.find path with
  | .error e => .error e
  | .ok (r, e) =>
    match e with
    | .directory =>
      if isAnchor r then .error (.code 16)
      else if fs.entries.any (fun x => r.isPrefixOf x.1 && x.1 != r) then .error (.code 39)
      else .ok ((fs.drop r).mark r)
    | _ => .ok ((fs.drop r).mark r)

/-- Where a file of a given path can be written. -/
def target (fs : Files) (path : String) : Except SystemError Route :=
  match fs.route? path with
  | none => .error .notFound
  | some r =>
    match fs.entry? r.dropLast with
    | some .directory =>
      match fs.entry? r with
      | some .directory => .error (.code 21)
      | _ => if path.endsWith "/" then .error (.code 21) else .ok r
    | some _ => .error (.code 20)
    | none => .error .notFound

/-- Moves a file. -/
def rename (fs : Files) (old new : String) : Except SystemError Files := do
  let (r, e) ← fs.find old
  let t ← fs.target new
  pure ((((fs.drop r).put t e).mark r).mark t)

end Files
end ScriptHost.Script
