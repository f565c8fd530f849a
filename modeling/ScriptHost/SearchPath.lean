import ScriptHost.Path
import ScriptHost.Text.Utf8

/-!
# Where modules are searched

Three sources of directories, in the order of their weight: those named on the
command line, the script's own, and those of the environment. As a search
path, each directory is the template `<dir>/?.lua;`.
-/
namespace ScriptHost.SearchPath

/-- Name of the environment variable with further directories. -/
def variableName : String := "LUNAR_PATH"

/-- A directory without the separators at its end. -/
def trimmed (dir : String) : String :=
  String.ofList (dir.toList.reverse.dropWhile (· = '/')).reverse

/-- The template that finds a module in `dir`. -/
def template (dir : String) : String := trimmed dir ++ "/?.lua;"

/-- The templates of all directories: what comes earlier wins. Mirrors
`payload.render_path_prefix`. -/
def templates (dirs : List String) : String := String.join (dirs.map template)

/-- The pieces of a byte string between the bytes `sep`, at least one. -/
def splitBytes (sep : UInt8) : List UInt8 → List (List UInt8)
  | [] => [[]]
  | b :: r =>
    if b = sep then [] :: splitBytes sep r
    else match splitBytes sep r with
      | p :: ps => (b :: p) :: ps
      | [] => [[b]]

/-- The entries of a path list: split at `:`, empty ones dropped, decoded lossily. Mirrors
`config.split_search_path`. -/
def ofList (value : List UInt8) : List String :=
  ((splitBytes 0x3A value).filter (!·.isEmpty)).map Utf8.lossy

/-- The directories of the environment variable; none when it is unset. Mirrors
`config.search_dirs_from_env`. -/
def ofEnvironment (value : Option (List UInt8)) : List String :=
  (value.map ofList).getD []

/-- The directory a script lies in, `.` when its path names none. Mirrors `run.script_dir`. -/
def scriptDirectory (script : String) : String :=
  match Path.parent? script.toList with
  | some (c :: r) => String.ofList (c :: r)
  | _ => "."

/-- The directories for a script, in search order. Mirrors `run.search_dirs`. -/
def directories (script : String) (included : List String) (env : Option (List UInt8)) :
    List String :=
  included ++ [scriptDirectory script] ++ ofEnvironment env

end ScriptHost.SearchPath
