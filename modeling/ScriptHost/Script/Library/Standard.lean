import ScriptHost.Script.Library.Basic
import ScriptHost.Script.Library.Codepoints
import ScriptHost.Script.Library.Coroutines
import ScriptHost.Script.Library.Inspection
import ScriptHost.Script.Library.Maths
import ScriptHost.Script.Library.System

/-!
# The library as a whole

What every function of the library does, and the heap a script begins with: the
global table, the libraries in it, and the redirection of its output.
-/
namespace ScriptHost.Script

open HostM in
/-- What a function of the library does. `self` and `state` belong to a function with values of its
own. -/
def Native.run (f : Native) (self : Nat) (state : Array Value) (args : Args) : HostM (Array Value) :=
  match f with
  | .basic f => Basic.run f args
  | .string f => Strings.run f self state args
  | .table f => Tables.run f args
  | .math f => Maths.run f args
  | .utf8 f => Codepoints.run f args
  | .coroutine f => Coroutines.run f state args
  | .debug f => Inspection.run f args
  | .io f => Streams.run f state args
  | .file f => Streams.runMethod f args
  | .os f => System.run f args
  | .package f => Modules.run f args
  | .host f => Output.run f state args

namespace Library

/-! ## Names -/

def basicNames : List (String × BasicFn) :=
  [("assert", .assert), ("collectgarbage", .collectgarbage), ("dofile", .dofile), ("error", .error),
    ("getmetatable", .getmetatable), ("ipairs", .ipairs), ("load", .load), ("loadfile", .loadfile),
    ("next", .next), ("pairs", .pairs), ("pcall", .pcall), ("print", .print), ("rawequal", .rawequal),
    ("rawget", .rawget), ("rawlen", .rawlen), ("rawset", .rawset), ("select", .select),
    ("setmetatable", .setmetatable), ("tonumber", .tonumber), ("tostring", .tostring),
    ("type", .type), ("warn", .warn), ("xpcall", .xpcall)]

def stringNames : List (String × StringFn) :=
  [("byte", .byte), ("char", .char), ("dump", .dump), ("find", .find), ("format", .format),
    ("gmatch", .gmatch), ("gsub", .gsub), ("len", .len), ("lower", .lower), ("match", .match),
    ("pack", .pack), ("packsize", .packsize), ("rep", .rep), ("reverse", .reverse), ("sub", .sub),
    ("unpack", .unpack), ("upper", .upper)]

def stringEvents : List (String × StringFn) :=
  [("__add", .add), ("__sub", .subtract), ("__mul", .mul), ("__mod", .mod), ("__pow", .pow),
    ("__div", .div), ("__idiv", .idiv), ("__unm", .unm)]

def tableNames : List (String × TableFn) :=
  [("concat", .concat), ("insert", .insert), ("move", .move), ("pack", .pack), ("remove", .remove),
    ("sort", .sort), ("unpack", .unpack)]

def mathNames : List (String × MathFn) :=
  [("abs", .abs), ("acos", .acos), ("asin", .asin), ("atan", .atan), ("ceil", .ceil), ("cos", .cos),
    ("cosh", .cosh), ("deg", .deg), ("exp", .exp), ("floor", .floor), ("fmod", .fmod),
    ("frexp", .frexp), ("ldexp", .ldexp), ("log", .log), ("log10", .log10), ("max", .max),
    ("min", .min), ("modf", .modf), ("pow", .pow), ("rad", .rad), ("random", .random),
    ("randomseed", .randomseed), ("sin", .sin), ("sinh", .sinh), ("sqrt", .sqrt), ("tan", .tan),
    ("tanh", .tanh), ("tointeger", .tointeger), ("type", .type), ("ult", .ult)]

def codepointNames : List (String × Utf8Fn) :=
  [("char", .char), ("codepoint", .codepoint), ("codes", .codes), ("len", .len), ("offset", .offset)]

def coroutineNames : List (String × CoroutineFn) :=
  [("close", .close), ("create", .create), ("isyieldable", .isyieldable), ("resume", .resume),
    ("running", .running), ("status", .status), ("wrap", .wrap), ("yield", .yield)]

def debugNames : List (String × DebugFn) :=
  [("debug", .debug), ("gethook", .gethook), ("getinfo", .getinfo), ("getlocal", .getlocal),
    ("getmetatable", .getmetatable), ("getregistry", .getregistry), ("getupvalue", .getupvalue),
    ("getuservalue", .getuservalue), ("sethook", .sethook), ("setlocal", .setlocal),
    ("setmetatable", .setmetatable), ("setupvalue", .setupvalue), ("setuservalue", .setuservalue),
    ("setcstacklimit", .setcstacklimit), ("traceback", .traceback), ("upvalueid", .upvalueid),
    ("upvaluejoin", .upvaluejoin)]

def ioNames : List (String × IoFn) :=
  [("close", .close), ("flush", .flush), ("input", .input), ("lines", .lines), ("open", .open),
    ("output", .output), ("popen", .popen), ("read", .read), ("tmpfile", .tmpfile), ("type", .type)]

def fileNames : List (String × FileFn) :=
  [("close", .close), ("flush", .flush), ("lines", .lines), ("read", .read), ("seek", .seek),
    ("setvbuf", .setvbuf), ("write", .write)]

def osNames : List (String × OsFn) :=
  [("clock", .clock), ("date", .date), ("difftime", .difftime), ("execute", .execute),
    ("exit", .exit), ("getenv", .getenv), ("remove", .remove), ("rename", .rename),
    ("setlocale", .setlocale), ("time", .time), ("tmpname", .tmpname)]

def searchers : List PackageFn := [.searchPreload, .searchScript, .searchLibrary, .searchRoot]

/-- Where modules are searched when nothing else is said. -/
def defaultPath : String :=
  "/usr/local/share/lua/5.4/?.lua;/usr/local/share/lua/5.4/?/init.lua;" ++
  "/usr/local/lib/lua/5.4/?.lua;/usr/local/lib/lua/5.4/?/init.lua;./?.lua;./?/init.lua"

def defaultLibraryPath : String :=
  "/usr/local/lib/lua/5.4/?.so;/usr/local/lib/lua/5.4/loadall.so;./?.so"

/-- A search path in which the first `;;` stands for the standard one. -/
def withDefault (path standard : Bytes) : Bytes :=
  let sep := Bytes.ofText ";"
  match path.find? (Bytes.ofText ";;") 0 with
  | none => path
  | some i =>
    Bytes.cat [if i = 0 then .empty else path.extract 0 i ++ sep, standard,
      if i + 2 < path.size then sep ++ path.extract (i + 2) path.size else .empty]

/-- A search path as the environment has it: a variable with the version in its name goes before the
one without. Mirrors `setpath`. -/
def pathFrom (w : World) (name standard : String) : Bytes :=
  match (w.fromEnvironment? (name ++ "_5_4")).or (w.fromEnvironment? name) with
  | none => Bytes.ofText standard
  | some path => withDefault (Bytes.ofText path).untilNul (Bytes.ofText standard)

/-- The variables with the search paths for modules and for libraries. -/
def modulePathName : String := "LUA_PATH"
def libraryPathName : String := "LUA_CPATH"

/-- Where modules are searched before a script changes it. -/
def modulePath (w : World) : Bytes := pathFrom w modulePathName defaultPath

/-- Where libraries are searched. -/
def libraryPath (w : World) : Bytes := pathFrom w libraryPathName defaultLibraryPath

/-- The variables of the environment that a library reads while it is made. -/
def readVariables : List String :=
  [modulePathName, libraryPathName].flatMap fun name => [name ++ "_5_4", name]

/-! ## Building the heap -/

/-- A table of functions and other values. -/
def tableOf (fields : List (String × Value)) : Table :=
  fields.foldl (fun t (k, v) => t.setText k v) {}

def functions {α : Type} (wrap : α → Native) (names : List (String × α)) : List (String × Value) :=
  names.map fun (k, f) => (k, .native (wrap f))

/-- Puts a library into the global table and among the loaded modules. -/
def addLibrary (h : Heap) (name : String) (fields : List (String × Value)) : Nat × Heap :=
  let (t, h) := h.newTable (tableOf fields)
  (t, (h.rawSetText h.globals name (.table t)).rawSetText h.loaded name (.table t))

/-- A standard stream as a file. -/
def addStream (h : Heap) (s : Stream) (readable : Bool) : Value × Heap :=
  let i := h.handles.size
  let hd : Handle := ⟨s, 0, readable, !readable, false, false, true⟩
  ({ h with handles := h.handles.push hd }).newUserdata (.file i)

/-- What a script starts with. -/
structure Setup where
  world : World := {}
  /-- Templates before the standard search path. -/
  searchTemplates : String := ""
  /-- Without the library that looks into the machine. -/
  safe : Bool := false
  /-- With the two functions of a hook test. -/
  probes : Bool := false
  deriving Inhabited

/-- Input and output: the library, its files, and the redirection of standard output. -/
def addStreams (h : Heap) : Heap :=
  let (stdin, h) := addStream h .stdin true
  let (stdout, h) := addStream h .stdout false
  let (stderr, h) := addStream h .stderr false
  let (methods, h) := h.newTable (tableOf (functions Native.file fileNames))
  let (fileMeta, h) := h.newTable (tableOf [("__index", .table methods), ("__name", .text "FILE*"),
    ("__gc", .native (.file .gc)), ("__close", .native (.file .gc)),
    ("__tostring", .native (.file .tostring))])
  let h := { h with fileMeta := some fileMeta, input := stdin, output := stdout }
  let (output, h) := h.newUserdata .output
  let (methods, h) := h.newTable (tableOf (functions Native.host
    [("write", .stdoutWrite), ("flush", .stdoutFlush), ("setvbuf", .stdoutSetvbuf),
      ("close", .stdoutClose)]))
  let (outputMeta, h) := h.newTable (tableOf [("__index", .table methods),
    ("__name", .text "ScriptStdout"), ("__metatable", .bool false),
    ("__tostring", .native (.host .stdoutText))])
  let (failureMeta, h) := h.newTable (tableOf [("__metatable", .bool false),
    ("__tostring", .native (.host .failureText))])
  let h := { h with outputMeta := some outputMeta, failureMeta := some failureMeta }
  let (write, h) := h.newBound (.host .write) #[output]
  let (_, h) := addLibrary h "io" (functions Native.io ioNames ++
    [("stdin", stdin), ("stderr", stderr), ("stdout", output), ("write", write)])
  h

/-- The library of modules. -/
def addModules (h : Heap) (s : Setup) : Heap :=
  let (preload, h) := h.newTable {}
  let (list, h) := h.newTable (Table.ofList (searchers.map fun f => .native (.package f)))
  let (package, h) := addLibrary h "package"
    [("loadlib", .native (.package .loadlib)), ("searchpath", .native (.package .searchpath)),
      ("path", .str (Bytes.ofText s.searchTemplates ++ modulePath s.world)),
      ("cpath", .str (libraryPath s.world)),
      ("config", .text "/\n;\n?\n!\n-\n"), ("preload", .table preload), ("loaded", .table h.loaded),
      ("searchers", .table list)]
  let h := { h with package, preload }
  h.rawSetText h.globals "require" (.native (.package .require))

/-- The heap before the first line of a script. -/
def start (s : Setup) : Heap :=
  let h : Heap := { world := s.world }
  let (loaded, h) := h.newTable {}
  let (registry, h) := h.newTable (tableOf [("_LOADED", .table loaded)])
  let (globals, h) := h.newTable (tableOf (functions Native.basic basicNames))
  let h := { h with loaded, registry, globals }
  let h := (h.rawSetText globals "_G" (.table globals)).rawSetText globals "_VERSION" (.text "Lua 5.4")
  let h := h.rawSetText loaded "_G" (.table globals)
  let h := addModules h s
  let (_, h) := addLibrary h "coroutine" (functions Native.coroutine coroutineNames)
  let (_, h) := addLibrary h "table" (functions Native.table tableNames)
  let h := addStreams h
  let (_, h) := addLibrary h "os" (functions Native.os osNames)
  let (strings, h) := addLibrary h "string" (functions Native.string stringNames)
  let (stringMeta, h) := h.newTable (tableOf (("__index", .table strings) ::
    functions Native.string stringEvents))
  let h := { h with stringMeta := some stringMeta }
  let (_, h) := addLibrary h "math" (functions Native.math mathNames ++
    [("pi", .float Maths.pi), ("huge", .float (1.0 / 0.0)), ("maxinteger", .int Int64.maxValue),
      ("mininteger", .int Int64.minValue)])
  let (_, h) := addLibrary h "utf8" (functions Native.utf8 codepointNames ++
    [("charpattern", .str Codepoints.charPattern)])
  let h := if s.safe then h else (addLibrary h "debug" (functions Native.debug debugNames)).2
  if s.probes then
    (h.rawSetText globals "poll" (.native (.host .poll))).rawSetText globals "cancel"
      (.native (.host .cancel))
  else h

end Library
end ScriptHost.Script
