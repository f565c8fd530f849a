/-!
# The functions a script is given

One name for every function of the standard library that is not written in
the script's own language. What they do is said in the modules of the library.
-/
namespace ScriptHost.Script

/-- Global functions. -/
inductive BasicFn where
  | assert | collectgarbage | dofile | error | getmetatable | ipairs | ipairsStep | load | loadfile
  | next | pairs | pcall | print | rawequal | rawget | rawlen | rawset | select | setmetatable
  | tonumber | tostring | type | warn | xpcall
  deriving DecidableEq, Repr

/-- Functions on strings. -/
inductive StringFn where
  | byte | char | dump | find | format | gmatch | gmatchStep | gsub | len | lower | match | pack
  | packsize | rep | reverse | sub | unpack | upper
  | add | subtract | mul | mod | pow | div | idiv | unm
  deriving DecidableEq, Repr

/-- Functions on tables. -/
inductive TableFn where
  | concat | insert | move | pack | remove | sort | unpack
  deriving DecidableEq, Repr

/-- Functions on numbers. -/
inductive MathFn where
  | abs | acos | asin | atan | ceil | cos | cosh | deg | exp | floor | fmod | frexp | ldexp | log
  | log10 | max | min | modf | pow | rad | random | randomseed | sin | sinh | sqrt | tan | tanh
  | tointeger | type | ult
  deriving DecidableEq, Repr

/-- Functions on UTF-8 text. -/
inductive Utf8Fn where
  | char | codepoint | codes | codesStep | codesStepLax | len | offset
  deriving DecidableEq, Repr

/-- Functions on coroutines. -/
inductive CoroutineFn where
  | close | create | isyieldable | resume | running | status | wrap | wrapStep | yield
  deriving DecidableEq, Repr

/-- Functions that look into the machine. -/
inductive DebugFn where
  | gethook | getinfo | getlocal | getmetatable | getregistry | getupvalue | getuservalue
  | sethook | setlocal | setmetatable | setupvalue | setuservalue | setcstacklimit | traceback
  | upvalueid | upvaluejoin | debug
  deriving DecidableEq, Repr

/-- Functions on files. -/
inductive IoFn where
  | close | flush | input | lines | linesStep | open | output | popen | read | tmpfile | type | write
  deriving DecidableEq, Repr

/-- Methods of a file. -/
inductive FileFn where
  | close | flush | lines | read | seek | setvbuf | write | tostring | gc
  deriving DecidableEq, Repr

/-- Functions of the system. -/
inductive OsFn where
  | clock | date | difftime | execute | exit | getenv | remove | rename | setlocale | time | tmpname
  deriving DecidableEq, Repr

/-- Functions on modules. -/
inductive PackageFn where
  | loadlib | require | searchpath | searchPreload | searchScript | searchLibrary | searchRoot
  deriving DecidableEq, Repr

/-- Functions that lead to the host: the output channel, and the two a hook test calls. -/
inductive HostFn where
  | stdoutWrite | stdoutFlush | stdoutSetvbuf | stdoutClose | stdoutText | write | failureText
  | withTraceback | poll | cancel
  deriving DecidableEq, Repr

/-- A function that is not written in the script's language. -/
inductive Native where
  | basic (f : BasicFn)
  | string (f : StringFn)
  | table (f : TableFn)
  | math (f : MathFn)
  | utf8 (f : Utf8Fn)
  | coroutine (f : CoroutineFn)
  | debug (f : DebugFn)
  | io (f : IoFn)
  | file (f : FileFn)
  | os (f : OsFn)
  | package (f : PackageFn)
  | host (f : HostFn)
  deriving DecidableEq, Repr

end ScriptHost.Script
