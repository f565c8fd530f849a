import ScriptHost.Script.Value

/-!
# Code of the script machine

A function is compiled to instructions on registers. `a`, `b` and `c` are
registers, counts or indices of constants; `j` is a signed immediate or a jump
distance from the next instruction; `k` is a flag. An operation that a
metamethod may take over is followed by an instruction that calls it.
-/
namespace ScriptHost.Script

/-- An operation code. -/
inductive Opcode where
  | move | loadi | loadf | loadk | loadkx | loadfalse | lfalseskip | loadtrue | loadnil
  | getupval | setupval | gettabup | gettable | geti | getfield
  | settabup | settable | seti | setfield | newtable | self
  | addi | addk | subk | mulk | modk | powk | divk | idivk | bandk | bork | bxork | shri | shli
  | add | sub | mul | mod | pow | div | idiv | band | bor | bxor | shl | shr
  | mmbin | mmbini | mmbink | unm | bnot | not | len | concat | close | tbc | jmp
  | eq | lt | le | eqk | eqi | lti | lei | gti | gei | test | testset
  | call | tailcall | ret | return0 | return1 | forloop | forprep | tforprep | tforcall | tforloop
  | setlist | closure | vararg | varargprep | extraarg
  deriving DecidableEq, Repr, Inhabited

/-- The instruction tests a condition and is followed by a jump. -/
def Opcode.isTest : Opcode → Bool
  | .eq | .lt | .le | .eqk | .eqi | .lti | .lei | .gti | .gei | .test | .testset => true
  | _ => false

/-- The instruction calls a metamethod for the one before it. -/
def Opcode.isMetamethod : Opcode → Bool
  | .mmbin | .mmbini | .mmbink => true
  | _ => false

/-- The instruction sets register `a`. -/
def Opcode.setsA : Opcode → Bool
  | .setupval | .settabup | .settable | .seti | .setfield | .mmbin | .mmbini | .mmbink | .close
  | .tbc | .jmp | .eq | .lt | .le | .eqk | .eqi | .lti | .lei | .gti | .gei | .test | .ret
  | .return0 | .return1 | .tforprep | .tforcall | .setlist | .extraarg => false
  | _ => true

/-- An event that a metamethod handles. -/
inductive MetaEvent where
  | index | newindex | gc | mode | len | eq | add | sub | mul | mod | pow | div | idiv | band
  | bor | bxor | shl | shr | unm | bnot | lt | le | concat | call | close
  deriving DecidableEq, Repr, Inhabited

/-- The event's name; the field in a metatable has two underscores before it. -/
def MetaEvent.name : MetaEvent → String
  | .index => "index" | .newindex => "newindex" | .gc => "gc" | .mode => "mode" | .len => "len"
  | .eq => "eq" | .add => "add" | .sub => "sub" | .mul => "mul" | .mod => "mod" | .pow => "pow"
  | .div => "div" | .idiv => "idiv" | .band => "band" | .bor => "bor" | .bxor => "bxor"
  | .shl => "shl" | .shr => "shr" | .unm => "unm" | .bnot => "bnot" | .lt => "lt" | .le => "le"
  | .concat => "concat" | .call => "call" | .close => "close"

/-- One instruction. -/
structure Instr where
  op : Opcode
  a : Nat := 0
  b : Nat := 0
  c : Nat := 0
  k : Bool := false
  j : Int := 0
  /-- The event of an instruction that calls a metamethod. -/
  event : MetaEvent := .index
  deriving DecidableEq, Repr, Inhabited

/-- What kind of variable a name stands for. -/
inductive VarKind where
  | regular | constant | toClose | compileTime
  deriving DecidableEq, Repr, Inhabited

/-- Where a function's captured variable comes from when the function is made: a register of
the enclosing function, or one of its own captured variables. -/
structure Capture where
  name : Bytes
  inStack : Bool
  index : Nat
  kind : VarKind
  deriving Inhabited

/-- A local variable and the instructions in which it is alive. -/
structure LocalVar where
  name : Bytes
  start : Nat
  stop : Nat := 0
  deriving Inhabited

/-- A compiled function. -/
inductive Proto where
  | mk (code : Array Instr) (lines : Array Nat) (constants : Array Value) (protos : Array Proto)
      (captures : Array Capture) (locals : Array LocalVar) (params : Nat) (isVararg : Bool)
      (stackSize : Nat) (firstLine lastLine : Nat) (chunk : Bytes) (sourceName : Bytes)

namespace Proto

instance : Inhabited Proto := ⟨.mk #[] #[] #[] #[] #[] #[] 0 false 2 0 0 .empty .empty⟩

def code : Proto → Array Instr | .mk c .. => c
/-- The line of every instruction; empty when there is no such information. -/
def lines : Proto → Array Nat | .mk _ l .. => l
def constants : Proto → Array Value | .mk _ _ k .. => k
def protos : Proto → Array Proto | .mk _ _ _ p .. => p
def captures : Proto → Array Capture | .mk _ _ _ _ c .. => c
def locals : Proto → Array LocalVar | .mk _ _ _ _ _ l .. => l
def params : Proto → Nat | .mk _ _ _ _ _ _ n .. => n
def isVararg : Proto → Bool | .mk _ _ _ _ _ _ _ v .. => v
/-- Number of registers. -/
def stackSize : Proto → Nat | .mk _ _ _ _ _ _ _ _ n .. => n
def firstLine : Proto → Nat | .mk _ _ _ _ _ _ _ _ _ n .. => n
def lastLine : Proto → Nat | .mk _ _ _ _ _ _ _ _ _ _ n .. => n
/-- The chunk's name as messages show it. -/
def chunk : Proto → Bytes | .mk _ _ _ _ _ _ _ _ _ _ _ c _ => c
/-- The chunk's name as it was given. -/
def sourceName : Proto → Bytes | .mk _ _ _ _ _ _ _ _ _ _ _ _ c => c

/-- The main function of a chunk. -/
def isMain (p : Proto) : Bool := p.firstLine = 0

/-- The name of the `n`-th local variable (from 1) that is alive at an instruction. -/
def localName? (p : Proto) (n pc : Nat) : Option Bytes :=
  if n = 0 then none
  else (((p.locals.toList.takeWhile (·.start ≤ pc)).filter (pc < ·.stop))[n - 1]?).map (·.name)

end Proto
end ScriptHost.Script
