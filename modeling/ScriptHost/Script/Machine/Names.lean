import ScriptHost.Script.Machine.State

/-!
# Names in messages

What a value or a function is called in a message is read off the code: which
instruction loaded the register, and what it loaded it from. A function that a
loaded module holds is shown by the name it has there.
-/
namespace ScriptHost.Script

/-- A kind of variable and a name. -/
abbrev Label := String × Bytes

namespace Proto

/-- The instruction at an index. -/
def instr (p : Proto) (pc : Nat) : Instr := p.code[pc]?.getD default

/-- Finds the instruction that set a register last before `last`; `target` is the end of the
code that was jumped over. -/
def setterFrom (p : Proto) (last reg : Nat) :
    List Nat → Nat → Option Nat → Option Nat
  | [], _, found => found
  | pc :: rest, target, found =>
    let i := p.instr pc
    let (changes, target) : Bool × Nat := match i.op with
      | .loadnil => (i.a ≤ reg && reg ≤ i.a + i.b, target)
      | .tforcall => (i.a + 2 ≤ reg, target)
      | .call | .tailcall => (i.a ≤ reg, target)
      | .jmp =>
        let dest := (pc + 1 + i.j).toNat
        (false, if dest ≤ last ∧ dest > target then dest else target)
      | op => (op.setsA && i.a = reg, target)
    setterFrom p last reg rest target (if changes then (if pc < target then none else some pc) else found)

/-- The instruction that gave a register its value at an instruction, if that is certain. -/
def setter? (p : Proto) (pc reg : Nat) : Option Nat :=
  let last := if (p.instr pc).op.isMetamethod then pc - 1 else pc
  setterFrom p last reg (List.range last) 0 none

def capturedName (p : Proto) (i : Nat) : Bytes :=
  match p.captures[i]? with
  | some c => if c.name.isEmpty then Bytes.ofText "?" else c.name
  | none => Bytes.ofText "?"

/-- A constant text. -/
def constantName? (p : Proto) (i : Nat) : Option Bytes :=
  match p.constants[i]? with
  | some (.str s) => some s
  | _ => none

/-- The name of a register that holds a variable or a constant, and the instruction that set it. -/
def simpleName (p : Proto) : Nat → Nat → Nat → Option Label × Option Nat
  | 0, _, _ => (none, none)
  | fuel + 1, pc, reg =>
    match p.localName? (reg + 1) pc with
    | some n => (some ("local", n), some pc)
    | none =>
      match p.setter? pc reg with
      | none => (none, none)
      | some at_ =>
        let i := p.instr at_
        let constant (k : Nat) : Option Label := (p.constantName? k).map (("constant", ·))
        match i.op with
        | .move => if i.b < i.a then simpleName p fuel at_ i.b else (none, some at_)
        | .getupval => (some ("upvalue", p.capturedName i.b), some at_)
        | .loadk => (constant i.j.toNat, some at_)
        | .loadkx => (constant (p.instr (at_ + 1)).j.toNat, some at_)
        | _ => (none, some at_)

def question : Bytes := Bytes.ofText "?"

/-- The name of a key that is in a register: only a constant has one. -/
def keyName (p : Proto) (pc reg : Nat) : Bytes :=
  match (p.simpleName p.code.size pc reg).1 with
  | some ("constant", n) => n
  | _ => question

/-- A field of the environment is a global variable. -/
def fieldKind (p : Proto) (pc : Nat) (i : Instr) (inCapture : Bool) : String :=
  let table : Option Bytes :=
    if inCapture then some (p.capturedName i.b)
    else match (p.simpleName p.code.size pc i.b).1 with
      | some (kind, n) => if kind = "local" ∨ kind = "upvalue" then some n else none
      | none => none
  if table.map (· == Bytes.ofText "_ENV") = some true then "global" else "field"

/-- The name of what a register holds at an instruction. -/
def nameOf (p : Proto) (pc reg : Nat) : Option Label :=
  match p.simpleName p.code.size pc reg with
  | (some l, _) => some l
  | (none, none) => none
  | (none, some at_) =>
    let i := p.instr at_
    match i.op with
    | .gettabup => some (p.fieldKind at_ i true, (p.constantName? i.c).getD question)
    | .gettable => some (p.fieldKind at_ i false, p.keyName at_ i.c)
    | .geti => some ("field", Bytes.ofText "integer index")
    | .getfield => some (p.fieldKind at_ i false, (p.constantName? i.c).getD question)
    | .self =>
      some ("method", if i.k then (p.constantName? i.c).getD question else p.keyName at_ i.c)
    | _ => none

/-- The name of the function that an instruction calls. -/
def calledName (p : Proto) (pc : Nat) : Option Label :=
  let i := p.instr pc
  let event (e : MetaEvent) : Option Label := some ("metamethod", Bytes.ofText e.name)
  match i.op with
  | .call | .tailcall => p.nameOf pc i.a
  | .tforcall => some ("for iterator", Bytes.ofText "for iterator")
  | .self | .gettabup | .gettable | .geti | .getfield => event .index
  | .settabup | .settable | .seti | .setfield => event .newindex
  | .mmbin | .mmbini | .mmbink => event i.event
  | .unm => event .unm
  | .bnot => event .bnot
  | .len => event .len
  | .concat => event .concat
  | .eq => event .eq
  | .lt | .lti | .gti => event .lt
  | .le | .lei | .gei => event .le
  | .close | .ret => event .close
  | _ => none

end Proto

namespace Machine

/-! ## Frames -/

/-- The stack and the frames of a coroutine, innermost first; the bottom counts as no function. -/
def framesOf (m : Machine) (thread : Option Nat) : Array Value × List Frame :=
  let own := (m.stack, m.frame :: m.callers)
  match thread with
  | none => own
  | some t =>
    if t = m.id then own
    else
      let th := m.threads[t]?.getD {}
      (th.stack, th.frame :: th.callers)

/-- Number of active functions. -/
def levels (frames : List Frame) : Nat := frames.length - 1

/-- The frame of a level. -/
def frameAt? (frames : List Frame) (level : Nat) : Option Frame :=
  if level < levels frames then frames[level]? else none

/-- How a function was called, read off its caller. -/
def callName (frames : List Frame) (level : Nat) : Option Label :=
  match frames[level]?, frames[level + 1]? with
  | some f, some caller =>
    if f.isTail then none
    else
      match f.role with
      | .hook .. => some ("hook", Bytes.ofText "?")
      | _ =>
        match caller.kind with
        | .script => caller.proto.calledName (caller.pc - 1)
        | _ => none
  | _, _ => none

/-- The place of an active function of the script, as it stands before messages. -/
def position (m : Machine) (level : Nat) : Bytes :=
  match frameAt? (m.frame :: m.callers) level with
  | some f =>
    let l := currentLine f
    if l > 0 then Scanner.located f.proto.chunk l.toNat .empty else .empty
  | none => .empty

/-! ## Names of functions -/

/-- The name under which a loaded module holds a function. -/
def moduleName? (h : Heap) (f : Value) : Option Bytes :=
  let dotted (a b : Bytes) : Bytes := Bytes.cat [a, Bytes.ofText ".", b]
  (h.table h.loaded).pairs.findSome? fun (k, v) =>
    match k with
    | .str name =>
      if v.rawEq f then some name
      else match v with
        | .table t => (h.table t).pairs.findSome? fun (k, w) =>
          match k with
          | .str field => if w.rawEq f then some (dotted name field) else none
          | _ => none
        | _ => none
    | _ => none

/-- The same, where a global function stands without its table. -/
def globalName? (h : Heap) (f : Value) : Option Bytes :=
  let own := Bytes.ofText "_G."
  (moduleName? h f).map fun n => if n.isAt own 0 then n.extract own.size n.size else n

/-- A function of the script as its source and line. -/
def sourceLine (p : Proto) : Bytes :=
  Bytes.cat [Bytes.ofText "function <", p.chunk, Bytes.ofText ":", Bytes.ofText (toString p.firstLine),
    Bytes.ofText ">"]

/-- What a traceback calls an active function. -/
def describe (h : Heap) (stack : Array Value) (frames : List Frame) (level : Nat) (f : Frame) : Bytes :=
  let quote (kind : String) (n : Bytes) : Bytes :=
    Bytes.cat [Bytes.ofText (kind ++ " '"), n, Bytes.ofText "'"]
  match globalName? h (stack[f.func]?.getD .nil) with
  | some n => quote "function" n
  | none =>
    match callName frames level with
    | some (kind, n) => quote kind n
    | none =>
      match f.kind with
      | .script => if f.proto.isMain then Bytes.ofText "main chunk" else sourceLine f.proto
      | _ => Bytes.ofText "?"

/-- One line of a traceback. -/
def traceLine (h : Heap) (stack : Array Value) (frames : List Frame) (level : Nat) (f : Frame) : Bytes :=
  let line := currentLine f
  let place := match f.kind with
    | .script => f.proto.chunk
    | _ => Bytes.ofText "[C]"
  Bytes.cat [Bytes.ofText "\n\t", place,
    Bytes.ofText (if line ≤ 0 then ": in " else ":" ++ toString line ++ ": in "),
    describe h stack frames level f,
    Bytes.ofText (if f.isTail then "\n\t(...tail calls...)" else "")]

/-- How many levels at the start and at the end of a long traceback are shown. -/
def shownFirst : Nat := 10
def shownLast : Nat := 11

/-- The lines of a traceback from a level on; in a long one the middle is left out. -/
def traceback (h : Heap) (stack : Array Value) (frames : List Frame) (message : Option Bytes)
    (level : Nat) : Bytes :=
  let count := levels frames
  let header := Bytes.cat [match message with
    | some msg => msg ++ Bytes.ofText "\n"
    | none => .empty, Bytes.ofText "stack traceback:"]
  let line (n : Nat) : Bytes := match frames[n]? with
    | some f => traceLine h stack frames n f
    | none => .empty
  let range (a b : Nat) : List Bytes := (List.range (b - a)).map fun i => line (a + i)
  if count > level + 1 + shownFirst + shownLast then
    -- the level that the count stands for is not counted
    let skipped := count - level - shownFirst - shownLast - 1
    Bytes.cat (header :: range level (level + shownFirst) ++
      [Bytes.ofText s!"\n\t...\t(skipping {skipped} levels)"] ++ range (count - shownLast) count)
  else Bytes.cat (header :: range level count)

/-! ## What is known about functions -/

/-- What is known about a function value. -/
def functionInfo (h : Heap) (v : Value) : Info :=
  match v with
  | .closure c =>
    let p := (h.closures[c]?.getD default).proto
    let lines := if p.lines.isEmpty then none
      else some (if p.isVararg then p.lines.toList.drop 1 else p.lines.toList)
    { func := v, source := p.sourceName, shortSource := p.chunk
      what := if p.isMain then "main" else "Lua", firstLine := p.firstLine
      lastLine := if p.isMain then -1 else p.lastLine
      captures := p.captures.size, params := p.params, isVararg := p.isVararg, activeLines := lines }
  | _ =>
    { func := v, source := Bytes.ofText "=[C]", shortSource := Bytes.ofText "[C]" }

/-- What is known about an active function. -/
def frameInfo (h : Heap) (stack : Array Value) (frames : List Frame) (level : Nat) : Option Info :=
  (frameAt? frames level).map fun f =>
    let info := functionInfo h (stack[f.func]?.getD .nil)
    let (kind, name) := (callName frames level).getD ("", .empty)
    { info with nameKind := kind, name, currentLine := currentLine f, isTail := f.isTail }

def info (m : Machine) (thread : Option Nat) : Subject → Option Info
  | .value v => some (functionInfo m.heap v)
  | .level n =>
    let (stack, frames) := m.framesOf thread
    frameInfo m.heap stack frames n

/-- The name and the slot of variable `n` of an active function: a local one, an extra argument by
its negative number, or any other register in use. -/
def localVariable? (m : Machine) (thread : Option Nat) (level : Nat) (n : Int) : Option (Option (Bytes × Nat)) :=
  let (_, frames) := m.framesOf thread
  (frameAt? frames level).map fun f =>
    let isScript := f.kind = .script
    if n < 0 then
      if isScript && f.proto.isVararg && decide (-n ≤ f.extra) then
        some (Bytes.ofText "(vararg)", (f.func - f.extra - (n + 1)).toNat)
      else none
    else
      let known := if isScript then f.proto.localName? n.toNat (f.pc - 1) else none
      let slot := f.func + n.toNat
      match known with
      | some name => some (name, slot)
      | none =>
        let limit := match level with
          | 0 => f.top
          | k + 1 => ((frames[k]?).map (·.dest)).getD f.top
        if 0 < n ∧ slot < limit then
          some (Bytes.ofText (if isScript then "(temporary)" else "(C temporary)"), slot)
        else none

end Machine
end ScriptHost.Script
