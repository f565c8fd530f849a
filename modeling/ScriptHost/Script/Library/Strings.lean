import ScriptHost.Script.Binary
import ScriptHost.Script.Library.Format
import ScriptHost.Script.Library.Pack
import ScriptHost.Script.Library.Pattern

/-!
# Functions on strings
-/
namespace ScriptHost.Script.Strings

open HostM

/-- A start index: from the end when negative, at least 1. -/
def startIndex (i : Int64) (size : Nat) : Nat :=
  if 0 < i then i.toInt.toNat
  else if i = 0 then 1
  else if i.toInt < -(size : Int) then 1
  else ((size : Int) + i.toInt + 1).toNat

/-- An end index: from the end when negative, at most the size. -/
def endIndex (i : Int64) (size : Nat) : Nat :=
  if i.toInt > size then size
  else if 0 ≤ i then i.toInt.toNat
  else if i.toInt < -(size : Int) then 0
  else ((size : Int) + i.toInt + 1).toNat

/-- A part of a string from index `i` to index `j`, both included. -/
def part (s : Bytes) (i j : Int64) : Bytes :=
  let l := startIndex i s.size
  let e := endIndex j s.size
  if l > e then .empty else s.extract (l - 1) e

def lift {α : Type} : Except String α → HostM α
  | .ok a => pure a
  | .error e => error e

/-! ## Captures -/

/-- The value of a capture. -/
def captureValue (pr : Pattern.Problem) (c : Pattern.Capture) : HostM Value :=
  match c.extent with
  | .open => error "unfinished capture"
  | .position => pure (.ofNat (c.start + 1))
  | .closed n => pure (.str (pr.subject.extract c.start (c.start + n)))

/-- The values of all captures; `whole` is the match itself, which counts when there is none. -/
def captureValues (pr : Pattern.Problem) (caps : Array Pattern.Capture) (whole : Option (Nat × Nat)) :
    HostM (Array Value) :=
  match whole with
  | some (s, e) => if caps.isEmpty then pure #[.str (pr.subject.extract s e)] else caps.mapM (captureValue pr)
  | none => caps.mapM (captureValue pr)

/-- The first capture, or the whole match. -/
def firstCapture (pr : Pattern.Problem) (caps : Array Pattern.Capture) (s e : Nat) : HostM Value :=
  match caps[0]? with
  | some c => captureValue pr c
  | none => pure (.str (pr.subject.extract s e))

/-- Searching for a pattern: `find` and `match`. -/
def search (args : Args) (find : Bool) : HostM (Array Value) := do
  let s ← checkString args 1
  let p ← checkString args 2
  let start := startIndex (← optInt args 3 1) s.size - 1
  if start > s.size then pure #[.nil]
  else if find && ((arg args 4).truthy || Pattern.isPlain p) then
    match s.find? p start with
    | some i => pure #[.ofNat (i + 1), .ofNat (i + p.size)]
    | none => pure #[.nil]
  else
    let pr : Pattern.Problem := ⟨s, p⟩
    let anchored := pr.isAnchored
    match ← lift (pr.search anchored.toNat anchored (s.size + 2 - start) start) with
    | none => pure #[.nil]
    | some (b, e, caps) =>
      if find then do
        pure (#[Value.ofNat (b + 1), .ofNat e] ++ (← captureValues pr caps none))
      else captureValues pr caps (some (b, e))

/-! ## All matches -/

/-- The next match at `s` or behind that does not end where the last one did. -/
def nextMatch (pr : Pattern.Problem) (last : Option Nat) :
    Nat → Nat → Except String (Option (Nat × Nat × Array Pattern.Capture))
  | 0, _ => pure none
  | fuel + 1, s =>
    if s > pr.subject.size then pure none
    else do
      match ← pr.run s 0 with
      | some (e, caps) =>
        if last = some e then nextMatch pr last fuel (s + 1) else pure (some (s, e, caps))
      | none => nextMatch pr last fuel (s + 1)

def gmatch (args : Args) : HostM (Array Value) := do
  let s ← checkString args 1
  let p ← checkString args 2
  let start := startIndex (← optInt args 3 1) s.size - 1
  let start := min start (s.size + 1)
  let f ← change (·.newBound (.string .gmatchStep) #[.str s, .str p, .ofNat start, .nil])
  pure #[f]

/-- One step of the iterator: its state is the subject, the pattern, the place, and the end of the
last match. -/
def gmatchStep (self : Nat) (state : Array Value) : HostM (Array Value) := do
  match arg state 1, arg state 2, arg state 3 with
  | .str s, .str p, .int start =>
    let pr : Pattern.Problem := ⟨s, p⟩
    let last := match arg state 4 with
      | .int n => some n.toInt.toNat
      | _ => none
    match ← lift (nextMatch pr last (s.size + 2) start.toInt.toNat) with
    | none => pure #[]
    | some (b, e, caps) =>
      update fun h => { h with
        bound := h.bound.modify self fun (f, _) => (f, #[.str s, .str p, .ofNat e, .ofNat e]) }
      captureValues pr caps (some (b, e))
  | _, _, _ => pure #[]

/-- A replacement text with its captures filled in. -/
def expand (pr : Pattern.Problem) (caps : Array Pattern.Capture) (s e : Nat) :
    List UInt8 → Bytes → HostM Bytes
  | [], out => pure out
  | [c], out =>
    if c = Pattern.escape then error "invalid use of '%' in replacement string" else pure (out.push c)
  | c :: d :: r, out =>
    if c != Pattern.escape then expand pr caps s e (d :: r) (out.push c)
    else if d = Pattern.escape then expand pr caps s e r (out.push d)
    else if d = 0x30 then expand pr caps s e r (out ++ pr.subject.extract s e)
    else if Bytes.isDigit d then do
      let i := (d - 49).toNat
      let v ← match caps[i]? with
        | some c => captureValue pr c
        | none =>
          if i = 0 then pure (.str (pr.subject.extract s e))
          else error s!"invalid capture index %{i + 1} in replacement string"
      let text := match v with
        | .str b => b
        | v => Number.toBytes v
      expand pr caps s e r (out ++ text)
    else error "invalid use of '%' in replacement string"

/-- What a match is replaced by; none keeps it. -/
def replacement (pr : Pattern.Problem) (by_ : Value) (caps : Array Pattern.Capture) (s e : Nat) :
    HostM (Option Bytes) := do
  let v ← match by_ with
    | .table _ => do index by_ (← firstCapture pr caps s e)
    | .str b => do pure (.str (← expand pr caps s e b.toList .empty))
    | .int _ | .float _ => do pure (.str (← expand pr caps s e (Number.toBytes by_).toList .empty))
    | f => do call1 f (← captureValues pr caps (some (s, e)))
  match v with
  | .str b => pure (some b)
  | .nil | .bool false => pure none
  | v =>
    if v.isNumber then pure (some (Number.toBytes v))
    else error s!"invalid replacement value (a {v.typeName})"

/-- Replaces matches from `s` on: the text so far, the number of matches, whether anything changed. -/
def substitute (pr : Pattern.Problem) (by_ : Value) (limit : Int) (anchored : Bool) :
    Nat → Nat → Option Nat → Nat → Bool → Bytes → HostM (Bytes × Nat × Bool × Nat)
  | 0, s, _, n, changed, out => pure (out, n, changed, s)
  | fuel + 1, s, last, n, changed, out => do
    if (n : Int) ≥ limit then pure (out, n, changed, s)
    else
      let found ← lift (pr.run s anchored.toNat)
      let found := match found with
        | some (e, caps) => if last = some e then none else some (e, caps)
        | none => none
      match found with
      | some (e, caps) =>
        let r ← replacement pr by_ caps s e
        let out := out ++ r.getD (pr.subject.extract s e)
        let changed := changed || r.isSome
        if anchored then pure (out, n + 1, changed, e)
        else substitute pr by_ limit anchored fuel e (some e) (n + 1) changed out
      | none =>
        if s < pr.subject.size then
          let out := out.push (Bytes.at0 pr.subject s)
          if anchored then pure (out, n, changed, s + 1)
          else substitute pr by_ limit anchored fuel (s + 1) last n changed out
        else pure (out, n, changed, s)

def gsub (args : Args) : HostM (Array Value) := do
  let s ← checkString args 1
  let p ← checkString args 2
  let limit ← optInt args 4 (Int64.ofNat (s.size + 1))
  let by_ := arg args 3
  let usable := match by_ with
    | .table _ | .str _ | .int _ | .float _ => true
    | v => v.isFunction
  if !usable then typeError args 3 "string/function/table"
  else
    let pr : Pattern.Problem := ⟨s, p⟩
    let anchored := pr.isAnchored
    let (out, n, changed, rest) ←
      substitute pr by_ limit.toInt anchored (2 * s.size + 3) 0 none 0 false .empty
    let text := if changed then out ++ s.extract rest s.size else s
    pure #[.str text, .ofNat n]

/-! ## Arithmetic on strings -/

/-- The message of an operation on numbers without a result, where it does not hang on the operands. -/
def troubleText : Number.Trouble → String
  | .divisionByZero => "attempt to divide by zero"
  | .moduloByZero => "attempt to perform 'n%0'"
  | .notInteger => "number has no integer representation"
  | .notNumber => "attempt to perform arithmetic on a non-number value"

/-- An arithmetic operation in which a string takes part. -/
def arithmetic (op : Number.Op) (event : MetaEvent) (args : Args) : HostM (Array Value) := do
  let a := arg args 1
  let b := arg args 2
  match Number.ofValue? a, Number.ofValue? b with
  | some x, some y =>
    match Number.arith op x y with
    | .ok v => pure #[v]
    | .error t => failText [Bytes.ofText (troubleText t)]
  | _, _ =>
    let f ← view (·.metamethod b event)
    if b.isString || f.isNil then
      error s!"attempt to {event.name} a '{a.typeName}' with a '{b.typeName}'"
    else pure #[← call1 f #[a, b]]

/-! ## All functions -/

def rep (args : Args) : HostM (Array Value) := do
  let s ← checkString args 1
  let n ← checkInt args 2
  let sep ← optString args 3 .empty
  if n ≤ 0 then pure #[.str .empty]
  else if s.size + sep.size > Pack.maxSize / n.toInt.toNat then error "resulting string too large"
  else pure #[.str (Bytes.replicate n.toInt.toNat s sep)]

def byte (args : Args) : HostM (Array Value) := do
  let s ← checkString args 1
  let i ← optInt args 2 1
  let first := startIndex i s.size
  let last := endIndex (← optInt args 3 (Int64.ofNat first)) s.size
  if first > last then pure #[]
  else pure ((s.extract (first - 1) last).toList.map (fun c => Value.ofNat c.toNat)).toArray

def char (args : Args) : HostM (Array Value) := do
  let mut out : Bytes := .empty
  for i in List.range args.size do
    let c ← checkInt args (i + 1)
    if 0 ≤ c ∧ c ≤ 255 then out := out.push c.toUInt64.toUInt8
    else badArg (i + 1) "value out of range"
  pure #[.str out]

/-- The code of a function without its lines and names. -/
def strip : Nat → Proto → Proto
  | 0, p => p
  | n + 1, p => .mk p.code #[] p.constants (p.protos.map (strip n))
      (p.captures.map fun c => { c with name := .empty }) #[] p.params p.isVararg p.stackSize
      p.firstLine p.lastLine (Bytes.ofText "?") (Bytes.ofText "=?")

/-- A function in binary form. -/
def dump (args : Args) : HostM (Array Value) := do
  let f ← checkFunction args 1
  match f with
  | .closure c =>
    let text ← change fun h =>
      let p := (h.closures[c]?.getD default).proto
      let p := if (arg args 2).truthy then strip 200 p else p
      (Binary.encode h.dumped.size, { h with dumped := h.dumped.push p })
    pure #[.str text]
  | _ => error "unable to dump given function"

def one (v : HostM Value) : HostM (Array Value) := do return #[← v]

/-- Applies a function on strings; `self` and `state` are those of an iterator. -/
def run (f : StringFn) (self : Nat) (state : Array Value) (args : Args) : HostM (Array Value) :=
  match f with
  | .byte => byte args
  | .char => char args
  | .dump => dump args
  | .find => search args true
  | .match => search args false
  | .format => do return #[.str (← Format.run args)]
  | .gmatch => gmatch args
  | .gmatchStep => gmatchStep self state
  | .gsub => gsub args
  | .len => do return #[.ofNat (← checkString args 1).size]
  | .lower => do return #[.str ((← checkString args 1).map Bytes.toLower)]
  | .upper => do return #[.str ((← checkString args 1).map Bytes.toUpper)]
  | .reverse => do return #[.str (Bytes.reverse (← checkString args 1))]
  | .rep => rep args
  | .sub => do
    let s ← checkString args 1
    let i ← checkInt args 2
    let j ← optInt args 3 (-1)
    return #[.str (part s i j)]
  | .pack => do
    let fmt ← checkString args 1
    return #[.str (← Pack.pack args (fmt.size + 1) ⟨fmt.toList, true, 1⟩ 2 .empty)]
  | .packsize => do
    let fmt ← checkString args 1
    return #[.ofNat (← Pack.size (fmt.size + 1) ⟨fmt.toList, true, 1⟩ 0)]
  | .unpack => do
    let fmt ← checkString args 1
    let data ← checkString args 2
    let pos := startIndex (← optInt args 3 1) data.size - 1
    if pos > data.size then badArg 3 "initial position out of string"
    else Pack.unpack data (fmt.size + 1) ⟨fmt.toList, true, 1⟩ pos #[]
  | .add => arithmetic .add .add args
  | .subtract => arithmetic .sub .sub args
  | .mul => arithmetic .mul .mul args
  | .mod => arithmetic .mod .mod args
  | .pow => arithmetic .pow .pow args
  | .div => arithmetic .div .div args
  | .idiv => arithmetic .idiv .idiv args
  | .unm => arithmetic .unm .unm args

end ScriptHost.Script.Strings
