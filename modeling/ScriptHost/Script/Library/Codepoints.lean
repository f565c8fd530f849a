import ScriptHost.Script.Library.Strings

/-!
# Functions on UTF-8 text

A text is a string of sequences of one to six bytes. Unless they are lax, the
functions accept the code points of Unicode without the surrogates only.
-/
namespace ScriptHost.Script.Codepoints

open HostM

def isContinuation (c : UInt8) : Bool := c &&& 0xC0 == 0x80

/-- The largest code points of sequences of one to six bytes. -/
def largest (size : Nat) : Nat :=
  match size with
  | 1 => 0x7F | 2 => 0x7FF | 3 => 0xFFFF | 4 => 0x1FFFFF | 5 => 0x3FFFFFF | _ => 0x7FFFFFFF

/-- The number of bytes in a sequence with a lead byte. -/
def width (c : UInt8) : Nat :=
  if c < 0x80 then 1 else if c < 0xC0 then 0 else if c < 0xE0 then 2 else if c < 0xF0 then 3
  else if c < 0xF8 then 4 else if c < 0xFC then 5 else if c < 0xFE then 6 else 0

/-- The code point at index `i` and the index behind it. -/
def decode? (s : Bytes) (i : Nat) (strict : Bool) : Option (Nat × Nat) :=
  let c := Bytes.at0 s i
  let n := width c
  if n = 0 then none
  else if n = 1 then some (c.toNat, i + 1)
  else
    let tail := (List.range (n - 1)).map fun k => Bytes.at0 s (i + 1 + k)
    if !tail.all isContinuation then none
    else
      let v := tail.foldl (fun v c => v * 64 + (c &&& 0x3F).toNat) (c.toNat % Nat.pow 2 (7 - n))
      if v ≤ largest (n - 1) then none
      else if strict && (v > 0x10FFFF || (0xD800 ≤ v && v ≤ 0xDFFF)) then none
      else some (v, i + n)

/-- The bytes of a code point up to 2 ^ 31 - 1. -/
def encode (v : Nat) : Bytes :=
  if v < 0x80 then Bytes.ofList [UInt8.ofNat v]
  else
    let n := if v ≤ 0x7FF then 2 else if v ≤ 0xFFFF then 3 else if v ≤ 0x1FFFFF then 4
      else if v ≤ 0x3FFFFFF then 5 else 6
    let lead := 256 - Nat.pow 2 (8 - n) + v / Nat.pow 64 (n - 1)
    Bytes.ofList (UInt8.ofNat lead ::
      (List.range (n - 1)).map fun k => UInt8.ofNat (0x80 + v / Nat.pow 64 (n - 2 - k) % 64))

/-- The pattern of one sequence. -/
def charPattern : Bytes :=
  Bytes.cat [Bytes.ofText "[", Bytes.ofList [0], Bytes.ofText "-", Bytes.ofList [0x7F, 0xC2],
    Bytes.ofText "-", Bytes.ofList [0xFD], Bytes.ofText "][", Bytes.ofList [0x80],
    Bytes.ofText "-", Bytes.ofList [0xBF], Bytes.ofText "]*"]

/-- An index that may count from the end; 0 when it is before the start. -/
def relative (i : Int64) (size : Nat) : Int :=
  if 0 ≤ i then i.toInt
  else if -i.toInt > size then 0
  else (size : Int) + i.toInt + 1

def char (args : Args) : HostM (Array Value) := do
  let mut out : Bytes := .empty
  for i in List.range args.size do
    let c ← checkInt args (i + 1)
    if c.toUInt64 > 0x7FFFFFFF then badArg (i + 1) "value out of range"
    out := out ++ encode c.toInt.toNat
  pure #[.str out]

def codepointsFrom (s : Bytes) (strict : Bool) (stop : Nat) : Nat → Nat → Array Value → HostM (Array Value)
  | 0, _, out => pure out
  | fuel + 1, i, out =>
    if i ≥ stop then pure out
    else match decode? s i strict with
      | some (v, next) => codepointsFrom s strict stop fuel next (out.push (.ofNat v))
      | none => error "invalid UTF-8 code"

def codepoint (args : Args) : HostM (Array Value) := do
  let s ← checkString args 1
  let i := relative (← optInt args 2 1) s.size
  let j := relative (← optInt args 3 (Int64.ofInt i)) s.size
  if i < 1 then badArg 2 "out of bounds"
  else if j > s.size then badArg 3 "out of bounds"
  else if i > j then pure #[]
  else codepointsFrom s (!(arg args 4).truthy) j.toNat (s.size + 1) (i.toNat - 1) #[]

def lengthFrom (s : Bytes) (strict : Bool) (last : Int) : Nat → Nat → Nat → Array Value
  | 0, _, n => #[.ofNat n]
  | fuel + 1, i, n =>
    if (i : Int) > last then #[.ofNat n]
    else match decode? s i strict with
      | some (_, next) => lengthFrom s strict last fuel next (n + 1)
      | none => #[.nil, .ofNat (i + 1)]

def len (args : Args) : HostM (Array Value) := do
  let s ← checkString args 1
  let i := relative (← optInt args 2 1) s.size
  let j := relative (← optInt args 3 (-1)) s.size
  if !(1 ≤ i ∧ i - 1 ≤ s.size) then badArg 2 "initial position out of bounds"
  else if !(j - 1 < s.size) then badArg 3 "final position out of bounds"
  else pure (lengthFrom s (!(arg args 4).truthy) (j - 1) (s.size + 1) (i - 1).toNat 0)

/-- Steps over whole sequences: backwards to the start of the one before. -/
def back (s : Bytes) : Nat → Nat → Nat
  | 0, i => i
  | fuel + 1, i => if i > 0 ∧ isContinuation (Bytes.at0 s i) then back s fuel (i - 1) else i

def forth (s : Bytes) : Nat → Nat → Nat
  | 0, i => i
  | fuel + 1, i => if isContinuation (Bytes.at0 s i) then forth s fuel (i + 1) else i

/-- Goes back over `n` sequences; what is left of `n`, and the index. -/
def backMany (s : Bytes) : Nat → Nat → Nat × Nat
  | 0, i => (0, i)
  | n + 1, i => if i > 0 then backMany s n (back s (s.size + 1) (i - 1)) else (n + 1, i)

def forthMany (s : Bytes) : Nat → Nat → Nat × Nat
  | 0, i => (0, i)
  | n + 1, i => if i < s.size then forthMany s n (forth s (s.size + 1) (i + 1)) else (n + 1, i)

def offset (args : Args) : HostM (Array Value) := do
  let s ← checkString args 1
  let n ← checkInt args 2
  let dflt : Int64 := if n > 0 then 1 else Int64.ofNat (s.size + 1)
  let i := relative (← optInt args 3 dflt) s.size - 1
  if !(0 ≤ i ∧ i ≤ s.size) then badArg 3 "position out of bounds"
  else
    let i := i.toNat
    if n = 0 then pure #[.ofNat (back s (s.size + 1) i + 1)]
    else if isContinuation (Bytes.at0 s i) then error "initial position is a continuation byte"
    else
      let (left, i) := if n < 0 then backMany s n.toInt.natAbs i else forthMany s (n.toInt.toNat - 1) i
      pure #[if left = 0 then .ofNat (i + 1) else .nil]

/-- One step of the iterator over code points. -/
def codesStep (args : Args) (strict : Bool) : HostM (Array Value) := do
  let s ← checkString args 1
  let n := (← optInt args 2 0).toUInt64.toNat
  let n := if n < s.size then forth s (s.size + 1) n else n
  if n ≥ s.size then pure #[]
  else match decode? s n strict with
    | some (v, next) =>
      if isContinuation (Bytes.at0 s next) then error "invalid UTF-8 code"
      else pure #[.ofNat (n + 1), .ofNat v]
    | none => error "invalid UTF-8 code"

def codes (args : Args) : HostM (Array Value) := do
  let lax := (arg args 2).truthy
  let s ← checkString args 1
  if isContinuation (Bytes.at0 s 0) then badArg 1 "invalid UTF-8 code"
  else pure #[.native (.utf8 (if lax then .codesStepLax else .codesStep)), .str s, .int 0]

/-- Applies a function on UTF-8 text. -/
def run (f : Utf8Fn) (args : Args) : HostM (Array Value) :=
  match f with
  | .char => char args
  | .codepoint => codepoint args
  | .codes => codes args
  | .codesStep => codesStep args true
  | .codesStepLax => codesStep args false
  | .len => len args
  | .offset => offset args

end ScriptHost.Script.Codepoints
