import ScriptHost.Script.Host

/-!
# Functions on numbers

Random numbers come from a generator with 256 bits of state that are shifted
and rotated; the same seed gives the same numbers.
-/
namespace ScriptHost.Script.Maths

open HostM

/-- A float as an integer if it fits, else as a float. -/
def integral (f : Float) : Value :=
  match Number.floatToInt? .floor f with
  | some n => .int n
  | none => .float f

/-! ## Random numbers -/

def rotateLeft (x : UInt64) (n : UInt64) : UInt64 := (x <<< n) ||| (x >>> (64 - n))

/-- The next number and the state behind it. -/
def RandomState.next (s : RandomState) : UInt64 × RandomState :=
  let result := rotateLeft (s.s1 * 5) 7 * 9
  let t := s.s1 <<< 17
  let s2 := s.s2 ^^^ s.s0
  let s3 := s.s3 ^^^ s.s1
  let s1 := s.s1 ^^^ s2
  let s0 := s.s0 ^^^ s3
  (result, ⟨s0, s1, s2 ^^^ t, rotateLeft s3 45⟩)

/-- The generator for a seed; the first sixteen numbers are thrown away. -/
def seeded (a b : UInt64) : RandomState :=
  (List.range 16).foldl (fun s _ => (RandomState.next s).2) ⟨a, 0xff, b, 0⟩

/-- Throws numbers away until one of `n + 1` values is hit. -/
def project (limit mask : UInt64) : Nat → UInt64 → RandomState → UInt64 × RandomState
  | 0, r, s => (r &&& mask, s)
  | fuel + 1, r, s =>
    let v := r &&& mask
    if v ≤ limit then (v, s)
    else
      let (r, s) := RandomState.next s
      project limit mask fuel r s

/-- The smallest number of the form `2 ^ k - 1` that is not below `n`. -/
def maskFor (n : UInt64) : UInt64 :=
  let n := n ||| (n >>> 1)
  let n := n ||| (n >>> 2)
  let n := n ||| (n >>> 4)
  let n := n ||| (n >>> 8)
  let n := n ||| (n >>> 16)
  n ||| (n >>> 32)

def random (args : Args) : HostM (Array Value) := do
  let r ← change fun h =>
    let (r, s) := RandomState.next h.random
    (r, { h with random := s })
  let between (low up : Int64) : HostM (Array Value) := do
    if low > up then badArg 2 "interval is empty"
    else
      let limit := up.toUInt64 - low.toUInt64
      let v ← change fun h =>
        let (v, s) :=
          if limit &&& (limit + 1) = 0 then (r &&& limit, h.random)
          else project limit (maskFor limit) 10000 r h.random
        (v, { h with random := s })
      pure #[.int (v + low.toUInt64).toInt64]
  match args.size with
  | 0 => pure #[.float ((r >>> 11).toFloat * Float.ofScientific 11102230246251565404 true 35)]
  | 1 =>
    let up ← checkInt args 1
    if up = 0 then pure #[.int r.toInt64] else between 1 up
  | 2 =>
    let low ← checkInt args 1
    between low (← checkInt args 2)
  | _ => error "wrong number of arguments"

def randomseed (args : Args) : HostM (Array Value) := do
  let (a, b) ← if args.isEmpty then pure ((0x5a17 : UInt64), (0 : UInt64))
    else do
      let a ← match arg args 1 with
        | .int n => pure n.toUInt64
        | _ => do
          let f ← checkFloat args 1
          pure (match Value.exactInt? f with
            | some n => n.toUInt64
            | none => f.toBits)
      let b ← optInt args 2 0
      pure (a, b.toUInt64)
  update fun h => { h with random := seeded a b }
  pure #[.int a.toInt64, .int b.toInt64]

/-! ## Other functions -/

def pi : Float := Float.ofBits 0x400921FB54442D18

/-- A float is `f · 2 ^ e` with `f` in `[0.5, 1)`. -/
def frexp (f : Float) : Float × Int :=
  match Decimal.decode f with
  | .finite negative m e =>
    if m = 0 then (f, 0)
    else
      let width : Int := m.log2 + 1
      let x := Decimal.ofBinary m (-width)
      (if negative then -x else x, e + width)
  | _ => (f, 0)

def ldexp (f : Float) (n : Int) : Float :=
  match Decimal.decode f with
  | .finite negative m e =>
    let x := Decimal.ofBinary m (e + n)
    if negative then -x else x
  | _ => f

/-- The first of the arguments from `n` on that is better than all others. -/
def choose (args : Args) (better : Value → Value → Bool) : List Nat → Value → HostM Value
  | [], best => pure best
  | n :: r, best => do
    let v ← checkNumber args n
    choose args better r (if better v best then v else best)

def isInt : Value → Bool
  | .int _ => true
  | _ => false

def fmod (args : Args) : HostM (Array Value) := do
  match arg args 1, arg args 2 with
  | .int a, .int b =>
    if b = 0 then badArg 2 "zero"
    else pure #[.int (if b = -1 then 0 else Int64.ofInt (a.toInt.tmod b.toInt))]
  | _, _ => do
    let a ← checkFloat args 1
    let b ← checkFloat args 2
    pure #[.float (Number.floatRem a b)]

def modf (args : Args) : HostM (Array Value) := do
  match arg args 1 with
  | .int n => pure #[.int n, .float 0]
  | _ =>
    let f ← checkFloat args 1
    let whole := if f < 0 then f.ceil else f.floor
    let rest := if whole == f then 0 else f - whole
    pure #[.float whole, .float rest]

def log (args : Args) : HostM (Array Value) := do
  let x ← checkFloat args 1
  if isNoneOrNil args 2 then pure #[.float x.log]
  else
    let b ← checkFloat args 2
    pure #[.float (if b == 2 then x.log2 else if b == 10 then x.log10 else x.log / b.log)]

def one (f : Float → Float) (args : Args) : HostM (Array Value) := do
  return #[.float (f (← checkFloat args 1))]

/-- Applies a function on numbers. -/
def run (f : MathFn) (args : Args) : HostM (Array Value) :=
  match f with
  | .abs => do
    match arg args 1 with
    | .int n => return #[.int (if n < 0 then 0 - n else n)]
    | _ => return #[.float (← checkFloat args 1).abs]
  | .ceil => do
    match arg args 1 with
    | .int n => return #[.int n]
    | _ => return #[integral (← checkFloat args 1).ceil]
  | .floor => do
    match arg args 1 with
    | .int n => return #[.int n]
    | _ => return #[integral (← checkFloat args 1).floor]
  | .acos => one Float.acos args
  | .asin => one Float.asin args
  | .atan => do
    let y ← checkFloat args 1
    let x ← if isNoneOrNil args 2 then pure 1 else checkFloat args 2
    return #[.float (Float.atan2 y x)]
  | .cos => one Float.cos args
  | .cosh => one Float.cosh args
  | .deg => one (fun x => x * (180.0 / pi)) args
  | .exp => one Float.exp args
  | .fmod => fmod args
  | .frexp => do
    let (x, e) := frexp (← checkFloat args 1)
    return #[.float x, .ofInt e]
  | .ldexp => do
    let x ← checkFloat args 1
    return #[.float (ldexp x (← checkInt args 2).toInt)]
  | .log => log args
  | .log10 => one Float.log10 args
  | .max => do
    let first ← checkNumber args 1
    return #[← choose args (fun v best => (Number.lt? best v).getD false)
      ((List.range (args.size - 1)).map (· + 2)) first]
  | .min => do
    let first ← checkNumber args 1
    return #[← choose args (fun v best => (Number.lt? v best).getD false)
      ((List.range (args.size - 1)).map (· + 2)) first]
  | .modf => modf args
  | .pow => do
    let x ← checkFloat args 1
    return #[.float (x.pow (← checkFloat args 2))]
  | .rad => one (fun x => x * (pi / 180.0)) args
  | .random => random args
  | .randomseed => randomseed args
  | .sin => one Float.sin args
  | .sinh => one Float.sinh args
  | .sqrt => one Float.sqrt args
  | .tan => one Float.tan args
  | .tanh => one Float.tanh args
  | .tointeger => do
    match Number.coerceInt? (arg args 1) with
    | some n => return #[.int n]
    | none =>
      let _ ← checkAny args 1
      return #[.nil]
  | .type => do
    let v ← checkAny args 1
    return #[match v with
      | .int _ => .text "integer"
      | .float _ => .text "float"
      | _ => .nil]
  | .ult => do
    let a ← checkInt args 1
    let b ← checkInt args 2
    return #[.bool (a.toUInt64 < b.toUInt64)]

end ScriptHost.Script.Maths
