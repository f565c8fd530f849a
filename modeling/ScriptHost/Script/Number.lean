import ScriptHost.Script.Decimal
import ScriptHost.Script.Value

/-!
# Numbers: arithmetic, conversions, text

Integer arithmetic wraps at 64 bits, division and modulo round towards minus
infinity, and an operation with a float is done in floats. The text of a float
has fourteen significant digits and always shows that it is a float.
-/
namespace ScriptHost.Script.Number

/-! ## Between integers and floats -/

/-- How a float with a fraction becomes an integer. -/
inductive Rounding where
  | exact | floor | ceil
  deriving DecidableEq, Repr

/-- The integer of a float, if there is one in range. -/
def floatToInt? (mode : Rounding) (f : Float) : Option Int64 :=
  let whole := f.floor
  let whole := if whole == f then f else
    match mode with
    | .exact | .floor => whole
    | .ceil => whole + 1
  if mode = .exact ∧ !(whole == f) then none
  else if -Value.twoTo63 ≤ whole ∧ whole < Value.twoTo63 then some whole.toInt64 else none

def intToFloat (n : Int64) : Float := n.toFloat

/-- The number as a float. -/
def toFloat? : Value → Option Float
  | .int n => some (intToFloat n)
  | .float f => some f
  | _ => none

/-- The number as an integer, if it is one. -/
def toInt? : Value → Option Int64
  | .int n => some n
  | .float f => floatToInt? .exact f
  | _ => none

/-! ## Text -/

def floatChars (f : Float) : List Char :=
  match Decimal.decode f with
  | .nan => "-nan".toList
  | .infinite negative => (if negative then "-inf" else "inf").toList
  | .finite negative m e =>
    let body := Decimal.general m e 14 false
    let body := if body.all (·.isDigit) then body ++ ['.', '0'] else body
    if negative then '-' :: body else body

/-- The text of a number. -/
def text : Value → String
  | .int n => toString n.toInt
  | .float f => String.ofList (floatChars f)
  | _ => ""

def toBytes (v : Value) : Bytes := Bytes.ofText (text v)

/-! ## Reading -/

def skipSpace (s : List UInt8) : List UInt8 := s.dropWhile Bytes.isSpace

/-- The sign and what follows it. -/
def takeSign : List UInt8 → Bool × List UInt8
  | 0x2D :: r => (true, r)
  | 0x2B :: r => (false, r)
  | r => (false, r)

def decimalValue (ds : List UInt8) : Nat := ds.foldl (fun n d => n * 10 + (d - 48).toNat) 0
def hexadecimalValue (ds : List UInt8) : Nat := ds.foldl (fun n d => n * 16 + Bytes.hexValue d) 0

/-- The rest after a numeral may only be blank. -/
def atEnd (r : List UInt8) : Bool := (skipSpace r).isEmpty

/-- An integer numeral. A hexadecimal one wraps; a decimal one out of range is none. -/
def readInt? (s : List UInt8) : Option Int64 :=
  let (negative, r) := takeSign (skipSpace s)
  match r with
  | 0x30 :: x :: r' =>
    if x = 0x78 ∨ x = 0x58 then
      let ds := r'.takeWhile Bytes.isHexDigit
      if ds.isEmpty ∨ !atEnd (r'.drop ds.length) then none
      else
        let n : Int := hexadecimalValue ds
        some (Int64.ofInt (if negative then -n else n))
    else decimal negative r
  | _ => decimal negative r
where
  decimal (negative : Bool) (r : List UInt8) : Option Int64 :=
    let ds := r.takeWhile Bytes.isDigit
    if ds.isEmpty ∨ !atEnd (r.drop ds.length) then none
    else
      let n := decimalValue ds
      if n ≤ (if negative then Nat.pow 2 63 else Nat.pow 2 63 - 1) then
        some (Int64.ofInt (if negative then -(n : Int) else n))
      else none

/-- A decimal exponent after its letter; without digits there is none. -/
def readExponent (letter : UInt8) (s : List UInt8) : Int × List UInt8 :=
  match s with
  | c :: r =>
    if Bytes.toLower c = letter then
      let (negative, r') := takeSign r
      let ds := r'.takeWhile Bytes.isDigit
      if ds.isEmpty then (0, s)
      else
        -- an exponent of more digits has the same effect as one of nine
        let n : Int := if ds.length > 9 then 999999999 else decimalValue ds
        (if negative then -n else n, r'.drop ds.length)
    else (0, s)
  | [] => (0, s)

/-- The digits before and behind a point, and the rest. -/
def readMantissa (digit : UInt8 → Bool) (s : List UInt8) : List UInt8 × List UInt8 × List UInt8 :=
  let whole := s.takeWhile digit
  match s.drop whole.length with
  | 0x2E :: r =>
    let fraction := r.takeWhile digit
    (whole, fraction, r.drop fraction.length)
  | r => (whole, [], r)

/-- A float numeral, decimal or hexadecimal. -/
def readFloat? (s : List UInt8) : Option Float :=
  let (negative, r) := takeSign (skipSpace s)
  let signed (f : Float) := if negative then -f else f
  let hex? := match r with
    | 0x30 :: x :: r' => if x = 0x78 ∨ x = 0x58 then some r' else none
    | _ => none
  match hex? with
  | some r =>
    let (whole, fraction, r) := readMantissa Bytes.isHexDigit r
    if whole.isEmpty ∧ fraction.isEmpty then none
    else
      let (e, r) := readExponent 0x70 r
      if atEnd r then
        some (signed (Decimal.ofBinary (hexadecimalValue (whole ++ fraction)) (e - 4 * fraction.length)))
      else none
  | none =>
    let (whole, fraction, r) := readMantissa Bytes.isDigit r
    if whole.isEmpty ∧ fraction.isEmpty then none
    else
      let (e, r) := readExponent 0x65 r
      if atEnd r then
        some (signed (Decimal.ofScientific (decimalValue (whole ++ fraction)) (e - fraction.length)))
      else none

/-- The number a text reads as: an integer if it can be one, else a float. -/
def read? (b : Bytes) : Option Value :=
  let s := b.toList
  match readInt? s with
  | some n => some (.int n)
  | none => (readFloat? s).map .float

/-- A number, or the number a string reads as. -/
def ofValue? : Value → Option Value
  | v@(.int _) | v@(.float _) => some v
  | .str s => read? s
  | _ => none

/-- The integer of a number or of a string that reads as one. -/
def coerceInt? (v : Value) : Option Int64 := (ofValue? v).bind toInt?

/-- The float of a number or of a string that reads as one. -/
def coerceFloat? (v : Value) : Option Float := (ofValue? v).bind toFloat?

/-! ## Comparison -/

/-- Integers up to 2 ^ 53 in size are exact as floats. -/
def fitsFloat (n : Int64) : Bool := -9007199254740992 ≤ n && n ≤ 9007199254740992

def ltIntFloat (i : Int64) (f : Float) : Bool :=
  if fitsFloat i then intToFloat i < f
  else match floatToInt? .ceil f with
    | some n => i < n
    | none => 0 < f

def leIntFloat (i : Int64) (f : Float) : Bool :=
  if fitsFloat i then intToFloat i ≤ f
  else match floatToInt? .floor f with
    | some n => i ≤ n
    | none => 0 < f

def ltFloatInt (f : Float) (i : Int64) : Bool :=
  if fitsFloat i then f < intToFloat i
  else match floatToInt? .floor f with
    | some n => n < i
    | none => f < 0

def leFloatInt (f : Float) (i : Int64) : Bool :=
  if fitsFloat i then f ≤ intToFloat i
  else match floatToInt? .ceil f with
    | some n => n ≤ i
    | none => f < 0

/-- `a < b` for two numbers. -/
def lt? : Value → Value → Option Bool
  | .int a, .int b => some (a < b)
  | .int a, .float b => some (ltIntFloat a b)
  | .float a, .int b => some (ltFloatInt a b)
  | .float a, .float b => some (a < b)
  | _, _ => none

/-- `a ≤ b` for two numbers. -/
def le? : Value → Value → Option Bool
  | .int a, .int b => some (a ≤ b)
  | .int a, .float b => some (leIntFloat a b)
  | .float a, .int b => some (leFloatInt a b)
  | .float a, .float b => some (a ≤ b)
  | _, _ => none

/-! ## Arithmetic -/

/-- An arithmetic or bitwise operation. -/
inductive Op where
  | add | sub | mul | mod | pow | div | idiv | band | bor | bxor | shl | shr | unm | bnot
  deriving DecidableEq, Repr

/-- Bitwise operations work on integers only. -/
def Op.isBitwise : Op → Bool
  | .band | .bor | .bxor | .shl | .shr | .bnot => true
  | _ => false

/-- The remainder with the sign of the dividend, exactly. -/
def floatRem (a b : Float) : Float :=
  match Decimal.decode a, Decimal.decode b with
  | .finite na ma ea, .finite _ mb eb =>
    if mb = 0 then 0.0 / 0.0
    else
      let e := min ea eb
      let r := (ma * Nat.pow 2 (ea - e).toNat) % (mb * Nat.pow 2 (eb - e).toNat)
      let f := Decimal.ofBinary r e
      if na then -f else f
  | .finite .., .infinite _ => a
  | _, _ => 0.0 / 0.0

/-- The remainder with the sign of the divisor. -/
def floatMod (a b : Float) : Float :=
  let m := floatRem a b
  if (if m > 0 then b < 0 else m < 0 && !(b == m) && b > 0) then m + b else m

/-- The quotient rounded down; `b` is not 0. -/
def intDiv (a b : Int64) : Int64 := Int64.ofInt (a.toInt.fdiv b.toInt)

/-- The remainder with the sign of the divisor; `b` is not 0. -/
def intMod (a b : Int64) : Int64 := Int64.ofInt (a.toInt.fmod b.toInt)

/-- Shifts left, or right by a negative amount, filling with zeros. -/
def shiftLeft (a b : Int64) : Int64 :=
  if b ≤ -64 ∨ 64 ≤ b then 0
  else if 0 ≤ b then (a.toUInt64 <<< b.toUInt64).toInt64
  else (a.toUInt64 >>> (0 - b).toUInt64).toInt64

/-- Why an operation on numbers has no result. -/
inductive Trouble where
  | divisionByZero
  | moduloByZero
  /-- A bitwise operation met a number that is no integer. -/
  | notInteger
  /-- An operand is no number. -/
  | notNumber
  deriving DecidableEq, Repr

def floatPow (a b : Float) : Float := if b == 2 then a * a else a.pow b

def floatArith (op : Op) (a b : Float) : Float :=
  match op with
  | .add => a + b
  | .sub => a - b
  | .mul => a * b
  | .mod => floatMod a b
  | .pow => floatPow a b
  | .div => a / b
  | .idiv => (a / b).floor
  | .unm => -a
  | _ => 0

def intArith (op : Op) (a b : Int64) : Except Trouble Value :=
  match op with
  | .add => .ok (.int (a + b))
  | .sub => .ok (.int (a - b))
  | .mul => .ok (.int (a * b))
  | .mod => if b = 0 then .error .moduloByZero else .ok (.int (intMod a b))
  | .idiv => if b = 0 then .error .divisionByZero else .ok (.int (intDiv a b))
  | .pow => .ok (.float (floatPow (intToFloat a) (intToFloat b)))
  | .div => .ok (.float (intToFloat a / intToFloat b))
  | .band => .ok (.int (a &&& b))
  | .bor => .ok (.int (a ||| b))
  | .bxor => .ok (.int (a ^^^ b))
  | .shl => .ok (.int (shiftLeft a b))
  | .shr => .ok (.int (shiftLeft a (0 - b)))
  | .unm => .ok (.int (0 - a))
  | .bnot => .ok (.int (a ^^^ -1))

/-- An operation on two numbers; a unary one has its operand twice. -/
def arith (op : Op) (a b : Value) : Except Trouble Value :=
  if op.isBitwise then
    match toInt? a, toInt? b with
    | some m, some n => intArith op m n
    | _, _ => .error (if a.isNumber && b.isNumber then .notInteger else .notNumber)
  else
    match a, b with
    | .int m, .int n => intArith op m n
    | _, _ =>
      match toFloat? a, toFloat? b with
      | some m, some n => .ok (.float (floatArith op m n))
      | _, _ => .error .notNumber

end ScriptHost.Script.Number
