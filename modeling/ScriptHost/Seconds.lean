import ScriptHost.Duration
import ScriptHost.Script.Decimal

/-!
# Numbers of seconds

A number of seconds is written as a decimal and means the nearest double. It is
a duration if it is neither negative nor too large; a half nanosecond goes to
the even neighbour. Its text has the fewest digits that read back as the same
double, never with an exponent.
-/
namespace ScriptHost

open Script.Decimal (Exact Ratio decode)

/-- The exact content of a double that counts seconds. -/
abbrev Seconds := Exact

namespace Seconds

/-! ## Reading -/

/-- Why a text is no number. -/
inductive Refusal where
  | empty
  | invalid
  deriving DecidableEq, Repr

def Refusal.message : Refusal → String
  | .empty => "cannot parse float from empty string"
  | .invalid => "invalid float literal"

/-- The number that digits stand for. -/
def ofDigits (ds : List Char) : Nat := ds.foldl (fun n c => n * 10 + (c.toNat - '0'.toNat)) 0

/-- A sign at the front, and what follows it. -/
def takeSign : List Char → Bool × List Char
  | '-' :: r => (true, r)
  | '+' :: r => (false, r)
  | r => (false, r)

/-- What follows the digits: nothing, or an exponent. -/
def exponent? : List Char → Option Int
  | [] => some 0
  | c :: r =>
    let (negative, ds) := takeSign r
    if (c = 'e' ∨ c = 'E') ∧ ds ≠ [] ∧ ds.all Char.isDigit then
      some (if negative then -(ofDigits ds : Int) else ofDigits ds)
    else none

/-- A decimal without sign as `m · 10 ^ e`: digits before or behind a point, at least one. -/
def decimal? (s : List Char) : Option (Nat × Int) :=
  let (whole, r) := s.span Char.isDigit
  let (fraction, r) := match r with
    | '.' :: r => r.span Char.isDigit
    | r => ([], r)
  if whole.isEmpty && fraction.isEmpty then none
  else (exponent? r).map fun e => (ofDigits (whole ++ fraction), e - fraction.length)

/-- The number with its sign. -/
def signed (negative : Bool) : Exact → Exact
  | .nan => .nan
  | .infinite _ => .infinite negative
  | .finite _ m e => .finite negative m e

/-- Reads a number, or one of the words for infinity and for no number. -/
def read (text : String) : Except Refusal Seconds :=
  let (negative, s) := takeSign text.toList
  let word := String.ofList (s.map Char.toLower)
  if text.isEmpty then .error .empty
  else if word = "inf" ∨ word = "infinity" then .ok (.infinite negative)
  else if word = "nan" then .ok .nan
  else match decimal? s with
    | some (m, e) => .ok (signed negative (decode (Script.Decimal.ofScientific m e)))
    | none => .error .invalid

/-! ## As durations -/

/-- Why a number of seconds is no duration. -/
inductive Unfit where
  | negative
  | tooBig
  deriving DecidableEq, Repr

def Unfit.message : Unfit → String
  | .negative => "cannot convert float seconds to Duration: value is negative"
  | .tooBig => "cannot convert float seconds to Duration: value is either too big or NaN"

/-- The duration nearest to a number of seconds. -/
def duration : Seconds → Except Unfit Duration
  | .nan => .error .tooBig
  | .infinite negative => .error (if negative then .negative else .tooBig)
  | .finite negative m e =>
    if negative ∧ m ≠ 0 then .error .negative
    else
      let d : Duration := ⟨((Ratio.ofDyadic m e).scale 9).round⟩
      if d ≤ .maximum then .ok d else .error .tooBig

/-! ## Writing -/

/-- The first rational is at most the second. -/
def atMost (a b : Ratio) : Bool := a.num * b.den ≤ b.num * a.den

/-- The rationals that round to `m · 2 ^ e`, as their ends. -/
def interval (m : Nat) (e : Int) : Ratio × Ratio :=
  let below := if m = Nat.pow 2 52 ∧ -1074 < e then 4 * m - 1 else 4 * m - 2
  (.ofDyadic below (e - 2), .ofDyadic (4 * m + 2) (e - 2))

/-- `n · 10 ^ k` as a rational. -/
def onGrid (n : Nat) (k : Int) : Ratio := Ratio.scale ⟨n, 1⟩ k

/-- `n · 10 ^ k` rounds to `m · 2 ^ e`. The ends of the interval do so when `m` is even. -/
def readsBack (m : Nat) (e : Int) (n : Nat) (k : Int) : Bool :=
  let (low, high) := interval m e
  let r := onGrid n k
  if m % 2 = 0 then atMost low r && atMost r high else !atMost r low && !atMost high r

/-- On the first of the grids `10 ^ k`, `10 ^ (k - 1)`, … that has a number reading back as
`m · 2 ^ e`: the nearest such number, a tie going up. -/
def shortestFrom (m : Nat) (e : Int) : Nat → Int → Nat × Int
  | 0, k => (((Ratio.ofDyadic m e).scale (-k)).round, k)
  | fuel + 1, k =>
    let r := (Ratio.ofDyadic m e).scale (-k)
    let n := r.num / r.den
    let up := r.den ≤ 2 * (r.num % r.den)
    let fitsLow := readsBack m e n k
    let fitsHigh := readsBack m e (n + 1) k
    if fitsHigh && (up || !fitsLow) then (n + 1, k)
    else if fitsLow then (n, k)
    else shortestFrom m e fuel (k - 1)

/-- The fewest digits that read back, as `n · 10 ^ k`. -/
def shortest (m : Nat) (e : Int) : Nat × Int :=
  if m = 0 then (0, 0) else shortestFrom m e 17 (Ratio.ofDyadic m e).log10

/-- `n · 10 ^ k` without an exponent. -/
def positional (n : Nat) (k : Int) : List Char :=
  let ds := Nat.toDigits 10 n
  if 0 ≤ k then ds ++ List.replicate k.toNat '0'
  else
    let places := (-k).toNat
    let ds := List.replicate (places + 1 - ds.length) '0' ++ ds
    ds.take (ds.length - places) ++ '.' :: ds.drop (ds.length - places)

/-- The text of a number of seconds. -/
def text : Seconds → String
  | .nan => "NaN"
  | .infinite negative => if negative then "-inf" else "inf"
  | .finite negative m e =>
    let (n, k) := shortest m e
    let digits := String.ofList (if m = 0 then ['0'] else positional n k)
    if negative then "-" ++ digits else digits

end Seconds
end ScriptHost
