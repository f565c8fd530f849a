import ScriptHost.Script.Bytes

/-!
# Floats as exact decimals

A finite float is `mantissa · 2 ^ exponent`. All roundings here are done on
that exact value with integers: to a number of significant digits, or to a
number of places behind the point; a tie goes to the even digit.
-/
namespace ScriptHost.Script.Decimal

/-- The exact content of a float. -/
inductive Exact where
  | nan
  | infinite (negative : Bool)
  | finite (negative : Bool) (mantissa : Nat) (exponent : Int)
  deriving DecidableEq, Repr

/-- Takes the bits of a float apart. -/
def decode (f : Float) : Exact :=
  let bits := f.toBits.toNat
  let negative := bits / Nat.pow 2 63 == 1
  let e : Nat := bits / Nat.pow 2 52 % 2048
  let m : Nat := bits % Nat.pow 2 52
  if e = 2047 then if m = 0 then .infinite negative else .nan
  else if e = 0 then .finite negative m (-1074)
  else .finite negative (m + Nat.pow 2 52) ((e : Int) - 1075)

/-- A non-negative rational number, `num / den`. -/
structure Ratio where
  num : Nat
  den : Nat

def Ratio.ofDyadic (m : Nat) (e : Int) : Ratio :=
  if 0 ≤ e then ⟨m * Nat.pow 2 e.toNat, 1⟩ else ⟨m, Nat.pow 2 (-e).toNat⟩

/-- The rational times a power of ten. -/
def Ratio.scale (r : Ratio) (e : Int) : Ratio :=
  if 0 ≤ e then ⟨r.num * Nat.pow 10 e.toNat, r.den⟩ else ⟨r.num, r.den * Nat.pow 10 (-e).toNat⟩

/-- The nearest integer, a tie to the even one. -/
def Ratio.round (r : Ratio) : Nat :=
  let q := r.num / r.den
  let twice := 2 * (r.num % r.den)
  if twice < r.den then q else if r.den < twice then q + 1 else q + q % 2

/-- Raises or lowers an estimate until `10 ^ e ≤ r < 10 ^ (e + 1)`. -/
def Ratio.adjustLog (r : Ratio) : Nat → Int → Int
  | 0, e => e
  | fuel + 1, e =>
    let s := r.scale (-e)
    if s.num < s.den then r.adjustLog fuel (e - 1)
    else if 10 * s.den ≤ s.num then r.adjustLog fuel (e + 1)
    else e

/-- The decimal exponent of a positive rational. -/
def Ratio.log10 (r : Ratio) : Int :=
  let bits : Int := (r.num.log2 : Int) - r.den.log2
  r.adjustLog 4 (bits * 30103 / 100000)

/-- The digits of a number, most significant first. -/
def digits (n : Nat) : List Char := Nat.toDigits 10 n

/-- The digits with zeros in front up to a width. -/
def padded (width n : Nat) : List Char :=
  let d := digits n
  List.replicate (width - d.length) '0' ++ d

/-- `count` significant digits (at least one) and the decimal exponent of the first. -/
def significant (m : Nat) (e : Int) (count : Nat) : List Char × Int :=
  if m = 0 then (List.replicate count '0', 0)
  else
    let r := Ratio.ofDyadic m e
    let x := r.log10
    let n := (r.scale ((count : Int) - 1 - x)).round
    if n < Nat.pow 10 count then (digits n, x) else (digits (n / 10), x + 1)

/-- Digits before and behind the point with a given number of places. -/
def fixed (m : Nat) (e : Int) (places : Nat) : List Char × List Char :=
  let n := ((Ratio.ofDyadic m e).scale places).round
  (digits (n / Nat.pow 10 places), if places = 0 then [] else padded places (n % Nat.pow 10 places))

/-- An exponent with sign and at least two digits. -/
def exponentText (e : Int) : List Char :=
  (if e < 0 then '-' else '+') :: padded 2 e.natAbs

/-- The point and what is behind it; `keep` writes the point even before nothing. -/
def point (keep : Bool) (fraction : List Char) : List Char :=
  if fraction.isEmpty && !keep then [] else '.' :: fraction

/-- Scientific form with `places` digits behind the point. -/
def scientific (m : Nat) (e : Int) (places : Nat) (keepPoint : Bool) : List Char :=
  let (ds, x) := significant m e (places + 1)
  ds.take 1 ++ point keepPoint (ds.drop 1) ++ 'e' :: exponentText x

/-- Positional form with `places` digits behind the point. -/
def positional (m : Nat) (e : Int) (places : Nat) (keepPoint : Bool) : List Char :=
  let (whole, fraction) := fixed m e places
  whole ++ point keepPoint fraction

def dropZeros (ds : List Char) : List Char := (ds.reverse.dropWhile (· == '0')).reverse

/-- The shorter form with `precision` significant digits: positional for decimal exponents from
-4 up to the precision; `keep` keeps the zeros at the end. -/
def general (m : Nat) (e : Int) (precision : Nat) (keep : Bool) : List Char :=
  let p := max precision 1
  let (ds, x) := significant m e p
  let tidy (l : List Char) := if keep then l else dropZeros l
  if -4 ≤ x ∧ x < p then
    if 0 ≤ x then
      ds.take (x.toNat + 1) ++ point keep (tidy (ds.drop (x.toNat + 1)))
    else
      '0' :: point keep (tidy (List.replicate (-x - 1).toNat '0' ++ ds))
  else
    ds.take 1 ++ point keep (tidy (ds.drop 1)) ++ 'e' :: exponentText x

def hexDigit (n : Nat) : Char := if n < 10 then Char.ofNat (48 + n) else Char.ofNat (87 + n)

/-- Hexadecimal form: one digit, thirteen more without the zeros at the end (or `places` of
them, rounded), and the binary exponent. -/
def hexadecimal (m : Nat) (e : Int) (places : Option Nat) (keepPoint : Bool) : List Char :=
  let (lead, x) : Nat × Int :=
    if m = 0 then (0, 0) else if m < Nat.pow 2 52 then (0, -1022) else (1, e + 52)
  let frac := m % Nat.pow 2 52
  let (lead, ds) : Nat × List Char := match places with
    | none => (lead, dropZeros ((List.range 13).map fun i => hexDigit (frac / Nat.pow 16 (12 - i) % 16)))
    | some p =>
      if p ≥ 13 then
        (lead, (List.range p).map fun i => if i < 13 then hexDigit (frac / Nat.pow 16 (12 - i) % 16) else '0')
      else
        let n := Ratio.round ⟨lead * Nat.pow 2 52 + frac, Nat.pow 16 (13 - p)⟩
        (n / Nat.pow 16 p, (List.range p).map fun i => hexDigit (n / Nat.pow 16 (p - 1 - i) % 16))
  ['0', 'x', hexDigit lead] ++ point keepPoint ds ++ 'p' ::
    (if x < 0 then '-' else '+') :: digits x.natAbs

/-- The nearest float to `m · 10 ^ e`. -/
def ofScientific (m : Nat) (e : Int) : Float :=
  if m = 0 then 0
  else
    let size : Int := (digits m).length
    if e + size > 320 then Float.ofBits 0x7FF0000000000000
    else if e + size < -340 then 0
    else if 0 ≤ e then Float.ofScientific (m * Nat.pow 10 e.toNat) false 0
    else Float.ofScientific m true (-e).toNat

/-- The nearest float to `m · 2 ^ e`. -/
def ofBinary (m : Nat) (e : Int) : Float :=
  if m = 0 then 0
  else
    let size : Int := m.log2
    if e + size > 1100 then Float.ofBits 0x7FF0000000000000
    else if e + size < -1200 then 0
    else if 0 ≤ e then Float.ofScientific (m * Nat.pow 2 e.toNat) false 0
    else Float.ofScientific (m * Nat.pow 5 (-e).toNat) true (-e).toNat

end ScriptHost.Script.Decimal
