/-!
# Lengths of time

A duration is a whole number of nanoseconds. Its text uses the largest of the
units s, ms, µs, ns in which it is at least one, with the digits behind the
point that are not trailing zeros.
-/
namespace ScriptHost

/-- A length of time, in nanoseconds. -/
structure Duration where
  nanos : Nat
  deriving DecidableEq, Repr, Inhabited

namespace Duration

/-- Nanoseconds in a second. -/
def second : Nat := 1000000000

/-- So many seconds and nanoseconds; the nanoseconds may exceed a second. -/
def ofParts (secs nanos : Nat) : Duration := ⟨secs * second + nanos⟩

def ofMillis (ms : Nat) : Duration := ⟨ms * 1000000⟩

/-- Whole seconds. -/
def secs (d : Duration) : Nat := d.nanos / second

/-- Nanoseconds beyond the whole seconds. -/
def subsecNanos (d : Duration) : Nat := d.nanos % second

/-- Whole milliseconds. -/
def millis (d : Duration) : Nat := d.nanos / 1000000

/-- The greatest duration: 64 bits of seconds. -/
def maximum : Duration := ⟨(UInt64.size - 1) * second + (second - 1)⟩

instance : LE Duration := ⟨fun a b => a.nanos ≤ b.nanos⟩
instance : LT Duration := ⟨fun a b => a.nanos < b.nanos⟩
instance (a b : Duration) : Decidable (a ≤ b) := inferInstanceAs (Decidable (a.nanos ≤ b.nanos))
instance (a b : Duration) : Decidable (a < b) := inferInstanceAs (Decidable (a.nanos < b.nanos))

/-- Digits with zeros in front up to `width`. -/
def padded (width n : Nat) : List Char :=
  let digits := Nat.toDigits 10 n
  List.replicate (width - digits.length) '0' ++ digits

/-- `n` units of `size` nanoseconds with up to `places` digits behind the point. -/
def inUnit (nanos size places : Nat) (unit : String) : String :=
  let fraction := ((padded places (nanos % size)).reverse.dropWhile (· == '0')).reverse
  let point := if fraction.isEmpty then [] else '.' :: fraction
  String.ofList (Nat.toDigits 10 (nanos / size) ++ point) ++ unit

/-- A duration in its largest fitting unit. -/
def text (d : Duration) : String :=
  if d.nanos ≥ second then inUnit d.nanos second 9 "s"
  else if d.nanos ≥ 1000000 then inUnit d.nanos 1000000 6 "ms"
  else if d.nanos ≥ 1000 then inUnit d.nanos 1000 3 "µs"
  else inUnit d.nanos 1 0 "ns"

end Duration
end ScriptHost
