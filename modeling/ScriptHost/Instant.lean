import ScriptHost.Duration

/-!
# Moments on a clock

A clock that only goes forward counts nanoseconds from a moment before the
program began. It has 63 bits for the seconds, so a moment that lies too far
ahead cannot be told.
-/
namespace ScriptHost

/-- A moment, in nanoseconds. -/
structure Instant where
  nanos : Nat
  deriving DecidableEq, Repr, Inhabited

namespace Instant

/-- The first moment that the clock cannot tell. -/
def limit : Nat := Nat.pow 2 63 * Duration.second

/-- The moment a duration later, if the clock can tell it. -/
def after? (t : Instant) (d : Duration) : Option Instant :=
  if t.nanos + d.nanos < limit then some ⟨t.nanos + d.nanos⟩ else none

instance : LE Instant := ⟨fun a b => a.nanos ≤ b.nanos⟩
instance (a b : Instant) : Decidable (a ≤ b) := inferInstanceAs (Decidable (a.nanos ≤ b.nanos))

end Instant
end ScriptHost
