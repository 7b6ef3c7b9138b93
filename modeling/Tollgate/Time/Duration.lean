import Tollgate.Decimal.Shortest

/-!
Lengths of time in whole nanoseconds, and points of a clock that never goes back.

A number of seconds becomes a length of time if it is neither negative nor beyond the longest one.

Main statement: the whole seconds of a length of time fit into 64 bits.
-/

namespace Tollgate

/-- The longest length of time: `2 ^ 64 - 1` seconds and `999999999` nanoseconds. -/
def Duration.limit : Nat := 18446744073709551615999999999

/-- A length of time; the longest one stands for "never". -/
structure Duration where
  nanos : Nat
  nanos_le : nanos ≤ Duration.limit
deriving DecidableEq

namespace Duration

def zero : Duration := ⟨0, Nat.zero_le _⟩

/-- The longest length of time. -/
def never : Duration := ⟨limit, Nat.le_refl _⟩

instance : Inhabited Duration := ⟨zero⟩

/-- That many nanoseconds, or the longest length of time if they are more. -/
def ofNanos (nanos : Nat) : Duration :=
  ⟨min nanos limit, Nat.min_le_right _ _⟩

/-- That many seconds. -/
def ofSeconds (seconds : UInt64) : Duration :=
  ⟨seconds.toNat * 1000000000, by
    have bound := seconds.toNat_lt
    simp only [limit]
    omega⟩

/-- That many milliseconds. -/
def ofMillis (millis : UInt64) : Duration :=
  ⟨millis.toNat * 1000000, by
    have bound := millis.toNat_lt
    simp only [limit]
    omega⟩

/-- The whole seconds in it. -/
def seconds (d : Duration) : Nat :=
  d.nanos / 1000000000

/-- The nanoseconds beyond the whole seconds. -/
def subsecNanos (d : Duration) : Nat :=
  d.nanos % 1000000000

/-- The whole milliseconds in it. -/
def millis (d : Duration) : Nat :=
  d.nanos / 1000000

theorem seconds_lt (d : Duration) : d.seconds < 0x10000000000000000 := by
  have bound := d.nanos_le
  simp only [limit] at bound
  simp only [seconds]
  omega

/-- The length in seconds: whole seconds and nanoseconds are converted apart and then added. -/
def toSeconds (d : Duration) : Float :=
  d.seconds.toUInt64.toFloat + d.subsecNanos.toUInt64.toFloat / 1000000000

/-- Why a number of seconds is no length of time. -/
inductive Fault
  | negative
  | tooBig
deriving DecidableEq, Repr

def Fault.message : Fault → String
  | .negative => "cannot convert float seconds to Duration: value is negative"
  | .tooBig => "cannot convert float seconds to Duration: value is either too big or NaN"

/-- The length of so many seconds, rounded to the nearest nanosecond, a half to the even one. Negative
zero is no negative number. -/
def ofNumeral? : Decimal.Numeral → Except Fault Duration
  | .nan => .error .tooBig
  | .infinite negative => .error (if negative then .negative else .tooBig)
  | .finite d =>
    if d.negative ∧ d.mantissa ≠ 0 then .error .negative
    else
      let (numerator, denominator) := d.scaled 9
      let nanos := Decimal.roundQuotient .toEven numerator denominator
      if fits : nanos ≤ limit then .ok ⟨nanos, fits⟩ else .error .tooBig

def ofSeconds? (seconds : Float) : Except Fault Duration :=
  ofNumeral? (.ofFloat seconds)

end Duration

/-- A point of the monotonic clock, in nanoseconds. -/
abbrev Instant := Int

/-- The last second the monotonic clock can show. -/
def Instant.lastSecond : Nat := 0x7fffffffffffffff

/-- The nanoseconds from an earlier instant to this one, none if it is not earlier. -/
def Instant.since (now earlier : Instant) : Nat :=
  (now - earlier).toNat

/-- The instant after a length of time, if the clock can show it. -/
def Instant.after? (now : Instant) (d : Duration) : Option Instant :=
  let later := now + d.nanos
  if later / 1000000000 ≤ Instant.lastSecond then some later else none

end Tollgate
