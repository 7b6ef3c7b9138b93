import Tollgate.Time.Duration

/-!
Leaky buckets: bursts of some tokens, refilled one token per interval.

Credit is counted in nanoseconds: a token is worth one interval of them. Refilling is then a plain
addition of elapsed nanoseconds, without rounding.
-/

namespace Tollgate.Rate

/-- The largest unsigned 64-bit number. Credit is capped there. -/
def creditLimit : Nat := 0xffffffffffffffff

/-- The size of a burst, and the time that refills one token. -/
structure Limits where
  capacity : UInt32
  interval : Duration
deriving DecidableEq

namespace Limits

/-- The credit that one token is worth, at least one nanosecond. -/
def unit (l : Limits) : Nat :=
  max 1 (min l.interval.nanos creditLimit)

/-- The most credit that a bucket can hold. -/
def maxLevel (l : Limits) : Nat :=
  min (l.capacity.toNat * l.unit) creditLimit

/-- Tokens per second. -/
def rate (l : Limits) : Float :=
  1.0 / l.interval.toSeconds

theorem one_le_unit (l : Limits) : 1 ≤ l.unit :=
  Nat.le_max_left _ _

theorem unit_le (l : Limits) : l.unit ≤ creditLimit :=
  Nat.max_le.2 ⟨by decide, Nat.min_le_right _ _⟩

end Limits

/-- The credit of one caller. -/
structure Bucket where
  limits : Limits
  level : Nat
  lastRefill : Instant
deriving DecidableEq

namespace Bucket

/-- A full bucket. -/
def full (limits : Limits) (now : Instant) : Bucket :=
  ⟨limits, limits.maxLevel, now⟩

/-- The tokens it holds, with fractions. -/
def tokens (b : Bucket) : Float :=
  b.level.toUInt64.toFloat / b.limits.unit.toUInt64.toFloat

/-- Adds the credit of the time since the last refill; an instant that is not later adds nothing. -/
def refill (b : Bucket) (now : Instant) : Bucket :=
  if now ≤ b.lastRefill then b
  else
    let elapsed := min (now.since b.lastRefill) creditLimit
    { b with
      level := min (min (b.level + elapsed) creditLimit) b.limits.maxLevel
      lastRefill := now }

/-- Refills and then takes a token, if there is one. -/
def tryConsume (b : Bucket) (now : Instant) : Bool × Bucket :=
  let b := b.refill now
  if b.limits.unit ≤ b.level then (true, { b with level := b.level - b.limits.unit })
  else (false, b)

/-- Adopts other limits. The credit is worth the same number of tokens as before, rounded down and
capped at the new capacity. -/
def updateLimits (b : Bucket) (limits : Limits) : Bucket :=
  let rescaled := b.level * limits.unit / b.limits.unit
  { b with limits, level := min (min rescaled creditLimit) limits.maxLevel }

/-- How long until there is a token. -/
def timeUntilAvailable (b : Bucket) (now : Instant) : Duration :=
  let b := b.refill now
  if b.limits.capacity = 0 then .never
  else if b.limits.unit ≤ b.level then .zero
  else .ofNanos (b.limits.unit - b.level)

end Bucket

end Tollgate.Rate
