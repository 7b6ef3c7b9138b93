import Tollgate.Decimal.Fixed
import Tollgate.Time.Duration

/-!
Counts and lengths of time as people read them.
-/

namespace Tollgate.Solver

/-- A count, in thousands, millions or billions if it is that large. -/
def countText (n : UInt64) : String :=
  if n ≥ 1000000000 then Decimal.fixed 2 (n.toFloat / 1000000000.0) ++ "B"
  else if n ≥ 1000000 then Decimal.fixed 2 (n.toFloat / 1000000.0) ++ "M"
  else if n ≥ 1000 then Decimal.fixed 1 (n.toFloat / 1000.0) ++ "K"
  else toString n.toNat

/-- Seconds, in minutes, hours or days if they are that many. -/
def secondsText (seconds : UInt64) : String :=
  if seconds ≥ 86400 then Decimal.fixed 1 (seconds.toFloat / 86400.0) ++ " days"
  else if seconds ≥ 3600 then Decimal.fixed 1 (seconds.toFloat / 3600.0) ++ " hours"
  else if seconds ≥ 60 then Decimal.fixed 1 (seconds.toFloat / 60.0) ++ " minutes"
  else toString seconds.toNat ++ " seconds"

/-- A measured length of time with two places, in the largest unit of which it is at least one. -/
def elapsedText (d : Duration) : String :=
  let inUnits := fun (unit : Nat) =>
    Decimal.withPlaces 2 (Decimal.roundQuotient .toEven (d.nanos * 100) unit)
  if d.nanos ≥ 1000000000 then inUnits 1000000000 ++ "s"
  else if d.nanos ≥ 1000000 then inUnits 1000000 ++ "ms"
  else if d.nanos ≥ 1000 then inUnits 1000 ++ "µs"
  else inUnits 1 ++ "ns"

end Tollgate.Solver
