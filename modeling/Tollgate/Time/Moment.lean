import Tollgate.Time.Calendar
import Tollgate.Time.Duration

/-!
What the two clocks show at one moment.
-/

namespace Tollgate

/-- The monotonic clock and the wall clock, read together. -/
structure Moment where
  clock : Instant
  wall : Timestamp
deriving DecidableEq

/-- The moment some nanoseconds later. -/
def Moment.later (now : Moment) (nanos : Nat) : Moment :=
  ⟨now.clock + nanos, ⟨now.wall.nanos + nanos⟩⟩

end Tollgate
