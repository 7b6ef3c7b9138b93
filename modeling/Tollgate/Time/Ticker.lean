import Tollgate.Time.Duration

/-!
Work done again and again at equal intervals.
-/

namespace Tollgate

/-- When work is due next, and the time between two times. -/
structure Ticker where
  interval : Duration
  next : Instant
deriving DecidableEq

namespace Ticker

/-- Work that is due for the first time after one interval. -/
def after (interval : Duration) (now : Instant) : Ticker :=
  ⟨interval, now + interval.nanos⟩

/-- The times at which work is due up to an instant, that instant included. Where there is no time between
them only the last one is told. -/
def due (t : Ticker) (now : Instant) : List Instant :=
  if now < t.next then []
  else if t.interval.nanos = 0 then [now]
  else
    (List.range ((now.since t.next) / t.interval.nanos + 1)).map fun i =>
      t.next + (i * t.interval.nanos : Nat)

/-- The times at which any of some tickers has work due up to an instant, in their order. -/
def dueOf (tickers : List Ticker) (now : Instant) : List Instant :=
  (tickers.flatMap (·.due now)).mergeSort

/-- The ticker after all work due up to an instant has been done. -/
def advance (t : Ticker) (now : Instant) : Ticker :=
  { t with next := t.next + ((t.due now).length * t.interval.nanos : Nat) }

end Ticker

end Tollgate
