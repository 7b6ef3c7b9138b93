/-!
Points of the wall clock and their text in the Gregorian calendar.
-/

namespace Tollgate

/-- A point of the wall clock, in nanoseconds since the first second of 1970, in UTC. -/
structure Timestamp where
  nanos : Int
deriving DecidableEq, Repr

namespace Timestamp

def ofSeconds (seconds : Int) : Timestamp :=
  ⟨seconds * 1000000000⟩

/-- The second it lies in; before 1970 these are negative. -/
def seconds (t : Timestamp) : Int :=
  t.nanos / 1000000000

/-- The nanoseconds since its second began. -/
def subsecNanos (t : Timestamp) : Nat :=
  (t.nanos % 1000000000).toNat

/-- The last second that has a date. -/
def lastSecond : Int := 8210266876799

/-- A day of the Gregorian calendar. -/
structure Date where
  year : Int
  month : Nat
  day : Nat
deriving DecidableEq, Repr

/-- The date of a day counted from the first of January 1970. Years are counted from March on, so that
a leap day is the last day of its year; an era has four hundred years. -/
def Date.ofDay (day : Int) : Date :=
  let shifted := day + 719468
  let era := shifted / 146097
  let dayOfEra := (shifted % 146097).toNat
  let yearOfEra := (dayOfEra - dayOfEra / 1460 + dayOfEra / 36524 - dayOfEra / 146096) / 365
  let dayOfYear := dayOfEra - (365 * yearOfEra + yearOfEra / 4 - yearOfEra / 100)
  let marchMonth := (5 * dayOfYear + 2) / 153
  let dayOfMonth := dayOfYear - (153 * marchMonth + 2) / 5 + 1
  let month := if marchMonth < 10 then marchMonth + 3 else marchMonth - 9
  let year := era * 400 + yearOfEra + (if month ≤ 2 then 1 else 0)
  ⟨year, month, dayOfMonth⟩

/-- A number with zeros in front, at least `width` digits. -/
def padded (width n : Nat) : String :=
  let digits := toString n
  String.ofList (List.replicate (width - digits.length) '0') ++ digits

/-- A year of four digits; beyond those it has a sign. -/
def yearText (year : Int) : String :=
  if 0 ≤ year ∧ year ≤ 9999 then padded 4 year.toNat
  else (if year < 0 then "-" else "+") ++ padded 4 year.natAbs

/-- A fraction of a second with three, six or nine digits, as few as are exact. -/
def fractionText (nanos : Nat) : String :=
  if nanos = 0 then ""
  else if nanos % 1000000 = 0 then "." ++ padded 3 (nanos / 1000000)
  else if nanos % 1000 = 0 then "." ++ padded 6 (nanos / 1000)
  else "." ++ padded 9 nanos

/-- Date and time of day. -/
def text (t : Timestamp) : String :=
  let date := Date.ofDay (t.seconds / 86400)
  let second := (t.seconds % 86400).toNat
  let day := yearText date.year ++ "-" ++ padded 2 date.month ++ "-" ++ padded 2 date.day
  let time := padded 2 (second / 3600) ++ ":" ++ padded 2 (second / 60 % 60) ++ ":" ++
    padded 2 (second % 60)
  day ++ " " ++ time ++ fractionText t.subsecNanos ++ " UTC"

end Timestamp

end Tollgate
