import Tollgate.Difficulty.Level
import Tollgate.Owner
import Tollgate.Time.Calendar

/-!
Puzzles: challenges bound to an owner and to a span of time.
-/

namespace Tollgate

/-- A challenge. Times are in seconds since 1970. -/
structure Puzzle where
  id : UInt64
  owner : Owner
  difficulty : Level
  /-- How many independent solutions are asked for. -/
  solutions : UInt8
  issuedAt : UInt64
  expiresAt : UInt64
  salt : Octets 16
deriving DecidableEq

/-- A point of the wall clock at a full second, if that second has a date. -/
def Timestamp.ofSecond? (second : Nat) : Option Timestamp :=
  if second ≤ Timestamp.lastSecond then some (.ofSeconds second) else none

namespace Puzzle

/-- When the puzzle expires, if that has a date. -/
def expiry? (p : Puzzle) : Option Timestamp :=
  Timestamp.ofSecond? p.expiresAt.toNat

/-- The last point at which the puzzle is accepted, if that has a date. -/
def deadline? (p : Puzzle) (tolerance : UInt64) : Option Timestamp :=
  Timestamp.ofSecond? (min (p.expiresAt.toNat + tolerance.toNat) 0xffffffffffffffff)

/-- Whether it is later than the expiry by more than `tolerance` seconds, fractions included. -/
def isExpired (p : Puzzle) (now : Timestamp) (tolerance : UInt64) : Bool :=
  match p.deadline? tolerance with
  | some deadline => deadline.nanos < now.nanos
  | none => false

/-- The seconds of validity that are left. -/
def remainingSeconds (p : Puzzle) (now : Timestamp) : Nat :=
  p.expiresAt.toNat - now.seconds.toNat

end Puzzle

end Tollgate
