import Tollgate.Failure
import Tollgate.Puzzle.Basic
import Tollgate.Recency
import Tollgate.Time.Duration

/-!
Counting how often a solved puzzle has been presented.
-/

namespace Tollgate

/-- What presentations are counted by. -/
structure ReplayKey where
  owner : Owner
  puzzle : UInt64
deriving DecidableEq

def ReplayKey.display (key : ReplayKey) : String :=
  key.owner.display ++ ":" ++ Text.Hex.ofWord key.puzzle

/-- A presentation to be counted: up to `limit` of them are accepted, and the counter has to live for
`ttl`. -/
structure Presentation where
  key : ReplayKey
  limit : UInt32
  ttl : Duration
deriving DecidableEq

/-- Counts a presentation in a store: tells whether it is accepted, or fails. -/
abbrev Tracker (σ : Type) := Presentation → σ → Except Crash (Except Failure Bool) × σ

/-- The number of presentations of a puzzle, until it expires. -/
structure Counter where
  count : Nat
  expires : Instant
deriving DecidableEq

namespace Counter

/-- The highest number counted. -/
def limit : Nat := 0xffffffff

def isLive (c : Counter) (now : Instant) : Bool :=
  now < c.expires

/-- One more presentation. -/
def next (c : Counter) : Counter :=
  { c with count := min (c.count + 1) limit }

end Counter

/-- Counters kept in memory, at most `capacity` of them. Beyond that the counter touched longest ago is
dropped. -/
structure ReplayLedger where
  capacity : Nat
  counters : Recency ReplayKey Counter
deriving DecidableEq

namespace ReplayLedger

/-- A ledger without counters; there is room for at least one. -/
def new (capacity : Nat) : ReplayLedger :=
  ⟨max 1 capacity, .empty⟩

def size (l : ReplayLedger) : Nat :=
  l.counters.size

/-- Drops expired counters. -/
def purge (l : ReplayLedger) (now : Instant) : ReplayLedger :=
  { l with counters := l.counters.filter fun _ c => c.isLive now }

/-- How many counters `purge` drops. -/
def expiredCount (l : ReplayLedger) (now : Instant) : Nat :=
  l.size - (l.purge now).size

/-- Drops expired counters from the end touched longest ago, up to the first live one. -/
def trim (l : ReplayLedger) (now : Instant) : ReplayLedger :=
  let live := fun (entry : ReplayKey × Counter) => entry.2.isLive now
  { l with counters := ⟨(l.counters.entries.reverse.dropWhile fun entry => !live entry).reverse⟩ }

/-- Puts a counter; a new one may take the room of the one touched longest ago. -/
def put (l : ReplayLedger) (key : ReplayKey) (c : Counter) : ReplayLedger :=
  let counters :=
    if l.counters.contains key || l.size < l.capacity then l.counters else l.counters.dropOldest
  { l with counters := counters.put key c }

/-- Counts a presentation at an instant. -/
def present (now : Instant) : Tracker ReplayLedger := fun p l =>
  -- Looking a counter up touches it, whether it has expired or not.
  let touched := { l with counters := l.counters.touch p.key }
  match (l.counters.find? p.key).filter (·.isLive now) with
  | some c =>
    let c := c.next
    (.ok (.ok (c.count ≤ p.limit.toNat)), { l with counters := l.counters.put p.key c })
  | none =>
    match now.after? p.ttl with
    | none => (.error .clockOverflow, touched)
    | some expires => (.ok (.ok (1 ≤ p.limit.toNat)), (touched.trim now).put p.key ⟨1, expires⟩)

end ReplayLedger

end Tollgate
