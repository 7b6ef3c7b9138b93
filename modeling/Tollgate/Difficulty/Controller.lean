import Tollgate.Difficulty.Load
import Tollgate.Time.Ticker

/-!
Difficulty controllers: the level in force follows the load, upward at once and downward slowly.
-/

namespace Tollgate

/-- The timing and inertia of a controller. -/
structure ControllerSettings where
  /-- The time between refreshes. -/
  refreshInterval : Duration := .ofSeconds 180
  /-- How long a level holds before it may fall. -/
  epoch : Duration := .ofSeconds 900
  /-- A fall must be by at least so many bits. -/
  stepDownMargin : UInt8 := 2
deriving DecidableEq

/-- What a controller publishes. -/
structure Snapshot where
  /-- The level in force. -/
  level : Level
  /-- The level that the last sample asked for. -/
  target : Level
  /-- The rate of the last sample. -/
  rate : Float
  /-- How many refreshes have succeeded. -/
  version : Nat
  /-- When the level last changed. -/
  epochStarted : Instant
  refreshedAt : Option Instant

namespace Snapshot

/-- What is published before the first refresh. -/
def initial (level : Level) (now : Instant) : Snapshot :=
  ⟨level, level, 0.0, 0, now, none⟩

/-- Whether the level in force may fall to `target`. -/
def mayFall (settings : ControllerSettings) (s : Snapshot) (target : Level) (now : Instant) : Bool :=
  let margin := max settings.stepDownMargin.toNat 1
  settings.epoch.nanos ≤ now.since s.epochStarted && target.bits.toNat + margin ≤ s.level.bits.toNat

/-- What is published after a sample: the level rises at once, and falls only once it has held for an
epoch and by at least the margin. -/
def next (settings : ControllerSettings) (s : Snapshot) (target : Level) (rate : Float)
    (now : Instant) : Snapshot :=
  let changes := s.level < target || (target < s.level && s.mayFall settings target now)
  { level := if changes then target else s.level
    target
    rate
    version := s.version + 1
    epochStarted := if changes then now else s.epochStarted
    refreshedAt := some now }

end Snapshot

/-- Keeps the level of one resource. -/
structure Controller where
  name : String
  strategy : Strategy
  settings : ControllerSettings
  snapshot : Snapshot
  /-- How many refreshes have failed for want of a sample. -/
  failures : Nat

namespace Controller

def new (name : String) (strategy : Strategy) (settings : ControllerSettings) (now : Instant) :
    Controller :=
  ⟨name, strategy, settings, .initial strategy.initial now, 0⟩

def level (c : Controller) : Level :=
  c.snapshot.level

/-- Takes in a sample, or the failure to get one, which leaves the snapshot as it is. -/
def refresh (c : Controller) (sample : Except Failure LoadSample) (now : Instant) :
    Except Failure Snapshot × Controller :=
  match sample with
  | .ok sample =>
    let snapshot :=
      c.snapshot.next c.settings (c.strategy.target sample) sample.weightedRate now
    (.ok snapshot, { c with snapshot })
  | .error failure => (.error failure, { c with failures := c.failures + 1 })

/-- When to refresh from now on, the first time at once. Without time between refreshes there are none. -/
def ticker? (c : Controller) (now : Instant) : Option Ticker :=
  if c.settings.refreshInterval = .zero then none else some ⟨c.settings.refreshInterval, now⟩

end Controller

end Tollgate
