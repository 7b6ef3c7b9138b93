import Tollgate.Difficulty.Profile
import Tollgate.Time.Duration

/-!
Samples of the load on a resource, and the level they ask for.
-/

namespace Tollgate

/-- Numbers of requests in successive spans of time of equal width, the oldest first. -/
structure LoadSample where
  width : Duration
  counts : List UInt64
deriving DecidableEq

namespace LoadSample

/-- Numbers of requests per minute. -/
def perMinute (counts : List UInt64) : LoadSample :=
  ⟨.ofSeconds 60, counts⟩

/-- The sums of weighted counts and of weights; the weight of the first count is one more than
`before`. -/
def weigh (sum weights : Float) (before : Nat) : List UInt64 → Float × Float
  | [] => (sum, weights)
  | count :: rest =>
    let weight := (before + 1).toUInt64.toFloat
    weigh (sum + weight * count.toFloat) (weights + weight) (before + 1) rest

/-- Requests per second; the newest of `n` spans counts `n` times as much as the oldest. -/
def weightedRate (sample : LoadSample) : Float :=
  let seconds := sample.width.toSeconds
  if sample.counts.isEmpty || seconds <= 0.0 then 0.0
  else
    let (sum, weights) := weigh 0.0 0.0 0 sample.counts
    sum / weights / seconds

end LoadSample

/-- Chooses levels from load samples. -/
structure Strategy where
  /-- The level before there is any sample. -/
  initial : Level
  target : LoadSample → Level

/-- Pressure grows with the logarithm of the load over a baseline. -/
structure LogGrowth where
  profile : Profile
  /-- The load considered normal, in requests per second. -/
  baseline : Float

namespace LogGrowth

/-- The smallest positive normal number. -/
def smallestBaseline : Float :=
  Float.ofBits 0x0010000000000000

/-- A baseline that is not above the smallest positive number, or no number, counts as that one. -/
def of (profile : Profile) (baseline : Float) : LogGrowth :=
  ⟨profile, if baseline > smallestBaseline then baseline else smallestBaseline⟩

/-- The pressure at a rate; none up to the baseline. -/
def pressure (g : LogGrowth) (rate : Float) : Float :=
  if rate <= g.baseline then 0.0
  else (rate / g.baseline).log2 * g.profile.growth.factor

def strategy (g : LogGrowth) : Strategy where
  initial := g.profile.low
  target := fun sample => g.profile.interpolate (g.pressure sample.weightedRate)

end LogGrowth

end Tollgate
