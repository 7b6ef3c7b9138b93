import Tollgate.Difficulty.Level
import Tollgate.Failure
import Tollgate.Json.Value
import Tollgate.Time.Duration

/-!
Difficulty profiles: the levels of one resource, and how they are chosen from the pressure on it.
-/

namespace Tollgate

/-- How fast difficulty rises with load. -/
inductive Growth
  /-- Never rises above the low level. -/
  | constant
  /-- Reaches the medium level at sixteen times the baseline. -/
  | slow
  /-- Reaches the medium level at four times the baseline. -/
  | medium
  /-- Reaches the medium level at twice the baseline. -/
  | fast
deriving DecidableEq, Repr

namespace Growth

/-- The pressure gained each time the load doubles. -/
def factor : Growth → Float
  | .constant => 0.0
  | .slow => 0.25
  | .medium => 0.5
  | .fast => 1.0

def name : Growth → String
  | .constant => "constant"
  | .slow => "slow"
  | .medium => "medium"
  | .fast => "fast"

def ofName? : String → Option Growth
  | "constant" => some .constant
  | "slow" => some .slow
  | "medium" => some .medium
  | "fast" => some .fast
  | _ => none

def codec : Codec Growth :=
  .choice ofName?

end Growth

/-- The difficulty settings of one resource. -/
structure Profile where
  /-- The level under normal load. -/
  low : Level := ⟨10⟩
  /-- The level at pressure one. -/
  medium : Level := ⟨14⟩
  /-- The level at pressure two and above. -/
  high : Level := ⟨18⟩
  growth : Growth := .medium
  /-- For how many seconds an issued puzzle is valid. -/
  validitySeconds : UInt64 := 300
  /-- How many solutions a puzzle asks for. -/
  solutions : UInt8 := 8
deriving DecidableEq, Repr

namespace Profile

/-- Why a profile is not consistent. -/
inductive Fault
  | tooDifficult (bits : UInt8)
  | notAscending (low medium high : UInt8)
  | noSolutions
  | noValidity
deriving DecidableEq, Repr

def Fault.text : Fault → String
  | .tooDifficult bits => s!"difficulty {bits.toNat} exceeds maximum {Level.highest.toNat}"
  | .notAscending low medium high =>
    s!"difficulty levels must satisfy low <= medium <= high (got {low.toNat}/{medium.toNat}/{high.toNat})"
  | .noSolutions => "solutions must be at least 1"
  | .noValidity => "validity_secs must be positive"

def Fault.failure (fault : Fault) : Failure :=
  ⟨.config, fault.text⟩

/-- Checks the order of the levels and the ranges. -/
def validate (p : Profile) : Except Fault Unit := do
  if p.high.bits > Level.highest then throw (.tooDifficult p.high.bits)
  if ¬(p.low ≤ p.medium ∧ p.medium ≤ p.high) then
    throw (.notAscending p.low.bits p.medium.bits p.high.bits)
  if p.solutions = 0 then throw .noSolutions
  if p.validitySeconds = 0 then throw .noValidity

def level (p : Profile) : Tier → Level
  | .low => p.low
  | .medium => p.medium
  | .high => p.high

def validity (p : Profile) : Duration :=
  .ofSeconds p.validitySeconds

/-- The level `fraction` of the way from one level to another, in whole bits and not above `high`. -/
def between (lower upper : Level) (fraction : Float) (high : Level) : Level :=
  let span := (upper.bits.toNat - lower.bits.toNat).toUInt8
  let steps := (span.toFloat * fraction).floor.toUInt8
  Level.inf (.ofBits (min (lower.bits.toNat + steps.toNat) 255).toUInt8) high

/-- The level for a pressure: from low to medium as it goes from zero to one, from medium to high as
it goes on to two. -/
def interpolate (p : Profile) (pressure : Float) : Level :=
  if pressure.isNaN || pressure <= 0.0 then p.low
  else if pressure >= 2.0 then p.high
  else if pressure <= 1.0 then between p.low p.medium pressure p.high
  else between p.medium p.high (pressure - 1.0) p.high

def fields : List (Field Profile) := [
  .of "low" .defaulted Level.codec fun p low => { p with low },
  .of "medium" .defaulted Level.codec fun p medium => { p with medium },
  .of "high" .defaulted Level.codec fun p high => { p with high },
  .of "growth" .defaulted Growth.codec fun p growth => { p with growth },
  .of "validity_secs" .defaulted .word64 fun p validitySeconds => { p with validitySeconds },
  .of "solutions" .defaulted .byte fun p solutions => { p with solutions }]

def codec : Codec Profile :=
  .record fields {}

def toJson (p : Profile) : Json :=
  .object [
    ("low", .integer p.low.bits.toNat),
    ("medium", .integer p.medium.bits.toNat),
    ("high", .integer p.high.bits.toNat),
    ("growth", .text p.growth.name),
    ("validity_secs", .integer p.validitySeconds.toNat),
    ("solutions", .integer p.solutions.toNat)]

end Profile

end Tollgate
