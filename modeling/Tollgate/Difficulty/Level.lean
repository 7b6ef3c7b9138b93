import Tollgate.Schema

/-!
Levels of difficulty, and the three tiers that a profile names.
-/

namespace Tollgate

/-- How many leading zero bits a work hash must have. -/
structure Level where
  bits : UInt8
deriving DecidableEq, Repr

namespace Level

/-- The highest level that an issued puzzle may have. -/
def highest : UInt8 := 40

instance : LE Level := ⟨fun x y => x.bits ≤ y.bits⟩

instance : LT Level := ⟨fun x y => x.bits < y.bits⟩

instance (x y : Level) : Decidable (x ≤ y) := inferInstanceAs (Decidable (x.bits ≤ y.bits))

instance (x y : Level) : Decidable (x < y) := inferInstanceAs (Decidable (x.bits < y.bits))

/-- The level of so many bits, or the highest one. -/
def ofBits (bits : UInt8) : Level :=
  ⟨min bits highest⟩

def lowest : Level := ⟨0⟩

/-- How many hashes it takes on average to find a solution. -/
def expectedHashes (level : Level) : Float :=
  Float.scaleB 1.0 (level.bits.toNat : Int)

/-- The level so many bits lower, or the lowest one. -/
def lower (level : Level) (steps : UInt8) : Level :=
  ⟨(level.bits.toNat - steps.toNat).toUInt8⟩

/-- The higher of two levels. -/
def sup (x y : Level) : Level :=
  if x ≤ y then y else x

/-- The lower of two levels. -/
def inf (x y : Level) : Level :=
  if x ≤ y then x else y

/-- Any byte is read as a level, also beyond the highest one. -/
def codec : Codec Level where
  json := do return ⟨← Codec.byte.json⟩
  toml := fun value => Level.mk <$> Codec.byte.toml value

end Level

/-- The named levels of a profile. -/
inductive Tier
  | low
  | medium
  | high
deriving DecidableEq, Repr

namespace Tier

def name : Tier → String
  | .low => "low"
  | .medium => "medium"
  | .high => "high"

def ofName? : String → Option Tier
  | "low" => some .low
  | "medium" => some .medium
  | "high" => some .high
  | _ => none

def codec : Codec Tier :=
  .choice ofName?

end Tier

end Tollgate
