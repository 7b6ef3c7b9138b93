/-!
Floating-point numbers as exact fractions `mantissa · 2 ^ exponent`, and rounding of quotients.
-/

namespace Tollgate.Decimal

/-- A finite floating-point number, exactly. -/
structure Dyadic where
  negative : Bool
  mantissa : Nat
  exponent : Int
deriving DecidableEq, Repr

/-- What a floating-point number is. -/
inductive Numeral
  | nan
  | infinite (negative : Bool)
  | finite (value : Dyadic)
deriving DecidableEq, Repr

/-- Decodes the bits of a binary64 number. -/
def Numeral.ofBits (bits : UInt64) : Numeral :=
  let negative := bits >>> 63 == 1
  let biased := ((bits >>> 52) &&& 0x7ff).toNat
  let fraction := (bits &&& 0xfffffffffffff).toNat
  if biased = 2047 then
    if fraction = 0 then .infinite negative else .nan
  else if biased = 0 then .finite ⟨negative, fraction, -1074⟩
  else .finite ⟨negative, fraction + 0x10000000000000, (biased : Int) - 1075⟩

def Numeral.ofFloat (x : Float) : Numeral :=
  if x.isNaN then .nan else .ofBits x.toBits

/-- Numerator and denominator of the absolute value times `10 ^ places`. -/
def Dyadic.scaled (d : Dyadic) (places : Nat) : Nat × Nat :=
  if d.exponent ≥ 0 then (d.mantissa * Nat.pow 2 d.exponent.toNat * Nat.pow 10 places, 1)
  else (d.mantissa * Nat.pow 10 places, Nat.pow 2 (-d.exponent).toNat)

/-- Which way a quotient half-way between two whole numbers is rounded. -/
inductive Tie
  | toEven
  | away
deriving DecidableEq, Repr

/-- The whole number nearest to `numerator / denominator`. -/
def roundQuotient (tie : Tie) (numerator denominator : Nat) : Nat :=
  let floor := numerator / denominator
  let twice := 2 * (numerator % denominator)
  if twice < denominator then floor
  else if twice > denominator then floor + 1
  else
    match tie with
    | .away => floor + 1
    | .toEven => if floor % 2 = 0 then floor else floor + 1

end Tollgate.Decimal
