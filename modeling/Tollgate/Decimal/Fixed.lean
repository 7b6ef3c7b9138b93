import Tollgate.Decimal.Dyadic

/-!
Numbers written with a fixed number of decimal places, rounded from their exact value.
-/

namespace Tollgate.Decimal

/-- Writes `units / 10 ^ places` with exactly `places` places. -/
def withPlaces (places units : Nat) : String :=
  let fraction := (toString (units % Nat.pow 10 places)).toList
  let whole := toString (units / Nat.pow 10 places)
  if places = 0 then whole
  else whole ++ "." ++ String.ofList (List.replicate (places - fraction.length) '0' ++ fraction)

/-- The number with `places` decimal places; a half goes to the even neighbour. -/
def fixed (places : Nat) (x : Float) : String :=
  match Numeral.ofFloat x with
  | .nan => "NaN"
  | .infinite negative => if negative then "-inf" else "inf"
  | .finite d =>
    let (numerator, denominator) := d.scaled places
    let text := withPlaces places (roundQuotient .toEven numerator denominator)
    if d.negative then "-" ++ text else text

end Tollgate.Decimal
