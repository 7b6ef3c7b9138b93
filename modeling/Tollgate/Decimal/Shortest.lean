import Tollgate.Decimal.Dyadic

/-!
The shortest decimal that reads back as a given floating-point number.

A decimal reads back as the number exactly if it lies in the interval of reals that round to it. For
one digit, two digits and so on, the two neighbours of the number on that decimal grid are tried; the
first grid with a neighbour inside the interval wins, and of two neighbours the nearer one. Of two that
are equally near each format takes its own.
-/

namespace Tollgate.Decimal

/-- The decimal `digits · 10 ^ exponent`. -/
structure Scientific where
  digits : Nat
  exponent : Int
deriving DecidableEq, Repr

/-- Numbers over a common denominator: the value, and the ends of the interval that rounds to it. -/
structure Interval where
  low : Nat
  value : Nat
  high : Nat
  denominator : Nat
  /-- Whether the ends belong to the interval. -/
  closed : Bool
deriving DecidableEq, Repr

/-- The interval of a positive number `mantissa · 2 ^ exponent`. Below a power of two the next smaller
number is only half as far away. -/
def Interval.of (mantissa : Nat) (exponent : Int) : Interval :=
  let atPower := mantissa == 0x10000000000000 && exponent > -1074
  let value := 4 * mantissa
  let low := if atPower then value - 1 else value - 2
  let high := value + 2
  let closed := mantissa % 2 == 0
  if exponent ≥ 2 then
    let scale := Nat.pow 2 (exponent - 2).toNat
    ⟨low * scale, value * scale, high * scale, 1, closed⟩
  else ⟨low, value, high, Nat.pow 2 (2 - exponent).toNat, closed⟩

/-- Whether `numerator / denominator` lies in the interval. -/
def Interval.holds (i : Interval) (numerator denominator : Nat) : Bool :=
  let point := numerator * i.denominator
  if i.closed then i.low * denominator ≤ point && point ≤ i.high * denominator
  else i.low * denominator < point && point < i.high * denominator

/-- Scales the interval by the power of ten `10 ^ (-exponent)`. -/
def Interval.shift (i : Interval) (exponent : Int) : Interval :=
  if exponent ≥ 0 then { i with denominator := i.denominator * Nat.pow 10 exponent.toNat }
  else
    let scale := Nat.pow 10 (-exponent).toNat
    { i with low := i.low * scale, value := i.value * scale, high := i.high * scale }

/-- The neighbour of the value on the grid of whole numbers that lies in the interval, if any. -/
def Interval.onGrid? (tie : Tie) (i : Interval) : Option Nat :=
  let below := i.value / i.denominator
  let above := below + 1
  match i.holds below 1, i.holds above 1 with
  | true, true => some (roundQuotient tie i.value i.denominator)
  | true, false => some below
  | false, true => some above
  | false, false => none

/-- The largest `k` with `10 ^ k ≤ numerator / denominator`, searched from `guess` upward. -/
def magnitudeFrom (numerator denominator : Nat) (guess : Int) : Nat → Int
  | 0 => guess
  | fuel + 1 =>
    let next := guess + 1
    let reached :=
      if next ≥ 0 then denominator * Nat.pow 10 next.toNat ≤ numerator
      else denominator ≤ numerator * Nat.pow 10 (-next).toNat
    if reached then magnitudeFrom numerator denominator next fuel else guess

/-- Tries grids of `count` digits, of `count + 1` digits and so on. -/
def shortestFrom (tie : Tie) (i : Interval) (magnitude : Int) (count : Nat) : Nat → Scientific
  | 0 => ⟨0, 0⟩
  | fuel + 1 =>
    let exponent := magnitude + 1 - count
    match (i.shift exponent).onGrid? tie with
    | some digits => ⟨digits, exponent⟩
    | none => shortestFrom tie i magnitude (count + 1) fuel

/-- Moves the zeros at the end of the digits into the exponent. -/
def Scientific.normalize (s : Scientific) : Nat → Scientific
  | 0 => s
  | fuel + 1 =>
    if s.digits ≠ 0 ∧ s.digits % 10 = 0 then
      Scientific.normalize ⟨s.digits / 10, s.exponent + 1⟩ fuel
    else s

/-- The shortest decimal that reads back as `mantissa · 2 ^ exponent`. -/
def shortest (tie : Tie) (mantissa : Nat) (exponent : Int) : Scientific :=
  if mantissa = 0 then ⟨0, 0⟩
  else
    let i := Interval.of mantissa exponent
    let bits : Int := (mantissa.log2 : Int) + exponent
    let guess := bits * 30103 / 100000 - 2
    (shortestFrom tie i (magnitudeFrom i.value i.denominator guess 6) 1 20).normalize 400

/-- The text of a positive decimal in positional notation, without a point for whole numbers. -/
def Scientific.positional (s : Scientific) : String :=
  let text := toString s.digits
  if s.exponent ≥ 0 then text ++ String.ofList (List.replicate s.exponent.toNat '0')
  else
    let places := (-s.exponent).toNat
    let padded := List.replicate (places + 1 - text.length) '0' ++ text.toList
    let whole := padded.length - places
    String.ofList (padded.take whole ++ '.' :: padded.drop whole)

/-- The shortest text that reads back, in positional notation; a half goes away from zero. -/
def plain (x : Float) : String :=
  match Numeral.ofFloat x with
  | .nan => "NaN"
  | .infinite negative => if negative then "-inf" else "inf"
  | .finite d =>
    let text := (shortest .away d.mantissa d.exponent).positional
    if d.negative then "-" ++ text else text

/-- The shortest text that reads back, always with a point or an exponent: positional from `1e-5` up
to below `1e16`, with an exponent beyond; a half goes to the even neighbour. -/
def pointed (x : Float) : String :=
  match Numeral.ofFloat x with
  | .nan | .infinite _ => "null"
  | .finite d =>
    let s := shortest .toEven d.mantissa d.exponent
    let digits := toString s.digits
    let magnitude := s.exponent + digits.length
    let text :=
      if s.digits = 0 then "0.0"
      else if -5 < magnitude ∧ magnitude ≤ 16 then
        if s.exponent ≥ 0 then s.positional ++ ".0" else s.positional
      else
        let fraction := if digits.length = 1 then "" else "." ++ String.ofList (digits.toList.drop 1)
        String.ofList (digits.toList.take 1) ++ fraction ++ "e" ++ toString (magnitude - 1)
    if d.negative then "-" ++ text else text

end Tollgate.Decimal
