import Tollgate.Text.Digits

/-!
Reading a decimal as the nearest floating-point number.
-/

namespace Tollgate.Decimal

open Tollgate.Text

/-- The number `significand · 10 ^ power`, where the significand has `count` digits. Powers are cut to
those that make a difference. -/
def ofDigits (significand count : Nat) (power : Int) : Float :=
  if significand = 0 then 0.0
  else if power ≥ 0 then Float.ofScientific significand false (min power.toNat 400)
  else Float.ofScientific significand true (min (-power).toNat (count + 400))

/-- The power of ten that a text without sign ends with: nothing, or a letter, a sign and digits. -/
def power? : List Char → Option Int
  | [] => some 0
  | c :: rest =>
    if c == 'e' || c == 'E' then
      let (negative, digits) := sign rest
      (natural? digits).map fun n => if negative then -(n : Int) else n
    else none

/-- The number that digits with an optional point and an optional power of ten tell. A point needs a
digit on one side only. -/
def unsigned? (cs : List Char) : Option Float := do
  let whole := cs.takeWhile isDigit
  let rest := cs.dropWhile isDigit
  let (fraction, rest) := match rest with
    | '.' :: more => (more.takeWhile isDigit, more.dropWhile isDigit)
    | _ => ([], rest)
  let digits := whole ++ fraction
  if digits.isEmpty then none
  let power ← power? rest
  return ofDigits (digitsValue digits) digits.length (power - fraction.length)

/-- The number that a text tells: a decimal, an infinity or no number, with a sign in front or without. -/
def ofText? (s : String) : Option Float := do
  let (negative, cs) := sign s.toList
  let name := (String.ofList cs).map Char.toLower
  let magnitude ←
    if name = "inf" ∨ name = "infinity" then some (1.0 / 0.0)
    else if name = "nan" then some (0.0 / 0.0)
    else unsigned? cs
  return if negative then -magnitude else magnitude

end Tollgate.Decimal
