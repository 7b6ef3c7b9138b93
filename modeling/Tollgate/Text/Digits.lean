/-!
Digits, and whole numbers in decimal digits.
-/

namespace Tollgate.Text

def isDigit (c : Char) : Bool :=
  '0' ≤ c && c ≤ '9'

/-- The number that a digit stands for. -/
def digitValue (c : Char) : Nat :=
  c.toNat - 48

/-- The value of a digit to a base of at most sixteen, in either case. -/
def digitIn? (base : Nat) (c : Char) : Option Nat :=
  let code := c.toNat
  let value :=
    if 48 ≤ code ∧ code ≤ 57 then code - 48
    else if 97 ≤ code ∧ code ≤ 102 then code - 87
    else if 65 ≤ code ∧ code ≤ 70 then code - 55
    else base
  if value < base then some value else none

/-- The number that digits to a base tell, the highest first, if there are any. -/
def numberIn? (base : Nat) (digits : List Char) : Option Nat := do
  if digits.isEmpty then none
  let values ← digits.mapM (digitIn? base)
  return values.foldl (fun n d => n * base + d) 0

/-- The number that decimal digits tell, the highest first; zero if there are none. -/
def digitsValue (digits : List Char) : Nat :=
  digits.foldl (fun n c => n * 10 + digitValue c) 0

/-- The number that a text of at least one digit and nothing else tells. -/
def natural? (cs : List Char) : Option Nat :=
  if cs.isEmpty || !cs.all isDigit then none else some (digitsValue cs)

/-- A sign in front of a text, whether it is a minus, and what follows. -/
def sign (cs : List Char) : Bool × List Char :=
  match cs with
  | '-' :: rest => (true, rest)
  | '+' :: rest => (false, rest)
  | rest => (false, rest)

/-- A number of 64 bits; a plus sign may stand in front. -/
def word? (s : String) : Option Nat :=
  let digits := match s.toList with
    | '+' :: digits => digits
    | digits => digits
  (natural? digits).filter (· ≤ 0xffffffffffffffff)

/-- A whole number of 64 bits, negative ones included; a sign may stand in front. -/
def integer? (s : String) : Option Int :=
  let (negative, digits) := sign s.toList
  let value := (natural? digits).map fun n => if negative then -(n : Int) else n
  value.filter fun n => -0x8000000000000000 ≤ n ∧ n < 0x8000000000000000

end Tollgate.Text
