import Tollgate.Toml.Value

/-!
Numbers in settings files.

Underscores may stand between digits. Whole numbers have 64 bits and may be written to other bases; a
number with a point has digits on both sides of it and is not beyond the largest float.
-/

namespace Tollgate.Toml

open Tollgate.Text

/-- A text without its underscores, which have to stand between digits to a base. -/
def withoutLines? (base : Nat) : List Char → Option (List Char)
  | [] => some []
  | c :: '_' :: d :: rest =>
    if (digitIn? base c).isSome && (digitIn? base d).isSome then
      (c :: ·) <$> withoutLines? base (d :: rest)
    else none
  | c :: rest => if c == '_' then none else (c :: ·) <$> withoutLines? base rest

/-- A whole number, if it has 64 bits. -/
def integerOf? (n : Int) : Option Value :=
  if -0x8000000000000000 ≤ n ∧ n < 0x8000000000000000 then some (.integer n) else none

/-- A whole number to another base. -/
def based? (base : Nat) (digits : List Char) : Option Value := do
  integerOf? (← numberIn? base (← withoutLines? base digits))

/-- A number to base ten without its sign. -/
def decimal? (negative : Bool) (cs : List Char) : Option Value := do
  let cs ← withoutLines? 10 cs
  let whole := cs.takeWhile isDigit
  if whole.isEmpty ∨ (1 < whole.length ∧ whole.head? = some '0') then none
  match cs.dropWhile isDigit with
  | [] =>
    let n : Int := digitsValue whole
    integerOf? (if negative then -n else n)
  | rest =>
    if rest.head? = some '.' ∧ !(rest.drop 1).head?.any isDigit then none
    let x ← Decimal.unsigned? cs
    if x.isInf then none else some (.float (if negative then -x else x))

/-- The number that a word tells. -/
def number? (word : List Char) : Option Value :=
  let (negative, cs) := sign word
  match cs with
  | ['i', 'n', 'f'] => some (.float (if negative then -1.0 / 0.0 else 1.0 / 0.0))
  | ['n', 'a', 'n'] => some (.float (0.0 / 0.0))
  | _ =>
    match word with
    | '0' :: 'x' :: digits => based? 16 digits
    | '0' :: 'o' :: digits => based? 8 digits
    | '0' :: 'b' :: digits => based? 2 digits
    | _ => decimal? negative cs

end Tollgate.Toml
