import Tollgate.Decimal.Reading
import Tollgate.Decimal.Shortest
import Tollgate.Text.Digits

/-!
TOML values: what a settings file holds, and what it may stand for.

Scalars may stand for one another: a number for its text, the text of a number for the number, some
words for the truth values.
-/

namespace Tollgate.Toml

/-- A value of a settings file; the keys of a table keep their order. Dates are texts. -/
inductive Value
  /-- Stands in an array where nothing was given. -/
  | missing
  | boolean (value : Bool)
  | integer (value : Int)
  | float (value : Float)
  | text (value : String)
  | array (elements : List Value)
  | table (entries : List (String × Value))

/-- A table as a list of its entries. -/
abbrev Table := List (String × Value)

/-- Puts a value under a key, in place of the one there was. -/
def Table.put (key : String) (value : Value) (table : Table) : Table :=
  if (table.lookup key).isSome then table.map fun (k, old) => (k, if k = key then value else old)
  else table ++ [(key, value)]

namespace Value

/-- The entries of a table; other values have none. -/
def entries : Value → Table
  | .table entries => entries
  | _ => []

/-- The elements of an array; other values have none. -/
def elements : Value → List Value
  | .array elements => elements
  | _ => []

mutual

/-- What stands in a place after a value has been put there: a table adds to the entries of another, all
else takes the place of what there was. -/
def mergeInto : Value → Value → Value
  | .table entries, old => .table (mergeAll entries old.entries)
  | value, _ => value

/-- A table with entries put into it one by one. -/
def mergeAll : List (String × Value) → Table → Table
  | [], old => old
  | (key, value) :: rest, old =>
    mergeAll rest (old.put key (value.mergeInto ((old.lookup key).getD .missing)))

end

end Value

/-! ### What scalars stand for -/

/-- Words for the two truth values. -/
def truth? (s : String) : Option Bool :=
  match s.map Char.toLower with
  | "true" | "on" | "yes" => some true
  | "false" | "off" | "no" => some false
  | _ => none

namespace Value

def text? : Value → Option String
  | .text s => some s
  | .boolean b => some (toString b)
  | .integer n => some (toString n)
  | .float x => some (Decimal.plain x)
  | .missing | .array _ | .table _ => none

def boolean? : Value → Option Bool
  | .boolean b => some b
  | .integer n => some (n != 0)
  | .float x => some (x != 0.0)
  | .text "1" => some true
  | .text "0" => some false
  | .text s => truth? s
  | .missing | .array _ | .table _ => none

/-- Whole numbers of 64 bits. A fraction is rounded, a half away from zero, and cut to 64 bits. -/
def natural? : Value → Option Nat
  | .integer n => if 0 ≤ n then some n.toNat else none
  | .float x => some x.round.toUInt64.toNat
  | .boolean b => some b.toNat
  | .text s => ((truth? s).map Bool.toNat).or (Text.word? s)
  | .missing | .array _ | .table _ => none

def float? : Value → Option Float
  | .float x => some x
  | .integer n =>
    let magnitude := n.natAbs.toUInt64.toFloat
    some (if n < 0 then -magnitude else magnitude)
  | .boolean b => some (if b then 1.0 else 0.0)
  | .text s => ((truth? s).map fun b => if b then 1.0 else 0.0).or (Decimal.ofText? s)
  | .missing | .array _ | .table _ => none

/-- The name of a choice: a text, or the only key of a table. -/
def name? : Value → Option String
  | .text s => some s
  | .table [(name, _)] => some name
  | _ => none

end Value

end Tollgate.Toml
