import Tollgate.Failure
import Tollgate.Text.Split
import Tollgate.Toml.Value

/-!
Keys that are paths: `sites[0].site_key` means a place inside what stands under `sites`.

What is on the way to the place is made if it is not there, and gives way if it is of another kind.
-/

namespace Tollgate.Toml

/-- Characters of names; a key of other characters needs quotes. -/
def isNameChar (c : Char) : Bool :=
  Text.isDigit c || ('a' ≤ c && c ≤ 'z') || ('A' ≤ c && c ≤ 'Z') || c == '_' || c == '-'

/-- Characters between the parts of a line. -/
def isSpace (c : Char) : Bool :=
  c == ' ' || c == '\t'

/-- A step from a value to one inside it. -/
inductive Step
  | entry (name : String)
  /-- An index below zero counts from the end. -/
  | element (index : Int)
deriving DecidableEq, Repr

namespace Step

/-- An index of 64 bits with its closing bracket; spaces may surround it. -/
def element? (cs : List Char) : Option Step := do
  if cs.getLast? ≠ some ']' then none
  let digits := ((cs.dropLast.dropWhile isSpace).reverse.dropWhile isSpace).reverse
  if digits.head? = some '+' then none
  return .element (← Text.integer? (String.ofList digits))

/-- A name, with indexes behind it or without. -/
def ofPart? (cs : List Char) : Option (List Step) := do
  match Text.split '[' cs with
  | [] => none
  | name :: indexes =>
    if name.isEmpty || !name.all isNameChar then none
    return .entry (String.ofList name) :: (← indexes.mapM element?)

/-- The steps that a key tells, its parts separated by points. A key that is no path is one name. -/
def ofKey (key : String) : List Step :=
  (((Text.split '.' key.toList).mapM ofPart?).map List.flatten).getD [.entry key]

end Step

/-- Room for the element at an index: the elements, with missing ones at the end or in front where there
are too few, and the place of the element among them. -/
def roomAt (index : Int) (elements : List Value) : List Value × Nat :=
  let count := index.natAbs
  if 0 ≤ index then
    (elements ++ List.replicate (count + 1 - elements.length) .missing, count)
  else
    (List.replicate (count - elements.length) .missing ++ elements, elements.length - count)

/-- Puts a value at the end of a path, which starts at `old`. -/
def Value.putAt (value : Value) : List Step → Value → Value
  | [], old => value.mergeInto old
  | .entry name :: path, old =>
    .table (old.entries.put name
      (putAt value path ((old.entries.lookup name).getD .missing)))
  | .element index :: path, old =>
    let (elements, place) := roomAt index old.elements
    .array (elements.modify place (putAt value path))

/-- The number of bytes of a value in an array. -/
def valueBytes : Nat := 96

/-- Whether there can be an array with such an element. -/
def Step.hasRoom : Step → Bool
  | .entry _ => true
  | .element index => (index.natAbs + 1) * valueBytes ≤ longestList

/-- The table in which what stood under a path stands at its end. -/
def Table.spread (table : Table) : Except Crash Value :=
  let moves := table.map fun (key, value) => (Step.ofKey key, value)
  if moves.all fun (path, _) => path.all Step.hasRoom then
    .ok (moves.foldl (fun spread (path, value) => value.putAt path spread) (.table []))
  else .error .lengthOverflow

end Tollgate.Toml
