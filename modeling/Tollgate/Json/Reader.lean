import Tollgate.Text.Digits

/-!
Reading JSON texts from left to right, directly into the values wanted.

Nothing is read before it is asked for, so of two faults the first one in the text is reported: either
the text is no JSON from some point on, or a value at some point is not of the kind asked for. A value
that nobody asks for is only checked for its form. In a text that comes as bytes there may be places
where they spell no character; a text literal may only have them if nobody asks for it.
-/

namespace Tollgate.Json

/-- Why a JSON text cannot be read as the value wanted. -/
inductive Fault
  /-- The text is not JSON. -/
  | illFormed
  /-- The text may be JSON, but holds a value of another kind. -/
  | unfit
deriving DecidableEq, Repr

/-- Consumes characters from the front of a text, some of which may not be spelled. -/
abbrev Reader := StateT (List (Option Char)) (Except Fault)

namespace Read

/-- The four characters that may stand between the parts of a text. -/
def isSpace (c : Char) : Bool :=
  c == ' ' || c == '\n' || c == '\t' || c == '\r'

/-- The next character, left in the text. -/
def next? : Reader (Option Char) := do
  return (← get).head?.join

/-- The next character after spaces, left in the text. -/
def peek? : Reader (Option Char) := do
  modify (·.dropWhile (·.any isSpace))
  next?

/-- Drops the next character. -/
def skip : Reader Unit :=
  modify (·.drop 1)

/-- Consumes exactly these characters. -/
def expect (word : String) : Reader Unit := do
  let rest ← get
  if (word.toList.map some).isPrefixOf rest then set (rest.drop word.length)
  else throw .illFormed

/-- Consumes spaces and then this character. -/
def expectAfterSpaces (c : Char) : Reader Unit := do
  if (← peek?) = some c then skip else throw .illFormed

/-! ### Text literals -/

/-- The value of four hexadecimal digits, and what follows them. -/
def fourDigits? : List (Option Char) → Option (Nat × List (Option Char))
  | some a :: some b :: some c :: some d :: rest => (Text.numberIn? 16 [a, b, c, d]).map (·, rest)
  | _ => none

/-- The character that a one-letter escape stands for. -/
def simpleEscape? : Char → Option Char
  | '"' => some '"'
  | '\\' => some '\\'
  | '/' => some '/'
  | 'b' => some '\x08'
  | 'f' => some '\x0c'
  | 'n' => some '\n'
  | 'r' => some '\r'
  | 't' => some '\t'
  | _ => none

/-- The character that starts with the code unit `unit`; the upper half of a pair needs its lower
half right behind it, and a lower half cannot stand alone. -/
def unitChar? (unit : Nat) (rest : List (Option Char)) : Option (Char × List (Option Char)) :=
  if 0xDC00 ≤ unit ∧ unit ≤ 0xDFFF then none
  else if 0xD800 ≤ unit ∧ unit ≤ 0xDBFF then
    match rest with
    | some '\\' :: some 'u' :: more => do
      let (low, rest) ← fourDigits? more
      if 0xDC00 ≤ low ∧ low ≤ 0xDFFF then
        return (Char.ofNat (0x10000 + (unit - 0xD800) * 0x400 + (low - 0xDC00)), rest)
      else none
    | _ => none
  else some (Char.ofNat unit, rest)

/-- What follows a backslash: the character meant, and the rest. -/
def escape? : List (Option Char) → Option (Char × List (Option Char))
  | some 'u' :: more => do
    let (unit, rest) ← fourDigits? more
    unitChar? unit rest
  | some c :: rest => do
    return (← simpleEscape? c, rest)
  | _ => none

/-- Reads up to the closing quote; `fuel` bounds the number of characters. -/
def literal? : Nat → List (Option Char) → Option (List Char × List (Option Char))
  | fuel + 1, some c :: rest =>
    if c = '"' then some ([], rest)
    else if c = '\\' then do
      let (meant, rest) ← escape? rest
      let (more, rest) ← literal? fuel rest
      return (meant :: more, rest)
    else if c.toNat < 32 then none
    else do
      let (more, rest) ← literal? fuel rest
      return (c :: more, rest)
  | _, _ => none

/-- Skips up to the closing quote. Escapes need only be complete, so halves of pairs may stand alone,
and what spells no character is passed over. -/
def skipLiteral? : Nat → List (Option Char) → Option (List (Option Char))
  | fuel + 1, some c :: rest =>
    if c = '"' then some rest
    else if c = '\\' then
      match rest with
      | some 'u' :: more => do
        let (_, rest) ← fourDigits? more
        skipLiteral? fuel rest
      | some e :: rest => if (simpleEscape? e).isSome then skipLiteral? fuel rest else none
      | _ => none
    else if c.toNat < 32 then none
    else skipLiteral? fuel rest
  | fuel + 1, none :: rest => skipLiteral? fuel rest
  | _, _ => none

/-- The rest of a text literal whose opening quote has been consumed. -/
def literalBody : Reader String := do
  let rest ← get
  match literal? (rest.length + 1) rest with
  | some (cs, rest) => set rest; return String.ofList cs
  | none => throw .illFormed

/-! ### Numbers -/

/-- A number as written: whole numbers of 64 bits are kept exactly, all others are floating-point
numbers. -/
inductive Number
  | natural (value : Nat)
  | negative (value : Int)
  | float (value : Float)

/-- Consumes digits. -/
def digits : Reader (List Char) := do
  let rest ← get
  set (rest.dropWhile (·.any Text.isDigit))
  return (rest.takeWhile (·.any Text.isDigit)).filterMap id

/-- The largest unsigned 64-bit number. -/
def wordLimit : Nat := 0xffffffffffffffff

/-- Adds digits to a significand as long as it fits into 64 bits; also gives the number of digits
that were left out. -/
def accumulate (significand : Nat) : List Char → Nat × Nat
  | [] => (significand, 0)
  | d :: rest =>
    let larger := significand * 10 + Text.digitValue d
    if larger > wordLimit then (significand, rest.length + 1) else accumulate larger rest

/-- The largest exponent that is applied in one step. -/
def maxPower : Nat := 308

def powerOfTen (exponent : Nat) : Float :=
  Float.ofScientific 1 false exponent

/-- Scales a significand by a power of ten with floating-point operations, in steps of at most
`10 ^ 308`; a number beyond the largest one is a fault. -/
def scale (fuel : Nat) (f : Float) (exponent : Int) : Option Float :=
  match fuel with
  | 0 => some f
  | fuel + 1 =>
    if exponent.natAbs ≤ maxPower then
      if exponent ≥ 0 then
        let g := f * powerOfTen exponent.toNat
        if g.isInf then none else some g
      else some (f / powerOfTen exponent.natAbs)
    else if f == 0.0 then some f
    else if exponent ≥ 0 then none
    else scale fuel (f / powerOfTen maxPower) (exponent + maxPower)

/-- The number with these parts. Beyond a few steps of scaling the significand has become zero, so
twelve suffice. -/
def assemble (isNegative : Bool) (significand : Nat) (exponent : Int) : Reader Number :=
  match scale 12 significand.toUInt64.toFloat exponent with
  | some f => return .float (if isNegative then -f else f)
  | none => throw .illFormed

/-- The largest exponent that can be written out. -/
def exponentLimit : Nat := 0x7fffffff

/-- Reads an exponent whose letter comes next, on top of the exponent `start`. -/
def exponentPart (isNegative : Bool) (significand : Nat) (start : Int) : Reader Number := do
  skip
  let downward ← match ← next? with
    | some '-' => skip; pure true
    | some '+' => skip; pure false
    | _ => pure false
  let ds ← digits
  if ds.isEmpty then throw .illFormed
  let exponent := Text.digitsValue ds
  if exponent > exponentLimit then
    if significand ≠ 0 ∧ !downward then throw .illFormed
    return .float (if isNegative then -0.0 else 0.0)
  assemble isNegative significand (if downward then start - exponent else start + exponent)

/-- Whether an exponent comes next. -/
def atExponent : Reader Bool := do
  return (← next?) = some 'e' || (← next?) = some 'E'

/-- Reads a number; its sign has been consumed. -/
def unsignedNumber (isNegative : Bool) : Reader Number := do
  let whole ← digits
  if whole.isEmpty then throw .illFormed
  if whole.length > 1 ∧ whole.head? = some '0' then throw .illFormed
  let (significand, dropped) := accumulate 0 whole
  if (← next?) = some '.' then
    skip
    let fraction ← digits
    if fraction.isEmpty then throw .illFormed
    -- Digits of the fraction count only as long as they fit.
    let (significand, left) := accumulate significand fraction
    let exponent : Int := (dropped : Int) + left - fraction.length
    if ← atExponent then exponentPart isNegative significand exponent
    else assemble isNegative significand exponent
  else if ← atExponent then exponentPart isNegative significand dropped
  else if dropped > 0 then assemble isNegative significand dropped
  else if !isNegative then return .natural significand
  else if 0 < significand ∧ significand ≤ 0x8000000000000000 then return .negative (-significand)
  else return .float (-significand.toUInt64.toFloat)

/-- Reads a number. -/
def number : Reader Number := do
  if (← next?) = some '-' then
    skip
    unsignedNumber true
  else unsignedNumber false

/-- Skips a number of any size. -/
def skipNumber : Reader Unit := do
  if (← next?) = some '-' then skip
  let whole ← digits
  if whole.isEmpty ∨ (whole.length > 1 ∧ whole.head? = some '0') then throw .illFormed
  if (← next?) = some '.' then
    skip
    if (← digits).isEmpty then throw .illFormed
  if ← atExponent then
    skip
    if (← next?) = some '+' || (← next?) = some '-' then skip
    if (← digits).isEmpty then throw .illFormed

/-! ### Values of a given kind -/

/-- The fault of a value that is not of the kind asked for. A word, number or text literal must still
be complete. -/
def reject {α : Type} : Reader α := do
  match ← peek? with
  | some 'n' => expect "null"; throw .unfit
  | some 't' => expect "true"; throw .unfit
  | some 'f' => expect "false"; throw .unfit
  | some '"' => skip; let _ ← literalBody; throw .unfit
  | some '[' | some '\x7b' => throw .unfit
  | some c =>
    if c == '-' || Text.isDigit c then
      let _ ← number
      throw .unfit
    else throw .illFormed
  | none => throw .illFormed

def text : Reader String := do
  match ← peek? with
  | some '"' => skip; literalBody
  | _ => reject

def boolean : Reader Bool := do
  match ← peek? with
  | some 't' => expect "true"; return true
  | some 'f' => expect "false"; return false
  | _ => reject

/-- A number of either form. -/
def anyNumber : Reader Number := do
  match ← peek? with
  | some c => if c == '-' || Text.isDigit c then number else reject
  | none => throw .illFormed

/-- A whole number from zero to `limit`. -/
def natural (limit : Nat) : Reader Nat := do
  match ← anyNumber with
  | .natural value => if value ≤ limit then return value else throw .unfit
  | _ => throw .unfit

/-- A number; whole numbers are converted. -/
def float : Reader Float := do
  match ← anyNumber with
  | .natural value => return value.toUInt64.toFloat
  | .negative value => return -value.natAbs.toUInt64.toFloat
  | .float value => return value

/-- The value, or nothing for `null`. -/
def optional {α : Type} (value : Reader α) : Reader (Option α) := do
  if (← peek?) = some 'n' then
    expect "null"
    return none
  return some (← value)

/-- Reads further elements up to the closing bracket; `fuel` bounds their number. -/
def moreElements {α : Type} (element : Reader α) : Nat → Reader (List α)
  | 0 => throw .illFormed
  | fuel + 1 => do
    match ← peek? with
    | some ']' => skip; return []
    | some ',' => do
      skip
      if (← peek?) = some ']' then throw .illFormed
      let first ← element
      return first :: (← moreElements element fuel)
    | _ => throw .illFormed

/-- An array of values. -/
def array {α : Type} (element : Reader α) : Reader (List α) := do
  match ← peek? with
  | some '[' =>
    skip
    let fuel := (← get).length + 1
    if (← peek?) = some ']' then
      skip
      return []
    let first ← element
    return first :: (← moreElements element fuel)
  | _ => reject

/-- One of some names, as a text or as the only key of an object with the value `null`. -/
def choice {α : Type} (named : String → Option α) : Reader α := do
  let look := fun (name : String) => match named name with
    | some a => pure a
    | none => throw Fault.unfit
  match ← peek? with
  | some '"' => skip; look (← literalBody)
  | some '\x7b' =>
    skip
    let chosen ← look (← text)
    expectAfterSpaces ':'
    if (← peek?) = some 'n' then expect "null" else reject
    expectAfterSpaces '\x7d'
    return chosen
  | _ => throw .illFormed

/-! ### Values nobody asks for -/

/-- An open bracket. -/
inductive Bracket
  | square
  | curly
deriving DecidableEq, Repr

/-- Skips a text literal whose opening quote has been consumed. -/
def skipLiteralBody : Reader Unit := do
  let rest ← get
  match skipLiteral? (rest.length + 1) rest with
  | some rest => set rest
  | none => throw .illFormed

/-- Skips a key and its colon. -/
def skipKey : Reader Unit := do
  expectAfterSpaces '"'
  skipLiteralBody
  expectAfterSpaces ':'

mutual

/-- Skips a value inside the brackets `opened`, the innermost first, and then everything up to the
last of their ends; `fuel` bounds the number of steps. -/
def skipNested : Nat → List Bracket → Reader Unit
  | 0, _ => throw .illFormed
  | fuel + 1, opened => do
    match ← peek? with
    | some 'n' => expect "null"; skipAfter fuel opened
    | some 't' => expect "true"; skipAfter fuel opened
    | some 'f' => expect "false"; skipAfter fuel opened
    | some '"' => skip; skipLiteralBody; skipAfter fuel opened
    | some '[' => do
      skip
      if (← peek?) = some ']' then
        skip
        skipAfter fuel opened
      else skipNested fuel (.square :: opened)
    | some '\x7b' => do
      skip
      if (← peek?) = some '\x7d' then
        skip
        skipAfter fuel opened
      else
        skipKey
        skipNested fuel (.curly :: opened)
    | some c => if c == '-' || Text.isDigit c then do skipNumber; skipAfter fuel opened else throw .illFormed
    | none => throw .illFormed

/-- Skips what follows a value inside the brackets `opened`. -/
def skipAfter : Nat → List Bracket → Reader Unit
  | 0, _ => throw .illFormed
  | _, [] => return ()
  | fuel + 1, bracket :: opened => do
    match ← peek?, bracket with
    | some ',', .square => skip; skipNested fuel (.square :: opened)
    | some ',', .curly => skip; skipKey; skipNested fuel (.curly :: opened)
    | some ']', .square => skip; skipAfter fuel opened
    | some '\x7d', .curly => skip; skipAfter fuel opened
    | _, _ => throw .illFormed

end

/-- Skips a value of any kind. -/
def skipValue : Reader Unit := do
  skipNested (2 * (← get).length + 2) []

/-- Reads a whole text: nothing but spaces may follow the value. -/
def readAll {α : Type} (value : Reader α) (cs : List (Option Char)) : Except Fault α := do
  let (a, rest) ← value.run cs
  if rest.all (·.any isSpace) then return a else throw .illFormed

end Read

end Tollgate.Json
