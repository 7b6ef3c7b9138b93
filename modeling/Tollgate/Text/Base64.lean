import Tollgate.Text.Utf8

/-!
Base64, strict: no blanks, no missing or surplus bits, and padding exactly as the engine says.

A text is read as bytes, so that offsets in faults count bytes. Its last one to four bytes are the
tail; everything before the tail comes in complete groups of four symbols.
-/

namespace Tollgate.Text.Base64

/-- An alphabet is told by its last two symbols; the others are letters and digits. -/
structure Alphabet where
  sixtyTwo : Char
  sixtyThree : Char
deriving DecidableEq, Repr

def Alphabet.standard : Alphabet := ⟨'+', '/'⟩

def Alphabet.urlSafe : Alphabet := ⟨'-', '_'⟩

/-- Whether a text is filled up with `=` to a multiple of four symbols. -/
inductive Padding
  | required
  | forbidden
deriving DecidableEq, Repr

/-- The symbol of a value below sixty-four. -/
def Alphabet.symbol (a : Alphabet) (value : Nat) : Char :=
  if value < 26 then Char.ofNat (65 + value)
  else if value < 52 then Char.ofNat (71 + value)
  else if value < 62 then Char.ofNat (value - 4)
  else if value = 62 then a.sixtyTwo
  else a.sixtyThree

/-- The value of a symbol, given as a byte. -/
def Alphabet.value? (a : Alphabet) (byte : UInt8) : Option Nat :=
  let code := byte.toNat
  if 65 ≤ code ∧ code ≤ 90 then some (code - 65)
  else if 97 ≤ code ∧ code ≤ 122 then some (code - 71)
  else if 48 ≤ code ∧ code ≤ 57 then some (code + 4)
  else if code = a.sixtyTwo.toNat then some 62
  else if code = a.sixtyThree.toNat then some 63
  else none

/-- The six-bit values that hold the bytes; the last one is filled up with zero bits. -/
def toSextets : List UInt8 → List Nat
  | a :: b :: c :: rest =>
    a.toNat / 4 :: (a.toNat % 4 * 16 + b.toNat / 16) :: (b.toNat % 16 * 4 + c.toNat / 64) ::
      c.toNat % 64 :: toSextets rest
  | [a, b] => [a.toNat / 4, a.toNat % 4 * 16 + b.toNat / 16, b.toNat % 16 * 4]
  | [a] => [a.toNat / 4, a.toNat % 4 * 16]
  | [] => []

/-- The bytes held by six-bit values; bits beyond the last whole byte are dropped. -/
def ofSextets : List Nat → List UInt8
  | a :: b :: c :: d :: rest =>
    UInt8.ofNat (a * 4 + b / 16) :: UInt8.ofNat (b % 16 * 16 + c / 4) ::
      UInt8.ofNat (c % 4 * 64 + d) :: ofSextets rest
  | [a, b, c] => [UInt8.ofNat (a * 4 + b / 16), UInt8.ofNat (b % 16 * 16 + c / 4)]
  | [a, b] => [UInt8.ofNat (a * 4 + b / 16)]
  | [_] => []
  | [] => []

/-- Tells whether the bits beyond the last whole byte are all zero. -/
def spareBitsAreZero (sextets : List Nat) : Bool :=
  match sextets.length % 4 with
  | 2 => sextets.getLastD 0 % 16 == 0
  | 3 => sextets.getLastD 0 % 4 == 0
  | _ => true

/-- The text of some bytes. -/
def encode (a : Alphabet) (padding : Padding) (bytes : List UInt8) : String :=
  let symbols := (toSextets bytes).map a.symbol
  match padding with
  | .forbidden => String.ofList symbols
  | .required => String.ofList (symbols ++ List.replicate ((4 - symbols.length % 4) % 4) '=')

/-- Why a text is not base64. -/
inductive Fault
  | invalidSymbol (byte : UInt8) (offset : Nat)
  | invalidLength (symbols : Nat)
  | invalidLastSymbol (byte : UInt8) (offset : Nat)
  | invalidPadding
deriving DecidableEq, Repr

def Fault.message : Fault → String
  | .invalidSymbol byte offset => s!"Invalid symbol {byte.toNat}, offset {offset}."
  | .invalidLength symbols => s!"Invalid input length: {symbols}"
  | .invalidLastSymbol byte offset => s!"Invalid last symbol {byte.toNat}, offset {offset}."
  | .invalidPadding => "Invalid padding"

/-- The byte of the padding character. -/
def pad : UInt8 := 61

/-- The values of consecutive symbols, the first of them at `offset`. -/
def groupValues (a : Alphabet) (offset : Nat) : List UInt8 → Except Fault (List Nat)
  | [] => .ok []
  | byte :: rest =>
    match a.value? byte with
    | none => .error (.invalidSymbol byte offset)
    | some value => (groupValues a (offset + 1) rest).map (value :: ·)

/-- What the tail of a text holds. -/
structure Tail where
  sextets : List Nat
  padding : Nat
  /-- Where the first padding byte stands. -/
  paddedFrom : Nat
deriving DecidableEq, Repr

/-- Reads the tail from position `position` of it on; the tail starts at `start`. -/
def readTail (a : Alphabet) (start position : Nat) (tail : Tail) :
    List UInt8 → Except Fault Tail
  | [] => .ok tail
  | byte :: rest =>
    if byte = pad then
      if position < 2 then .error (.invalidSymbol byte (start + position))
      else
        let paddedFrom := if tail.padding = 0 then start + position else tail.paddedFrom
        readTail a start (position + 1) ⟨tail.sextets, tail.padding + 1, paddedFrom⟩ rest
    else if tail.padding ≠ 0 then .error (.invalidSymbol pad tail.paddedFrom)
    else
      match a.value? byte with
      | none => .error (.invalidSymbol byte (start + position))
      | some value => readTail a start (position + 1) ⟨tail.sextets ++ [value], 0, 0⟩ rest

/-- Tells whether the padding is as the engine wants it. -/
def paddingFits (padding : Padding) (tail : Tail) : Bool :=
  match padding with
  | .forbidden => tail.padding == 0
  | .required => (tail.sextets.length + tail.padding) % 4 == 0

/-- A single byte left over after whole groups can hold no data, so if it is no symbol either it is
reported before anything else. -/
def strayByte? (a : Alphabet) (bytes : List UInt8) : Option Fault :=
  match bytes.getLast? with
  | some last =>
    if bytes.length % 4 = 1 ∧ last ≠ pad ∧ (a.value? last).isNone then
      some (.invalidSymbol last (bytes.length - 1))
    else none
  | none => none

/-- Reads a text, given as bytes. -/
def decode (a : Alphabet) (padding : Padding) (bytes : List UInt8) :
    Except Fault (List UInt8) := do
  if let some fault := strayByte? a bytes then throw fault
  let start := (bytes.length - 1) / 4 * 4
  let groups ← groupValues a 0 (bytes.take start)
  let tail ← readTail a start 0 ⟨[], 0, 0⟩ (bytes.drop start)
  if bytes ≠ [] ∧ tail.sextets.length < 2 then
    throw (.invalidLength (start + tail.sextets.length))
  if !paddingFits padding tail then throw .invalidPadding
  let sextets := groups ++ tail.sextets
  if !spareBitsAreZero sextets then
    throw (.invalidLastSymbol (bytes.getD (sextets.length - 1) 0) (sextets.length - 1))
  return ofSextets sextets

/-- Reads a text. -/
def decodeText (a : Alphabet) (padding : Padding) (s : String) : Except Fault (List UInt8) :=
  decode a padding (octets s)

end Tollgate.Text.Base64
