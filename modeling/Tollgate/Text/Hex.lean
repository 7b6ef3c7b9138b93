import Tollgate.Octets

/-!
Bytes as hexadecimal digits, two to a byte, the high half first.

Digits are written in lower case and read in either. Of several faults the length counts before the
digits.
-/

namespace Tollgate.Text.Hex

/-- The lower-case digit of a value below sixteen. -/
def digit (value : Nat) : Char :=
  Char.ofNat (if value < 10 then 48 + value else 87 + value)

/-- The value of a digit in either case. -/
def value? (byte : UInt8) : Option Nat :=
  let code := byte.toNat
  if 48 ≤ code ∧ code ≤ 57 then some (code - 48)
  else if 97 ≤ code ∧ code ≤ 102 then some (code - 87)
  else if 65 ≤ code ∧ code ≤ 70 then some (code - 55)
  else none

/-- The two digits of one byte. -/
def pair (byte : UInt8) : List Char :=
  [digit (byte.toNat / 16), digit (byte.toNat % 16)]

/-- The digits of a byte string. -/
def encode (bytes : List UInt8) : String :=
  String.ofList (bytes.flatMap pair)

/-- The digits of a 64-bit word, all sixteen of them. -/
def ofWord (word : UInt64) : String :=
  encode (Octets.ofWord word).toList

/-- Why digits cannot be read as a given number of bytes. -/
inductive Fault
  | oddLength
  | wrongLength
  | badDigit (byte : UInt8) (offset : Nat)
deriving DecidableEq, Repr

/-- A byte shown as the Latin-1 character it stands for, quoted, with control characters escaped. -/
def quotedByte (byte : UInt8) : String :=
  let quote := "\x27"
  let code := byte.toNat
  let shown :=
    if code == 0 then "\\0"
    else if code == 9 then "\\t"
    else if code == 10 then "\\n"
    else if code == 13 then "\\r"
    else if code == 39 then "\\\x27"
    else if code == 92 then "\\\\"
    else if code < 32 || (127 ≤ code && code < 160) || code == 173 then
      "\\u\x7b" ++ String.ofList (Nat.toDigits 16 code) ++ "\x7d"
    else String.singleton (Char.ofNat code)
  quote ++ shown ++ quote

def Fault.message : Fault → String
  | .oddLength => "Odd number of digits"
  | .wrongLength => "Invalid string length"
  | .badDigit byte offset => s!"Invalid character {quotedByte byte} at position {offset}"

/-- Reads pairs of digits; `offset` is where the first of them stands. -/
def pairs (offset : Nat) : List UInt8 → Except Fault (List UInt8)
  | high :: low :: rest =>
    match value? high, value? low with
    | none, _ => .error (.badDigit high offset)
    | some _, none => .error (.badDigit low (offset + 1))
    | some h, some l => (pairs (offset + 2) rest).map (UInt8.ofNat (h * 16 + l) :: ·)
  | [lone] => .error (.badDigit lone offset)
  | [] => .ok []

/-- Reads the digits of exactly `n` bytes. -/
def decode (n : Nat) (digits : List UInt8) : Except Fault (List UInt8) :=
  if digits.length % 2 = 1 then .error .oddLength
  else if digits.length ≠ 2 * n then .error .wrongLength
  else pairs 0 digits

/-- Reads any even number of digits. -/
def decodeAll? (digits : List UInt8) : Option (List UInt8) :=
  (decode (digits.length / 2) digits).toOption

end Tollgate.Text.Hex
