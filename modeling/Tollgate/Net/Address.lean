import Tollgate.Text.Digits

/-!
Internet addresses, their spellings and their one canonical text.

An address of sixteen bytes has many spellings: upper-case digits, zeros in front of a group, a gap
`::` for groups of zeros, the last four bytes in decimal. Its canonical text has lower-case digits, no
zeros in front, and a gap for the longest run of at least two zero groups, the first of several.
-/

namespace Tollgate

/-- An address of either family. -/
inductive Address
  | v4 (bits : BitVec 32)
  | v6 (bits : BitVec 128)
deriving DecidableEq, Repr

namespace Address

/-- The number of bits in an address of its family. -/
def width : Address → Nat
  | .v4 _ => 32
  | .v6 _ => 128

/-! ### The canonical text -/

/-- The digits of `value` in base `base`, as many as `count`, the highest first. -/
def digits (base value : Nat) : Nat → List Nat
  | 0 => []
  | count + 1 => digits base (value / base) count ++ [value % base]

/-- Four decimal numbers with points between them. -/
def dotted (bits : BitVec 32) : String :=
  ".".intercalate ((digits 256 bits.toNat 4).map fun byte => toString byte)

/-- Sixteen bits in hexadecimal digits. -/
def groupText (group : Nat) : String :=
  String.ofList (Nat.toDigits 16 group)

/-- The groups with colons between them. -/
def joined (groups : List Nat) : String :=
  ":".intercalate (groups.map groupText)

/-- How many zeros a list starts with. -/
def leadingZeroGroups (groups : List Nat) : Nat :=
  (groups.takeWhile (· = 0)).length

/-- Start and length of the longest run of zeros, the first of several. -/
def longestZeros (groups : List Nat) : Nat × Nat :=
  (List.range groups.length).foldl (fun best start =>
    let length := leadingZeroGroups (groups.drop start)
    if best.2 < length then (start, length) else best) (0, 0)

/-- The text of eight groups. Addresses that stand for one of the other family show it. -/
def colons (bits : BitVec 128) : String :=
  if bits.toNat / 0x100000000 = 0xffff then "::ffff:" ++ dotted (bits.setWidth 32)
  else
    let groups := digits 65536 bits.toNat 8
    let (start, length) := longestZeros groups
    if length < 2 then joined groups
    else joined (groups.take start) ++ "::" ++ joined (groups.drop (start + length))

/-- The canonical text. -/
def text : Address → String
  | .v4 bits => dotted bits
  | .v6 bits => colons bits

/-! ### Spellings -/

/-- Which spellings are read besides the usual ones. -/
structure Spelling where
  /-- Decimal numbers may have zeros in front. -/
  zerosInFront : Bool
  /-- A gap may stand for no group at all. -/
  emptyGap : Bool
deriving DecidableEq, Repr

/-- Addresses by themselves. -/
def Spelling.strict : Spelling := ⟨false, false⟩

/-- Addresses in front of a prefix length. -/
def Spelling.lenient : Spelling := ⟨true, true⟩

/-- Reads a number of at most `most` digits that is at most `limit`. -/
def number? (base most limit : Nat) (zerosInFront : Bool) (cs : List Char) :
    Option (Nat × List Char) :=
  let word := cs.takeWhile fun c => (Text.digitIn? base c).isSome
  let value := (word.filterMap (Text.digitIn? base)).foldl (fun n d => n * base + d) 0
  if word.isEmpty ∨ most < word.length ∨ limit < value then none
  else if !zerosInFront ∧ 1 < word.length ∧ word.head? = some '0' then none
  else some (value, cs.drop word.length)

/-- Reads a character. -/
def after? (c : Char) : List Char → Option (List Char)
  | [] => none
  | d :: rest => if d = c then some rest else none

/-- Reads `count` decimal numbers with points between them, and gives their value as one number. -/
def dotted? (s : Spelling) (value : Nat) : Nat → List Char → Option (Nat × List Char)
  | 0, cs => some (value, cs)
  | count + 1, cs => do
    let (byte, rest) ← number? 10 3 255 s.zerosInFront cs
    let rest ← if count = 0 then some rest else after? '.' rest
    dotted? s (value * 256 + byte) count rest

/-- Reads groups up to the first that is none, at most `room` of them. Four decimal numbers count as two
groups and are the last ones; it is told whether they were read. -/
def groups (s : Spelling) (first : Bool) : Nat → List Char → List Nat × Bool × List Char
  | 0, cs => ([], false, cs)
  | room + 1, cs =>
    match if first then some cs else after? ':' cs with
    | none => ([], false, cs)
    | some inner =>
      match if room = 0 then none else dotted? s 0 4 inner with
      | some (value, rest) => ([value / 65536, value % 65536], true, rest)
      | none =>
        match number? 16 4 65535 true inner with
        | none => ([], false, cs)
        | some (group, rest) =>
          let (more, ended, rest) := groups s false room rest
          (group :: more, ended, rest)

/-- The number with these groups as digits. -/
def ofGroups (groups : List Nat) : BitVec 128 :=
  BitVec.ofNat 128 (groups.foldl (fun n group => n * 65536 + group) 0)

/-- Reads eight groups, or fewer with a gap. -/
def colons? (s : Spelling) (cs : List Char) : Option (BitVec 128 × List Char) := do
  let (head, ended, rest) := groups s true 8 cs
  if head.length = 8 then return (ofGroups head, rest)
  if ended then none
  let rest ← after? ':' rest
  let rest ← after? ':' rest
  let room := 8 - head.length
  let (tail, _, rest) := groups s true (if s.emptyGap then room else room - 1) rest
  return (ofGroups (head ++ List.replicate (8 - head.length - tail.length) 0 ++ tail), rest)

/-- Reads an address from the front of a text. -/
def read? (s : Spelling) (cs : List Char) : Option (Address × List Char) :=
  match dotted? s 0 4 cs with
  | some (value, rest) => some (.v4 (BitVec.ofNat 32 value), rest)
  | none => (colons? s cs).map fun (bits, rest) => (.v6 bits, rest)

/-- Reads a text that is an address as a whole. -/
def parse? (s : String) : Option Address :=
  match read? .strict s.toList with
  | some (address, []) => some address
  | _ => none

/-- What follows the zone of an address, a percent sign and a number of 32 bits, if there is one. -/
def afterZone (cs : List Char) : List Char :=
  let zone := do
    let digits ← after? '%' cs
    number? 10 digits.length 0xffffffff true digits
  zone.elim cs (·.2)

/-- The address of an endpoint: behind it stand a colon and a number of sixteen bits, and around one with
colons stand brackets. The zone that such an address may name is no part of it. -/
def ofEndpoint? (s : String) : Option Address := do
  let (address, rest) ← match s.toList with
    | '[' :: rest => do
      let (bits, rest) ← colons? .strict rest
      pure (Address.v6 bits, ← after? ']' (afterZone rest))
    | cs => do
      let (value, rest) ← dotted? .strict 0 4 cs
      pure (Address.v4 (BitVec.ofNat 32 value), rest)
  let digits ← after? ':' rest
  let (_, rest) ← number? 10 digits.length 65535 true digits
  if rest.isEmpty then return address else none

end Address

end Tollgate
