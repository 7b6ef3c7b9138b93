import Tollgate.Net.Address
import Tollgate.Text.Blank

/-!
Networks: the addresses of one family that begin with the same bits.
-/

namespace Tollgate

/-- The addresses that share their first `length` bits with `address`; the bits beyond are kept as they
were given. -/
structure Network where
  address : Address
  length : Nat
  length_le : length ≤ address.width
deriving DecidableEq

namespace Network

/-- The network of a single address. -/
def single (address : Address) : Network :=
  ⟨address, address.width, Nat.le_refl _⟩

/-- Whether an address is in the network. -/
def contains (n : Network) (address : Address) : Bool :=
  match n.address, address with
  | .v4 own, .v4 other => own >>> (32 - n.length) == other >>> (32 - n.length)
  | .v6 own, .v6 other => own >>> (128 - n.length) == other >>> (128 - n.length)
  | _, _ => false

/-- Address and length. -/
def text (n : Network) : String :=
  n.address.text ++ "/" ++ toString n.length

/-- Reads an address and the number of bits that count. -/
def ofPair? (cs : List Char) : Option Network := do
  let (address, rest) ← Address.read? .lenient cs
  let rest ← Address.after? '/' rest
  let most := if address.width = 32 then 2 else 3
  let (length, rest) ← Address.number? 10 most address.width true rest
  if fits : length ≤ address.width then
    if rest.isEmpty then return ⟨address, length, fits⟩ else none
  else none

/-- Reads a network, or a single address, with blanks around it. -/
def parse? (s : String) : Option Network :=
  let s := Text.trim s
  (ofPair? s.toList).or ((Address.parse? s).map single)

end Network

end Tollgate
