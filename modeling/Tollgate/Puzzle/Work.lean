import Tollgate.Digest.Sha256
import Tollgate.Puzzle.Basic

/-!
Proof of work: for each index of a puzzle, a nonce whose hash starts with enough zero bits.

Indices are independent, so that they can be searched apart.
-/

namespace Tollgate

/-- A count of 32 bits is a number. -/
instance coeCount : Coe UInt32 Nat := ⟨UInt32.toNat⟩

/-- The zero bits that a byte starts with. -/
def leadingZeros (byte : UInt8) : UInt32 :=
  if byte = 0 then 8 else (7 - byte.toNat.log2).toUInt32

/-- The zero bits that a hash starts with. The count has 32 bits and wraps around. -/
def leadingZeroBits : List UInt8 → UInt32
  | [] => 0
  | byte :: rest => if byte = 0 then 8 + leadingZeroBits rest else leadingZeros byte

/-- Whether a hash starts with that many zero bits, as far as they are counted. -/
def meetsTarget (hash : List UInt8) (bits : UInt8) : Bool :=
  bits.toUInt32 ≤ leadingZeroBits hash

/-- What a puzzle asks for: a hash of index and nonce, and how many zero bits it must start with. -/
structure Work where
  hash : UInt8 → UInt64 → List UInt8
  difficulty : UInt8

namespace Work

/-- What all work hashes start from, so that they serve no other purpose. -/
def domain : String := "bulwark-pow-v1"

/-- The bytes hashed before index and nonce. -/
def preamble (p : Puzzle) : List UInt8 :=
  domain.toUTF8.data.toList ++ (Octets.ofWord p.id).toList ++ p.owner.toList ++ p.salt.toList

/-- The work that a puzzle asks for. -/
def ofPuzzle (p : Puzzle) : Work :=
  let start : ByteArray := ⟨(preamble p).toArray⟩
  { hash := fun index nonce =>
      (Digest.Sha256.digest (Digest.Sha256.pushBigEndian (start.push index) nonce 8)).data.toList
    difficulty := p.difficulty.bits }

def isSolution (w : Work) (index : UInt8) (nonce : UInt64) : Bool :=
  meetsTarget (w.hash index nonce) w.difficulty

/-- Whether these nonces solve the indices from `index` on. -/
def solvesFrom (w : Work) (index : Nat) : List UInt64 → Bool
  | [] => true
  | nonce :: rest => w.isSolution index.toUInt8 nonce && w.solvesFrom (index + 1) rest

/-- Whether there is exactly one nonce for each index, and each meets the target. -/
def accepts (w : Work) (solutions : UInt8) (nonces : List UInt64) : Bool :=
  nonces.length == solutions.toNat && w.solvesFrom 0 nonces

/-- The first solution of an index from a nonce on, up to a last nonce. -/
def solveUpTo (w : Work) (index : UInt8) (last nonce : UInt64) : Option UInt64 :=
  if w.isSolution index nonce then some nonce
  else if nonce < last then w.solveUpTo index last (nonce + 1)
  else none
termination_by last.toNat - nonce.toNat
decreasing_by
  rename_i before
  have bound := last.toNat_lt
  have below : nonce.toNat < last.toNat := UInt64.lt_iff_toNat_lt.1 before
  rw [UInt64.toNat_add, UInt64.toNat_one, Nat.mod_eq_of_lt (by omega)]
  omega

/-- The last nonce there is. -/
def lastNonce : UInt64 := 0xffffffffffffffff

/-- The first solution of an index from a nonce on. -/
def solveOne (w : Work) (index : UInt8) (start : UInt64) : Option UInt64 :=
  w.solveUpTo index lastNonce start

/-- The least solution of each index that has one. -/
def solve (w : Work) (solutions : UInt8) : List UInt64 :=
  (List.range solutions.toNat).filterMap fun index => w.solveOne index.toUInt8 0

end Work

namespace Puzzle

/-- Whether the nonces solve the puzzle. -/
def isSolvedBy (p : Puzzle) (nonces : List UInt64) : Bool :=
  (Work.ofPuzzle p).accepts p.solutions nonces

/-- The least solution of each index. -/
def solve (p : Puzzle) : List UInt64 :=
  (Work.ofPuzzle p).solve p.solutions

end Puzzle

end Tollgate
