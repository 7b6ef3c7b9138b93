/-!
Byte strings of a fixed length, and the big-endian reading of bytes as numbers.

Main statements: a slice of a byte string has the length asked for, and a number that fits in
`k` bytes is read back from its `k` big-endian bytes.
-/

namespace Tollgate

/-- Exactly `n` bytes. -/
structure Octets (n : Nat) where
  toList : List UInt8
  length_toList : toList.length = n
deriving DecidableEq

namespace Octets

variable {m n : Nat}

theorem ext {left right : Octets n} (equal : left.toList = right.toList) : left = right := by
  cases left
  cases right
  simp_all

/-- The byte `b`, `n` times. -/
def replicate (n : Nat) (b : UInt8) : Octets n :=
  ⟨List.replicate n b, List.length_replicate⟩

instance : Inhabited (Octets n) := ⟨replicate n 0⟩

/-- The bytes, if there are exactly `n` of them. -/
def ofList? (n : Nat) (bytes : List UInt8) : Option (Octets n) :=
  if fits : bytes.length = n then some ⟨bytes, fits⟩ else none

/-- The first `n` bytes of `bytes`, filled up with zeros where there are fewer. -/
def ofListPadded (n : Nat) (bytes : List UInt8) : Octets n :=
  ⟨bytes.take n ++ List.replicate (n - bytes.length) 0, by
    simp only [List.length_append, List.length_take, List.length_replicate]
    omega⟩

/-- The `length` bytes from offset `start` on. -/
def slice (o : Octets n) (start length : Nat) (inside : start + length ≤ n := by decide) :
    Octets length :=
  ⟨(o.toList.drop start).take length, by
    simp only [List.length_take, List.length_drop, o.length_toList]
    omega⟩

/-- The byte at offset `i`. -/
def get (o : Octets n) (i : Nat) (inside : i < n := by decide) : UInt8 :=
  o.toList.get ⟨i, by rw [o.length_toList]; exact inside⟩

end Octets

/-- The number whose big-endian digits in base 256 are `bytes`. -/
def ofBigEndian (bytes : List UInt8) : Nat :=
  bytes.foldl (fun value byte => value * 256 + byte.toNat) 0

/-- The lowest `k` digits of `value` in base 256, the highest of them first. -/
def toBigEndian : Nat → Nat → List UInt8
  | 0, _ => []
  | k + 1, value => toBigEndian k (value / 256) ++ [UInt8.ofNat value]

@[simp]
theorem length_toBigEndian (k value : Nat) : (toBigEndian k value).length = k := by
  induction k generalizing value with
  | zero => rfl
  | succ k ih => simp [toBigEndian, ih]

theorem ofBigEndian_append (bytes : List UInt8) (byte : UInt8) :
    ofBigEndian (bytes ++ [byte]) = ofBigEndian bytes * 256 + byte.toNat := by
  simp [ofBigEndian]

theorem ofBigEndian_toBigEndian (k value : Nat) :
    ofBigEndian (toBigEndian k value) = value % Nat.pow 256 k := by
  induction k generalizing value with
  | zero => simp [toBigEndian, ofBigEndian, Nat.mod_one]
  | succ k ih =>
    rw [toBigEndian, ofBigEndian_append, ih]
    have split := Nat.mod_mul (a := 256) (b := Nat.pow 256 k) (x := value)
    have digit : (UInt8.ofNat value).toNat = value % 256 := by simp
    have next : Nat.pow 256 (k + 1) = 256 * Nat.pow 256 k := Nat.mul_comm _ _
    rw [digit, next, split]
    omega

namespace Octets

/-- The eight bytes of a 64-bit word, the highest first. -/
def ofWord (word : UInt64) : Octets 8 :=
  ⟨toBigEndian 8 word.toNat, length_toBigEndian 8 _⟩

/-- The 64-bit word with these eight bytes, the highest first. -/
def toWord (o : Octets 8) : UInt64 :=
  UInt64.ofNat (ofBigEndian o.toList)

@[simp]
theorem toWord_ofWord (word : UInt64) : (ofWord word).toWord = word := by
  have bound := word.toNat_lt
  simp only [toWord, ofWord, ofBigEndian_toBigEndian, Nat.pow_eq]
  rw [Nat.mod_eq_of_lt (by omega)]
  exact UInt64.ofNat_toNat

end Octets

end Tollgate
