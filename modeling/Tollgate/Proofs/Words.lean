import Mathlib.Algebra.Group.Nat.Defs

/-!
# Arithmetic on words

Numbers of a fixed number of bits wrap around where a result does not fit. Here each operation
says so instead: there is a result only if it is the one of the natural numbers. Whoever wants
the largest word in place of a result that does not fit asks for that.

Results:
1. `add?_ofNat`, `sub?_ofNat`, `mul?_ofNat`, `div?_ofNat`: when there is a result.
2. `saturated_add?_ofNat`, `saturated_mul?_ofNat`, `saturated_narrow?_ofNat`: results that are
   capped.
3. `least_ofNat`, `greatest_ofNat`: the smaller and the larger one of two words.
-/

namespace Tollgate.Words

variable {n : Nat}

/-- The sum of two words, if it fits. -/
def add? (x y : BitVec n) : Option (BitVec n) :=
  if x.uaddOverflow y then none else some (x + y)

/-- The difference of two words, if it is not below zero. -/
def sub? (x y : BitVec n) : Option (BitVec n) :=
  if x.usubOverflow y then none else some (x - y)

/-- The product of two words, if it fits. -/
def mul? (x y : BitVec n) : Option (BitVec n) :=
  if x.umulOverflow y then none else some (x * y)

/-- The quotient of two words, if there is one. -/
def div? (x y : BitVec n) : Option (BitVec n) :=
  if y = 0#n then none else some (x / y)

/-- A wide word in 64 bits, if it fits. -/
def narrow? (x : BitVec 128) : Option (BitVec 64) :=
  if x.toNat < 2 ^ 64 then some (x.setWidth 64) else none

def widen (x : BitVec 64) : BitVec 128 :=
  x.setWidth 128

/-- The largest word stands for a result that does not fit. -/
def saturated (result : Option (BitVec n)) : BitVec n :=
  result.getD (BitVec.allOnes n)

def least (x y : BitVec n) : BitVec n :=
  if x ≤ y then x else y

def greatest (x y : BitVec n) : BitVec n :=
  if x ≤ y then y else x

variable {a b : Nat}

theorem toNat_ofNat_of_lt (h : a < 2 ^ n) : (BitVec.ofNat n a).toNat = a := by
  rw [BitVec.toNat_ofNat, Nat.mod_eq_of_lt h]

theorem ofNat_le_ofNat_iff (ha : a < 2 ^ n) (hb : b < 2 ^ n) :
    BitVec.ofNat n a ≤ BitVec.ofNat n b ↔ a ≤ b := by
  rw [BitVec.le_def, toNat_ofNat_of_lt ha, toNat_ofNat_of_lt hb]

theorem add?_ofNat (ha : a < 2 ^ n) (hb : b < 2 ^ n) :
    add? (BitVec.ofNat n a) (BitVec.ofNat n b) =
      if a + b < 2 ^ n then some (BitVec.ofNat n (a + b)) else none := by
  rw [add?, BitVec.uaddOverflow, toNat_ofNat_of_lt ha, toNat_ofNat_of_lt hb, ← BitVec.ofNat_add]
  by_cases h : a + b < 2 ^ n <;> simp [h]

theorem mul?_ofNat (ha : a < 2 ^ n) (hb : b < 2 ^ n) :
    mul? (BitVec.ofNat n a) (BitVec.ofNat n b) =
      if a * b < 2 ^ n then some (BitVec.ofNat n (a * b)) else none := by
  rw [mul?, BitVec.umulOverflow, toNat_ofNat_of_lt ha, toNat_ofNat_of_lt hb, ← BitVec.ofNat_mul]
  by_cases h : a * b < 2 ^ n <;> simp [h]

theorem sub?_ofNat (ha : a < 2 ^ n) (h : b ≤ a) :
    sub? (BitVec.ofNat n a) (BitVec.ofNat n b) = some (BitVec.ofNat n (a - b)) := by
  have hb : b < 2 ^ n := Nat.lt_of_le_of_lt h ha
  rw [sub?, BitVec.usubOverflow, toNat_ofNat_of_lt ha, toNat_ofNat_of_lt hb,
    decide_eq_false (Nat.not_lt.mpr h), BitVec.ofNat_sub_ofNat_of_le _ _ hb h]
  rfl

theorem div?_ofNat (ha : a < 2 ^ n) (hb : b < 2 ^ n) (h : 0 < b) :
    div? (BitVec.ofNat n a) (BitVec.ofNat n b) = some (BitVec.ofNat n (a / b)) := by
  have hne : BitVec.ofNat n b ≠ 0#n := by
    intro hzero
    have hnat := congrArg BitVec.toNat hzero
    rw [toNat_ofNat_of_lt hb, BitVec.toNat_zero] at hnat
    exact Nat.ne_of_gt h hnat
  have hquotient : a / b < 2 ^ n := Nat.lt_of_le_of_lt (Nat.div_le_self a b) ha
  rw [div?, if_neg hne]
  refine congrArg some (BitVec.eq_of_toNat_eq ?_)
  rw [BitVec.toNat_udiv, toNat_ofNat_of_lt ha, toNat_ofNat_of_lt hb, toNat_ofNat_of_lt hquotient]

theorem widen_ofNat (ha : a < 2 ^ 64) : widen (BitVec.ofNat 64 a) = BitVec.ofNat 128 a :=
  BitVec.setWidth_ofNat_of_le_of_lt (by decide) ha

theorem least_ofNat (ha : a < 2 ^ n) (hb : b < 2 ^ n) :
    least (BitVec.ofNat n a) (BitVec.ofNat n b) = BitVec.ofNat n (min a b) := by
  simp only [least, ofNat_le_ofNat_iff ha hb, Nat.min_def]
  split <;> rfl

theorem greatest_ofNat (ha : a < 2 ^ n) (hb : b < 2 ^ n) :
    greatest (BitVec.ofNat n a) (BitVec.ofNat n b) = BitVec.ofNat n (max a b) := by
  simp only [greatest, ofNat_le_ofNat_iff ha hb, Nat.max_def]
  split <;> rfl

theorem saturated_ite (n a : Nat) :
    saturated (if a < 2 ^ n then some (BitVec.ofNat n a) else none) =
      BitVec.ofNat n (min a (2 ^ n - 1)) := by
  have hpos : 0 < 2 ^ n := Nat.two_pow_pos n
  split
  · next h =>
    rw [Nat.min_eq_left (Nat.le_sub_one_of_lt h)]
    rfl
  · next h =>
    refine BitVec.eq_of_toNat_eq ?_
    rw [Nat.min_eq_right (by omega), toNat_ofNat_of_lt (by omega)]
    exact BitVec.toNat_allOnes

theorem saturated_add?_ofNat (ha : a < 2 ^ n) (hb : b < 2 ^ n) :
    saturated (add? (BitVec.ofNat n a) (BitVec.ofNat n b)) =
      BitVec.ofNat n (min (a + b) (2 ^ n - 1)) := by
  rw [add?_ofNat ha hb, saturated_ite]

theorem saturated_mul?_ofNat (ha : a < 2 ^ n) (hb : b < 2 ^ n) :
    saturated (mul? (BitVec.ofNat n a) (BitVec.ofNat n b)) =
      BitVec.ofNat n (min (a * b) (2 ^ n - 1)) := by
  rw [mul?_ofNat ha hb, saturated_ite]

theorem saturated_narrow?_ofNat (ha : a < 2 ^ 128) :
    saturated (narrow? (BitVec.ofNat 128 a)) = BitVec.ofNat 64 (min a (2 ^ 64 - 1)) := by
  rw [narrow?, toNat_ofNat_of_lt ha, BitVec.setWidth_ofNat_of_le (by decide), saturated_ite]

end Tollgate.Words
