import Mathlib.Data.List.Induction
import Mathlib.Data.Nat.Size
import Mathlib.Order.Bounds.Defs
import Tollgate.Proofs.Octets
import Tollgate.Proofs.Puzzle.Solved

/-!
# The target of a hash

The zero bits that a hash starts with are counted byte by byte, up to the first byte that is
not zero. Read as one number, the hash has that many bits fewer than its bytes have. So a
hash meets a target exactly if its number lies below a power of two, and an easier target has
a larger one.

The count has 32 bits. It is right for every hash that does not start with `2 ^ 29` zero
bytes, and starts again at zero from there.

Results:
1. `ofBigEndian_cons`: the first byte of a number.
2. `size_mul_two_pow_add`: how many bits a number has that is written in two parts.
3. `le_zeroBits_iff`: zero bits as a bound on the number.
4. `mul_eight_le_zeroBits_iff`: zero bits and zero bytes.
5. `toNat_leadingZeroBits`: what is counted of the zero bits.
6. `meetsTarget_threshold`: what hashes meet a target, and which targets a hash meets.
7. `exZeros_shows`: hashes of zero bytes alone, where the count wraps around and where it does not.
-/

namespace Tollgate

/-- The bits of a hash in front of those of its number. -/
def zeroBits (hash : List UInt8) : Nat :=
  8 * hash.length - (ofBigEndian hash).size

/-! ## Numbers and their bits -/

theorem ofBigEndian_cons (byte : UInt8) (rest : List UInt8) :
    ofBigEndian (byte :: rest) = byte.toNat * 2 ^ (8 * rest.length) + ofBigEndian rest := by
  induction rest using List.reverseRecOn with
  | nil => simp [ofBigEndian]
  | append_singleton rest last ih =>
    have hpow : 2 ^ (8 * (rest ++ [last]).length) = 2 ^ (8 * rest.length) * 256 := by
      rw [List.length_append, List.length_singleton, Nat.mul_add, Nat.pow_add]
    rw [← List.cons_append, ofBigEndian_append, ofBigEndian_append, ih, hpow, Nat.add_mul,
      Nat.mul_assoc, Nat.add_assoc]

theorem ofBigEndian_lt_two_pow (bytes : List UInt8) :
    ofBigEndian bytes < 2 ^ (8 * bytes.length) := by
  rw [Nat.pow_mul]
  exact Octets.ofBigEndian_lt ⟨bytes, rfl⟩

theorem size_eq_log2_add_one {a : Nat} (h : a ≠ 0) : a.size = a.log2 + 1 :=
  Nat.le_antisymm (Nat.size_le.mpr Nat.lt_log2_self)
    (Nat.lt_size.mpr (Nat.log2_self_le h))

theorem size_mul_two_pow_add {a k r : Nat} (ha : a ≠ 0) (hr : r < 2 ^ k) :
    (a * 2 ^ k + r).size = a.size + k := by
  refine Nat.le_antisymm (Nat.size_le.mpr ?_) ?_
  · calc
      a * 2 ^ k + r < (a + 1) * 2 ^ k := by rw [Nat.succ_mul]; exact Nat.add_lt_add_left hr _
      _ ≤ 2 ^ a.size * 2 ^ k := Nat.mul_le_mul_right _ (Nat.lt_size_self a)
      _ = 2 ^ (a.size + k) := (Nat.pow_add 2 a.size k).symm
  · rw [size_eq_log2_add_one ha, Nat.add_right_comm]
    refine Nat.lt_size.mpr ?_
    calc
      2 ^ (a.log2 + k) = 2 ^ a.log2 * 2 ^ k := Nat.pow_add 2 a.log2 k
      _ ≤ a * 2 ^ k := Nat.mul_le_mul_right _ (Nat.log2_self_le ha)
      _ ≤ a * 2 ^ k + r := Nat.le_add_right _ _

/-! ## Zero bits -/

theorem size_ofBigEndian_le (hash : List UInt8) : (ofBigEndian hash).size ≤ 8 * hash.length :=
  Nat.size_le.mpr (ofBigEndian_lt_two_pow hash)

theorem zeroBits_cons_zero (rest : List UInt8) : zeroBits (0 :: rest) = 8 + zeroBits rest := by
  have hle := size_ofBigEndian_le rest
  rw [zeroBits, zeroBits, ofBigEndian_cons, UInt8.toNat_zero, Nat.zero_mul, Nat.zero_add,
    List.length_cons]
  omega

theorem zeroBits_cons_of_ne {byte : UInt8} (h : byte ≠ 0) (rest : List UInt8) :
    zeroBits (byte :: rest) = 7 - byte.toNat.log2 := by
  have hne : byte.toNat ≠ 0 := fun hzero => h (UInt8.toNat_inj.mp hzero)
  rw [zeroBits, ofBigEndian_cons, size_mul_two_pow_add hne (ofBigEndian_lt_two_pow rest),
    size_eq_log2_add_one hne, List.length_cons]
  omega

theorem le_zeroBits_iff {hash : List UInt8} {bits : Nat} :
    bits ≤ zeroBits hash ↔
      bits ≤ 8 * hash.length ∧ ofBigEndian hash < 2 ^ (8 * hash.length - bits) := by
  have hle := size_ofBigEndian_le hash
  rw [zeroBits, ← Nat.size_le]
  omega

/-- A byte that is not zero has fewer than eight zero bits in front, so that each eight of
them are one zero byte. -/
theorem mul_eight_le_zeroBits_iff {hash : List UInt8} {n : Nat} :
    8 * n ≤ zeroBits hash ↔ List.replicate n 0 <+: hash := by
  induction hash generalizing n with
  | nil => cases n <;> simp [zeroBits, ofBigEndian, List.replicate_succ]
  | cons byte rest ih =>
    cases n with
    | zero => simp
    | succ n =>
      rw [List.replicate_succ, List.cons_prefix_cons, ← ih]
      by_cases hzero : byte = 0
      · rw [hzero, zeroBits_cons_zero, and_iff_right rfl]
        omega
      · rw [zeroBits_cons_of_ne hzero]
        exact iff_of_false (by omega) fun h => hzero h.1.symm

theorem zeroBits_replicate (n : Nat) : zeroBits (List.replicate n 0) = 8 * n := by
  refine Nat.le_antisymm ?_ (mul_eight_le_zeroBits_iff.mpr (List.prefix_refl _))
  have hle := (le_zeroBits_iff.mp (Nat.le_refl (zeroBits (List.replicate n 0)))).1
  rwa [List.length_replicate] at hle

/-! ## The count -/

/-- The induction is on the bytes: a byte that is not zero is the top of the number, and ends
the count. -/
theorem leadingZeroBits_eq (hash : List UInt8) :
    leadingZeroBits hash = UInt32.ofNat (zeroBits hash) := by
  induction hash with
  | nil => rfl
  | cons byte rest ih =>
    rw [leadingZeroBits]
    split
    · next hzero =>
      rw [hzero, zeroBits_cons_zero, UInt32.ofNat_add, ih]
      rfl
    · next hne =>
      rw [leadingZeros, if_neg hne, zeroBits_cons_of_ne hne]

/-- The count has its width, and wraps around at `2 ^ 29` zero bytes. -/
theorem toNat_leadingZeroBits (hash : List UInt8) :
    (leadingZeroBits hash).toNat = zeroBits hash % 2 ^ 32 := by
  rw [leadingZeroBits_eq, UInt32.toNat_ofNat']

theorem toNat_leadingZeroBits_of_few {hash : List UInt8}
    (hfew : ¬List.replicate (2 ^ 29) 0 <+: hash) :
    (leadingZeroBits hash).toNat = zeroBits hash := by
  have hlt : zeroBits hash < 8 * 2 ^ 29 :=
    Nat.not_le.mp (mt mul_eight_le_zeroBits_iff.mp hfew)
  rw [toNat_leadingZeroBits]
  exact Nat.mod_eq_of_lt hlt

/-- Unless a hash starts with `2 ^ 29` zero bytes, it meets a target exactly if it has that
many bits and its number is below the power of two that leaves them zero. The largest target
of this kind is the number of zero bits that the hash starts with. With a target any hash
meets all lower ones. -/
theorem meetsTarget_threshold {hash : List UInt8} (hfew : ¬List.replicate (2 ^ 29) 0 <+: hash) :
    (∀ bits : UInt8, meetsTarget hash bits = true ↔
      bits.toNat ≤ 8 * hash.length ∧
        ofBigEndian hash < 2 ^ (8 * hash.length - bits.toNat)) ∧
    IsGreatest {bits | bits ≤ 8 * hash.length ∧ ofBigEndian hash < 2 ^ (8 * hash.length - bits)}
      (leadingZeroBits hash).toNat ∧
    ∀ bits lower : UInt8, lower ≤ bits → meetsTarget hash bits = true →
      meetsTarget hash lower = true := by
  have hcount := toNat_leadingZeroBits_of_few hfew
  refine ⟨fun bits => ?_, ⟨?_, fun bits hbits => ?_⟩, fun bits lower hle hmeets => ?_⟩
  · rw [meetsTarget_iff, hcount]
    exact le_zeroBits_iff
  · rw [hcount]
    exact le_zeroBits_iff.mp (Nat.le_refl _)
  · rw [hcount]
    exact le_zeroBits_iff.mpr hbits
  · rw [meetsTarget_iff] at hmeets ⊢
    exact Nat.le_trans (UInt8.le_iff_toNat_le.mp hle) hmeets

/-- Nineteen zero bits, two whole bytes of them, in front of 31. -/
def exHash : List UInt8 :=
  [0, 0, 31]

theorem meetsTarget_exHash :
    ¬List.replicate (2 ^ 29) 0 <+: exHash ∧
    ofBigEndian exHash = 31 ∧ meetsTarget exHash 19 = true ∧ ¬meetsTarget exHash 20 = true ∧
    IsGreatest {bits | bits ≤ 24 ∧ 31 < 2 ^ (24 - bits)} 19 ∧ meetsTarget exHash 7 = true := by
  have hfew : ¬List.replicate (2 ^ 29) 0 <+: exHash := by
    intro h
    have hle := h.length_le
    rw [List.length_replicate] at hle
    exact absurd hle (by decide)
  obtain ⟨hiff, hgreatest, hlower⟩ := meetsTarget_threshold hfew
  have hmeets : meetsTarget exHash 19 = true := (hiff 19).mpr (by decide)
  exact ⟨hfew, rfl, hmeets, fun h => absurd ((hiff 20).mp h).2 (by decide), hgreatest,
    hlower 19 7 (by decide) hmeets⟩

/-- A hash of so many zero bytes. -/
def exZeros (length : Nat) : List UInt8 :=
  List.replicate length 0

/-- Where the count wraps around, the number is zero and has no bits at all, but none of the
zero bits is counted. A much shorter hash already has more zero bits than a target can ask
for. -/
theorem exZeros_shows :
    (1 ≤ 8 * (exZeros (2 ^ 29)).length ∧
      ofBigEndian (exZeros (2 ^ 29)) < 2 ^ (8 * (exZeros (2 ^ 29)).length - 1) ∧
      (leadingZeroBits (exZeros (2 ^ 29))).toNat = 0 ∧
      ¬meetsTarget (exZeros (2 ^ 29)) 1 = true) ∧
    (leadingZeroBits (exZeros 32)).toNat = 256 ∧
    ∀ bits : UInt8, bits.toNat ≠ 256 ∧ meetsTarget (exZeros 32) bits = true := by
  have hcount (length : Nat) :
      (leadingZeroBits (exZeros length)).toNat = 8 * length % 2 ^ 32 := by
    rw [toNat_leadingZeroBits, exZeros, zeroBits_replicate]
  have hwraps : (leadingZeroBits (exZeros (2 ^ 29))).toNat = 0 := by
    rw [hcount]
    decide
  have hone : 1 ≤ zeroBits (exZeros (2 ^ 29)) := by
    rw [exZeros, zeroBits_replicate]
    decide
  obtain ⟨hle, hlt⟩ := le_zeroBits_iff.mp hone
  refine ⟨⟨hle, hlt, hwraps, fun h => ?_⟩, hcount 32, fun bits => ?_⟩
  · have hmeets := meetsTarget_iff.mp h
    rw [hwraps] at hmeets
    exact absurd hmeets (by decide)
  · have hbound := bits.toNat_lt
    rw [meetsTarget_iff, hcount]
    omega

end Tollgate
