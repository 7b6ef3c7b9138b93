import Tollgate.Puzzle.Work

/-!
# Solved puzzles

The check walks through the nonces and counts the index up beside them. What it
accepts is said here without the walk: one nonce for each index, each of which
meets the target of its own.

Results:
1. `meetsTarget_iff`: a target as a bound on the count of zero bits.
2. `solvesFrom_iff`: what the walk accepts from an index on.
3. `isSolvedBy_iff`: what a puzzle is solved by.
-/

namespace Tollgate

theorem meetsTarget_iff {hash : List UInt8} {bits : UInt8} :
    meetsTarget hash bits = true ↔ bits.toNat ≤ leadingZeroBits hash := by
  rw [meetsTarget, decide_eq_true_iff, ← UInt8.toNat_toUInt32]
  exact UInt32.le_iff_toNat_le

/-- One nonce for each index, and the hash of each starts with enough zero bits. -/
structure Puzzle.Solved (p : Puzzle) (nonces : List UInt64) : Prop where
  length_eq : nonces.length = p.solutions.toNat
  meets : ∀ i (hi : i < nonces.length), p.difficulty.bits.toNat ≤
    leadingZeroBits ((Work.ofPuzzle p).hash i.toUInt8 nonces[i])

theorem Work.solvesFrom_iff {w : Work} {nonces : List UInt64} {index : Nat} :
    w.solvesFrom index nonces = true ↔
      ∀ i (hi : i < nonces.length), w.isSolution (index + i).toUInt8 nonces[i] = true := by
  induction nonces generalizing index with
  | nil => simp [Work.solvesFrom]
  | cons nonce rest ih =>
    rw [Work.solvesFrom, Bool.and_eq_true, ih]
    constructor
    · rintro ⟨hfirst, hrest⟩ i hi
      cases i with
      | zero => exact hfirst
      | succ i =>
        have h := hrest i (Nat.lt_of_succ_lt_succ hi)
        rwa [Nat.add_right_comm] at h
    · intro h
      refine ⟨h 0 (Nat.zero_lt_succ _), fun i hi => ?_⟩
      rw [Nat.add_right_comm]
      exact h (i + 1) (Nat.succ_lt_succ hi)

theorem Puzzle.isSolvedBy_iff {p : Puzzle} {nonces : List UInt64} :
    p.isSolvedBy nonces = true ↔ p.Solved nonces := by
  rw [Puzzle.isSolvedBy, Work.accepts, Bool.and_eq_true, beq_iff_eq, Work.solvesFrom_iff]
  constructor
  · rintro ⟨hlen, hall⟩
    refine ⟨hlen, fun i hi => ?_⟩
    have h := meetsTarget_iff.mp (hall i hi)
    rwa [Nat.zero_add] at h
  · rintro ⟨hlen, hmeets⟩
    refine ⟨hlen, fun i hi => meetsTarget_iff.mpr ?_⟩
    rw [Nat.zero_add]
    exact hmeets i hi

end Tollgate
