import Tollgate.Rate.Bucket

/-!
# The credit of a bucket

A bucket turns time into credit, at most one nanosecond of credit for each
nanosecond of the clock, and a token costs one unit. What it holds now and
what it can still get until an instant `t` is therefore a budget that no
operation before `t` raises, and that each token taken lowers by one unit.

Results:
1. `creditBy_refill_le`: refilling does not raise the budget.
2. `creditBy_tryConsume`: a request leaves the budget as refilling does, less
   one unit if a token was taken.
3. `level_tryConsume_le`, `level_updateLimits_le`: the credit stays at or below
   the ceiling of the limits in force.
4. `level_refill`, `fst_tryConsume_iff`, `level_tryConsume`: what a bucket below its ceiling
   holds at an instant, from which level on a request is allowed, and what it takes.
5. `level_le_of_reachable`: after any calls in any order of instants a bucket is below
   its ceiling.
-/

namespace Tollgate.Rate.Bucket

variable {b : Bucket} {now s t : Instant}

/-! ## Definitions -/

/-- One call of a bucket. -/
inductive Call
  | refill (now : Instant)
  | tryConsume (now : Instant)
  | updateLimits (limits : Limits)

/-- The bucket after a call. -/
def call (b : Bucket) : Call → Bucket
  | .refill now => b.refill now
  | .tryConsume now => (b.tryConsume now).2
  | .updateLimits limits => b.updateLimits limits

def callAll (b : Bucket) (calls : List Call) : Bucket :=
  calls.foldl call b

/-- Some calls lead from a full bucket to this one. -/
def Reachable (b : Bucket) : Prop :=
  ∃ limits start calls, b = (full limits start).callAll calls

/-- What the bucket holds, and the credit it would get until `t` had it no
ceiling. -/
def creditBy (b : Bucket) (t : Instant) : Nat :=
  b.level + t.since b.lastRefill

/-! ## Limits and clock -/

@[simp]
theorem limits_refill (b : Bucket) (now : Instant) : (b.refill now).limits = b.limits := by
  unfold refill
  split <;> rfl

@[simp]
theorem limits_tryConsume (b : Bucket) (now : Instant) :
    (b.tryConsume now).2.limits = b.limits := by
  unfold tryConsume
  dsimp only
  split <;> exact limits_refill b now

/-- A bucket's clock shows the latest instant it was given. -/
theorem lastRefill_refill (b : Bucket) (now : Instant) :
    (b.refill now).lastRefill = max b.lastRefill now := by
  unfold refill
  split
  · next h => exact (Int.max_eq_left h).symm
  · next h => exact (Int.max_eq_right (Int.le_of_not_le h)).symm

theorem le_lastRefill_refill (b : Bucket) (now : Instant) : now ≤ (b.refill now).lastRefill := by
  rw [lastRefill_refill]
  exact Int.le_max_right _ _

theorem lastRefill_tryConsume (b : Bucket) (now : Instant) :
    (b.tryConsume now).2.lastRefill = max b.lastRefill now := by
  rw [← lastRefill_refill]
  unfold tryConsume
  dsimp only
  split <;> rfl

/-! ## The ceiling -/

theorem level_refill_le (now : Instant) (h : b.level ≤ b.limits.maxLevel) :
    (b.refill now).level ≤ b.limits.maxLevel := by
  unfold refill
  split
  · exact h
  · exact Nat.min_le_right _ _

theorem level_tryConsume_le (now : Instant) (h : b.level ≤ b.limits.maxLevel) :
    (b.tryConsume now).2.level ≤ b.limits.maxLevel := by
  have hr := level_refill_le now h
  unfold tryConsume
  dsimp only
  split
  · exact Nat.le_trans (Nat.sub_le _ _) hr
  · exact hr

theorem level_updateLimits_le (b : Bucket) (limits : Limits) :
    (b.updateLimits limits).level ≤ limits.maxLevel :=
  Nat.min_le_right _ _

theorem level_call_le (c : Call) (h : b.level ≤ b.limits.maxLevel) :
    (b.call c).level ≤ (b.call c).limits.maxLevel := by
  cases c with
  | refill now =>
    rw [call, limits_refill]
    exact level_refill_le now h
  | tryConsume now =>
    rw [call, limits_tryConsume]
    exact level_tryConsume_le now h
  | updateLimits limits => exact level_updateLimits_le b limits

theorem level_callAll_le (calls : List Call) (h : b.level ≤ b.limits.maxLevel) :
    (b.callAll calls).level ≤ (b.callAll calls).limits.maxLevel := by
  induction calls generalizing b with
  | nil => exact h
  | cons c rest ih => exact ih (level_call_le c h)

theorem level_le_of_reachable (h : b.Reachable) : b.level ≤ b.limits.maxLevel := by
  obtain ⟨limits, start, calls, rfl⟩ := h
  exact level_callAll_le calls (Nat.le_refl _)

/-! ## What a bucket holds at an instant -/

theorem refill_of_le (h : now ≤ b.lastRefill) : b.refill now = b :=
  if_pos h

/-- What the credit is capped at is below the largest number that it can be, so that the
caps at the latter do not matter. -/
theorem refill_of_lt (h : b.lastRefill < now) :
    b.refill now =
      ⟨b.limits, min (b.level + now.since b.lastRefill) b.limits.maxLevel, now⟩ := by
  have hmax : b.limits.maxLevel ≤ creditLimit := Nat.min_le_right _ _
  have hlevel : min (min (b.level + min (now.since b.lastRefill) creditLimit) creditLimit)
      b.limits.maxLevel = min (b.level + now.since b.lastRefill) b.limits.maxLevel := by
    omega
  rw [refill, if_neg (Int.not_le.mpr h), ← hlevel]

theorem level_refill (h : b.level ≤ b.limits.maxLevel) (now : Instant) :
    (b.refill now).level = min (b.level + now.since b.lastRefill) b.limits.maxLevel := by
  by_cases hle : now ≤ b.lastRefill
  · have hzero : now.since b.lastRefill = 0 := Int.toNat_of_nonpos (Int.sub_nonpos_of_le hle)
    rw [refill_of_le hle, hzero, Nat.add_zero, Nat.min_eq_left h]
  · rw [refill_of_lt (Int.not_le.mp hle)]

theorem fst_tryConsume_iff :
    (b.tryConsume now).1 = true ↔ b.limits.unit ≤ (b.refill now).level := by
  unfold tryConsume
  simp only [limits_refill]
  split <;> simp [*]

/-- A request takes one unit from the refilled level, or leaves it as it is. -/
theorem level_tryConsume (b : Bucket) (now : Instant) :
    (b.tryConsume now).2.level + (if (b.tryConsume now).1 then b.limits.unit else 0) =
      (b.refill now).level := by
  unfold tryConsume
  simp only [limits_refill]
  split
  · next h => exact Nat.sub_add_cancel h
  · rfl

/-! ## The budget -/

/-- An instant that has passed adds to the level at most what it takes from the
time that is left. -/
theorem creditBy_refill_le (h : now ≤ t) : (b.refill now).creditBy t ≤ b.creditBy t := by
  unfold refill
  split
  · exact Nat.le_refl _
  · simp only [creditBy, Instant.since]
    lia

theorem creditBy_tryConsume (b : Bucket) (now t : Instant) :
    (b.tryConsume now).2.creditBy t + (if (b.tryConsume now).1 then b.limits.unit else 0) =
      (b.refill now).creditBy t := by
  rw [creditBy, creditBy, lastRefill_tryConsume, lastRefill_refill, Nat.add_right_comm,
    level_tryConsume]

/-- A bucket below its ceiling that has seen an instant of the window `[s, t]`
has at most a burst and the window's length. -/
theorem creditBy_refill_le_burst (h : b.level ≤ b.limits.maxLevel) (hs : s ≤ now) :
    (b.refill now).creditBy t ≤ b.limits.maxLevel + t.since s := by
  have hl := level_refill_le now h
  have hr := lastRefill_refill b now
  simp only [creditBy, Instant.since, hr]
  lia

end Tollgate.Rate.Bucket
