import Mathlib.Algebra.Order.Field.Rat
import Tollgate.Proofs.Rate.Credit

/-!
# Other limits for a bucket

Under other limits a token is worth other credit. What a bucket holds is converted by a
division that rounds down, and is capped by what the new limits can hold. Rounding loses
less than a nanosecond of credit and never a whole token. Nothing is gained: not by one
change, and not on a way through any other limits and back.

Results:
1. `rescaled_div`, `wholeTokens_updateLimits`: the whole tokens after a change are those
   before it, as far as they fit.
2. `exactTokens_updateLimits_le`, `exactTokens_updateAll_le`: fractions of a token only
   shrink.
3. `updateLimits_self`: the limits in force change nothing.
4. `updateLimits_mints_nothing`: all of it, for buckets in use.
-/

namespace Tollgate.Rate.Bucket

variable {b : Bucket} {limits : Limits}

/-! ## Definitions -/

/-- The tokens it holds, fractions left out. -/
def wholeTokens (b : Bucket) : Nat :=
  b.level / b.limits.unit

/-- The tokens it holds, with fractions, exactly. -/
def exactTokens (b : Bucket) : Rat :=
  b.level / b.limits.unit

/-- Several changes at one instant. -/
def updateAll (b : Bucket) (path : List Limits) : Bucket :=
  path.foldl updateLimits b

/-! ## Whole tokens -/

/-- Rounding down in other units does not lose a whole token. -/
theorem rescaled_div {unit unit' : Nat} (hunit' : 0 < unit') (level : Nat) :
    level * unit' / unit / unit' = level / unit := by
  rw [Nat.div_div_eq_div_mul, Nat.mul_div_mul_right level unit hunit']

/-- The largest number that credit can be is at least what the limits can hold, so that
only the latter counts. -/
theorem level_updateLimits (b : Bucket) (limits : Limits) :
    (b.updateLimits limits).level =
      min (b.level * limits.unit / b.limits.unit) limits.maxLevel := by
  have hmax : limits.maxLevel ≤ creditLimit := Nat.min_le_right _ _
  rw [updateLimits, Nat.min_assoc, Nat.min_eq_right hmax]

theorem wholeTokens_updateLimits (b : Bucket) (limits : Limits) :
    (b.updateLimits limits).wholeTokens = min b.wholeTokens (limits.maxLevel / limits.unit) := by
  have hmono : Monotone (· / limits.unit) := fun _ _ => Nat.div_le_div_right
  calc
    (b.updateLimits limits).wholeTokens
        = min (b.level * limits.unit / b.limits.unit) limits.maxLevel / limits.unit :=
          congrArg (· / limits.unit) (level_updateLimits b limits)
    _ = min (b.level * limits.unit / b.limits.unit / limits.unit)
          (limits.maxLevel / limits.unit) := hmono.map_min
    _ = min b.wholeTokens (limits.maxLevel / limits.unit) := by
          rw [rescaled_div limits.one_le_unit, wholeTokens]

/-! ## Fractions of tokens -/

theorem level_mul_unit_updateLimits_le (b : Bucket) (limits : Limits) :
    (b.updateLimits limits).level * b.limits.unit ≤ b.level * limits.unit := by
  calc
    (b.updateLimits limits).level * b.limits.unit
        ≤ b.level * limits.unit / b.limits.unit * b.limits.unit := by
          rw [level_updateLimits]
          exact Nat.mul_le_mul_right _ (Nat.min_le_left _ _)
    _ ≤ b.level * limits.unit := Nat.div_mul_le_self _ _

theorem exactTokens_le_iff {b' : Bucket} :
    b'.exactTokens ≤ b.exactTokens ↔
      b'.level * b.limits.unit ≤ b.level * b'.limits.unit := by
  have hunit : (0 : Rat) < b.limits.unit := Nat.cast_pos.mpr b.limits.one_le_unit
  have hunit' : (0 : Rat) < b'.limits.unit := Nat.cast_pos.mpr b'.limits.one_le_unit
  rw [exactTokens, exactTokens, div_le_div_iff₀ hunit' hunit]
  exact_mod_cast Iff.rfl

theorem exactTokens_updateLimits_le (b : Bucket) (limits : Limits) :
    (b.updateLimits limits).exactTokens ≤ b.exactTokens :=
  exactTokens_le_iff.mpr (level_mul_unit_updateLimits_le b limits)

theorem exactTokens_updateAll_le (b : Bucket) (path : List Limits) :
    (b.updateAll path).exactTokens ≤ b.exactTokens := by
  induction path generalizing b with
  | nil => exact le_refl _
  | cons limits rest ih =>
    exact (ih (b.updateLimits limits)).trans (exactTokens_updateLimits_le b limits)

/-! ## Back to the limits in force -/

theorem updateLimits_self (h : b.level ≤ b.limits.maxLevel) : b.updateLimits b.limits = b := by
  have hlevel : (b.updateLimits b.limits).level = b.level := by
    rw [level_updateLimits, Nat.mul_div_cancel _ b.limits.one_le_unit, Nat.min_eq_left h]
  calc
    b.updateLimits b.limits = { b with level := (b.updateLimits b.limits).level } := rfl
    _ = b := by rw [hlevel]

theorem limits_updateAll_append (b : Bucket) (path : List Limits) (limits : Limits) :
    (b.updateAll (path ++ [limits])).limits = limits := by
  rw [updateAll, List.foldl_append]
  rfl

/-- With the same unit before and after, less in tokens is less credit. -/
theorem level_updateAll_le (b : Bucket) (path : List Limits) :
    (b.updateAll (path ++ [b.limits])).level ≤ b.level := by
  have hle := exactTokens_le_iff.mp (exactTokens_updateAll_le b (path ++ [b.limits]))
  rw [limits_updateAll_append] at hle
  exact Nat.le_of_mul_le_mul_right hle b.limits.one_le_unit

/-- Changes of the limits keep whole tokens as far as they fit, never add a fraction of
one, change nothing where the limits are the ones in force, and on any way back to these
add no credit. -/
theorem updateLimits_mints_nothing (h : b.Reachable) (limits : Limits) (path : List Limits) :
    (b.updateLimits limits).wholeTokens = min b.wholeTokens (limits.maxLevel / limits.unit) ∧
    (b.updateLimits limits).exactTokens ≤ b.exactTokens ∧
    b.updateLimits b.limits = b ∧
    (b.updateAll (path ++ [b.limits])).level ≤ b.level :=
  ⟨wholeTokens_updateLimits b limits, exactTokens_updateLimits_le b limits,
    updateLimits_self (level_le_of_reachable h), level_updateAll_le b path⟩

/-- Six tokens and three sevenths of one. -/
def exPartial : Bucket :=
  (full ⟨10, .ofNanos 7⟩ 0).callAll
    [.tryConsume 0, .tryConsume 0, .tryConsume 0, .tryConsume 0, .refill 3]

/-- Under the longest interval there is, a single token is all the credit that can be
counted. -/
theorem updateLimits_exPartial :
    exPartial.level = 45 ∧
    (exPartial.updateLimits ⟨20, .never⟩).wholeTokens = min exPartial.wholeTokens 1 ∧
    (exPartial.updateLimits ⟨20, .ofNanos 5⟩).exactTokens ≤ exPartial.exactTokens ∧
    exPartial.updateLimits ⟨10, .ofNanos 7⟩ = exPartial ∧
    (exPartial.updateAll [⟨20, .ofNanos 5⟩, ⟨10, .ofNanos 7⟩]).level = 44 ∧
    (exPartial.updateAll [⟨20, .ofNanos 5⟩, ⟨10, .ofNanos 7⟩]).level ≤ exPartial.level := by
  have hreachable : exPartial.Reachable := ⟨_, _, _, rfl⟩
  obtain ⟨hwhole, -, hself, -⟩ := updateLimits_mints_nothing hreachable ⟨20, .never⟩ []
  obtain ⟨-, hexact, -, hback⟩ :=
    updateLimits_mints_nothing hreachable ⟨20, .ofNanos 5⟩ [⟨20, .ofNanos 5⟩]
  exact ⟨by decide, hwhole, hexact, hself, by decide, hback⟩

end Tollgate.Rate.Bucket
