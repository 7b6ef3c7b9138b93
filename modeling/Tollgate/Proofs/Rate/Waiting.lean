import Tollgate.Proofs.Rate.Bound
import Tollgate.Proofs.Rate.Isolation

/-!
# How long a caller has to wait

A caller that is left alone until its wait is over is then allowed a request, and
not a nanosecond before. The wait is counted in units of the bucket's own limits. A
policy that is pending is only adopted by the request itself, which rounds the
credit down to new units; a whole token of old credit is a whole token of new
credit all the same, and less is less.

Results:
1. `fst_tryConsume_updateLimits_iff`: a request that adopts other limits is allowed from
   the same level on as one under the limits in force.
2. `unit_le_level_refill_iff`: that level is reached when the wait is over.
3. `Agree.run`: nothing happens to a bucket that is left alone.
4. `retryAfter_exact`: when a caller that is told to wait is allowed again.
-/

namespace Tollgate.Rate

/-! ## Limits -/

namespace Limits

variable {l : Limits}

theorem unit_le_maxLevel (h : l.capacity ≠ 0) : l.unit ≤ l.maxLevel := by
  have hpos : l.capacity.toNat ≠ 0 := fun hzero => h (UInt32.toNat_inj.mp hzero)
  exact Nat.le_min.mpr ⟨Nat.le_mul_of_pos_left _ (Nat.pos_of_ne_zero hpos), l.unit_le⟩

theorem maxLevel_of_capacity (h : l.capacity = 0) : l.maxLevel = 0 := by
  rw [maxLevel, h, UInt32.toNat_zero, Nat.zero_mul, Nat.zero_min]

end Limits

/-! ## Buckets -/

namespace Bucket

variable {b : Bucket} {limits : Limits} {t now : Instant}

/-- Whole tokens stay whole tokens in other units. -/
theorem unit_le_rescaled_iff {unit unit' level : Nat} (hunit : 0 < unit) (hunit' : 0 < unit') :
    unit' ≤ level * unit' / unit ↔ unit ≤ level := by
  rw [Nat.le_div_iff_mul_le hunit, Nat.mul_comm unit' unit]
  exact Nat.mul_le_mul_right_iff hunit'

theorem unit_le_level_updateLimits_iff (h : limits.capacity ≠ 0) :
    limits.unit ≤ (b.updateLimits limits).level ↔ b.limits.unit ≤ b.level := by
  have hmax := Limits.unit_le_maxLevel h
  have hrescaled := @unit_le_rescaled_iff b.limits.unit limits.unit b.level
    b.limits.one_le_unit limits.one_le_unit
  simp only [updateLimits, Nat.le_min, limits.unit_le, hmax, hrescaled, and_true]

/-- A request that adopts other limits is allowed exactly if one under the old limits
would be. -/
theorem fst_tryConsume_updateLimits_iff (h : limits.capacity ≠ 0) :
    (((b.refill now).updateLimits limits).tryConsume now).1 = true ↔
      b.limits.unit ≤ (b.refill now).level := by
  have hlast : now ≤ ((b.refill now).updateLimits limits).lastRefill := le_lastRefill_refill b now
  rw [fst_tryConsume_iff, refill_of_le hlast, ← limits_refill b now]
  exact unit_le_level_updateLimits_iff h

/-- A wait is as long as it takes to get the credit that is missing. -/
theorem nanos_timeUntilAvailable (h : b.limits.capacity ≠ 0) (t : Instant) :
    (b.timeUntilAvailable t).nanos = b.limits.unit - (b.refill t).level := by
  have hunit : b.limits.unit ≤ 18446744073709551615 := b.limits.unit_le
  simp only [timeUntilAvailable, limits_refill, if_neg h]
  split
  · next hle => exact (Nat.sub_eq_zero_of_le hle).symm
  · simp only [Duration.ofNanos, Duration.limit]
    omega

theorem timeUntilAvailable_of_capacity (h : b.limits.capacity = 0) (t : Instant) :
    b.timeUntilAvailable t = .never := by
  simp only [timeUntilAvailable, limits_refill, if_pos h]

/-- There is a token when the wait is over, and none before. -/
theorem unit_le_level_refill_iff (hlevel : b.level ≤ b.limits.maxLevel)
    (hcapacity : b.limits.capacity ≠ 0) (hlast : b.lastRefill ≤ t) (hnow : t ≤ now) :
    b.limits.unit ≤ (b.refill now).level ↔ t + (b.timeUntilAvailable t).nanos ≤ now := by
  have hmax := Limits.unit_le_maxLevel hcapacity
  rw [nanos_timeUntilAvailable hcapacity, level_refill hlevel, level_refill hlevel]
  unfold Instant.since
  lia

end Bucket

/-! ## Callers that are left alone -/

/-- The action does not use the bucket of `k` and publishes no policy. -/
def Action.leaves {K : Type} [DecidableEq K] (k : K) (a : Action K) : Bool :=
  !a.requests k && !a.relimits k

namespace Entry

variable {e : Entry} {edition : Edition}

/-- A request is allowed from one whole token on, whether the entry is up to date or a
policy is pending for it. -/
theorem fst_tryConsume_sync_iff (hpending : (e.tier.limits edition.policy).capacity ≠ 0)
    (now : Instant) :
    ((e.sync edition now).bucket.tryConsume now).1 = true ↔
      e.bucket.limits.unit ≤ (e.bucket.refill now).level := by
  unfold sync
  split
  · exact Bucket.fst_tryConsume_iff
  · exact Bucket.fst_tryConsume_updateLimits_iff hpending

end Entry

namespace Admission

variable {decision : Admission}

theorem isAllowed_iff : decision.isAllowed = true ↔ decision = .allowed := by
  cases decision <;> simp [isAllowed]

theorem isAllowed_eq_false_iff : decision.isAllowed = false ↔ decision = .denied := by
  cases decision <;> simp [isAllowed]

end Admission

namespace Limiter

variable {K : Type} [DecidableEq K] {l : Limiter K} {k : K} {e : Entry} {t now : Instant}
  {actions : List (Action K)}

/-- Nothing happens to a bucket that is left alone and kept. -/
theorem Agree.run (h : l.Sound) (hleft : ∀ a ∈ actions, a.leaves k = true)
    (hkept : l.Keeps k actions) : Agree k (l.run actions) l := by
  induction actions generalizing l with
  | nil => exact Agree.refl k l
  | cons a rest ih =>
    have ha := hleft a List.mem_cons_self
    simp only [Action.leaves, Bool.and_eq_true, Bool.not_eq_true'] at ha
    have hrest := ih (h.perform a) (fun a ha => hleft a (List.mem_cons_of_mem _ ha)) hkept.2
    exact hrest.trans ⟨edition_perform ha.2, idleTtl_perform l a,
      find?_perform_of_contains h ha.1 ha.2 hkept.1⟩

theorem retryAfter_of_find? (he : l.find? k = some e) (t : Instant) :
    l.retryAfter k t = e.bucket.timeUntilAvailable t := by
  rw [retryAfter, he]

/-- How long a caller is told to wait is how long it has to wait, as long as it is left
alone and no other policy is published; it does not matter that one may be pending. A
caller whose bucket is up to date and can hold nothing is told to wait forever, and is
never allowed. -/
theorem retryAfter_exact (h : l.Reachable) (he : l.find? k = some e)
    (hlast : e.bucket.lastRefill ≤ t) (hleft : ∀ a ∈ actions, a.leaves k = true)
    (hkept : l.Keeps k actions) :
    (e.bucket.limits.capacity ≠ 0 → (e.tier.limits l.policy).capacity ≠ 0 →
      ((l.run actions).admitAt k (t + (l.retryAfter k t).nanos)).1 = .allowed ∧
      ∀ now, t ≤ now → now < t + (l.retryAfter k t).nanos →
        ((l.run actions).admitAt k now).1 = .denied) ∧
    (e.generation = l.edition.generation → e.bucket.limits.capacity = 0 →
      l.retryAfter k t = .never ∧ ∀ now, ((l.run actions).admitAt k now).1 = .denied) := by
  have hsound := sound_of_reachable h
  have hentry := hsound.of_find? he
  have hdecides : ∀ now, (l.run actions).deciding k now = e.sync l.edition now := by
    intro now
    rw [(Agree.run hsound hleft hkept).deciding_eq, deciding, he]
    rfl
  rw [retryAfter_of_find? he]
  constructor
  · intro hcapacity hpending
    have hallowed : ∀ now, t ≤ now → (((l.run actions).admitAt k now).1.isAllowed = true ↔
        t + (e.bucket.timeUntilAvailable t).nanos ≤ now) := by
      intro now hnow
      rw [isAllowed_admitAt, hdecides, Entry.fst_tryConsume_sync_iff hpending,
        Bucket.unit_le_level_refill_iff hentry.level_le hcapacity hlast hnow]
    have hlater : t ≤ t + (e.bucket.timeUntilAvailable t).nanos :=
      Int.le_add_of_nonneg_right (Int.natCast_nonneg _)
    refine ⟨Admission.isAllowed_iff.mp ((hallowed _ hlater).mpr (Int.le_refl _)), fun now hnow hlt => ?_⟩
    refine Admission.isAllowed_eq_false_iff.mp (Bool.eq_false_iff.mpr fun hyes => ?_)
    exact Int.not_le.mpr hlt ((hallowed now hnow).mp hyes)
  · intro hcurrent hcapacity
    refine ⟨Bucket.timeUntilAvailable_of_capacity hcapacity t, fun now => ?_⟩
    have hempty : (e.bucket.refill now).level = 0 := by
      have hle := Bucket.level_refill_le now hentry.level_le
      rw [Limits.maxLevel_of_capacity hcapacity] at hle
      exact Nat.le_zero.mp hle
    refine Admission.isAllowed_eq_false_iff.mp (Bool.eq_false_iff.mpr fun hyes => ?_)
    rw [isAllowed_admitAt, hdecides, Entry.sync, if_pos hcurrent, Bucket.fst_tryConsume_iff,
      hempty] at hyes
    exact Nat.not_succ_le_zero _ (Nat.le_trans e.bucket.limits.one_le_unit hyes)

/-- What happens while caller `1` waits: it looks at its bucket, and caller `6` takes the
slot of caller `4`. -/
def exMeanwhile : List (Action Nat) :=
  [.request 2 6, .isPromoted 1, .promote 6 7, .purgeIdle 8, .retryAfter 1 8]

/-- Nothing is ever allowed to caller `1`. -/
def exClosed : Limiter Nat :=
  (new { policy := ⟨⟨0, .ofNanos 10⟩, ⟨4, .ofNanos 5⟩⟩ } id).run [.request 1 0]

/-- At instant `5` caller `1` holds half a token of ten nanoseconds, and a policy is
pending under which a token takes twenty. -/
theorem retryAfter_exPending :
    (exPending.retryAfter 1 5).nanos = 5 ∧
    ((exPending.run exMeanwhile).admitAt 1 10).1 = .allowed ∧
    ((exPending.run exMeanwhile).admitAt 1 9).1 = .denied ∧
    exClosed.retryAfter 1 5 = .never ∧
    ((exClosed.run exMeanwhile).admitAt 1 1000).1 = .denied := by
  have hreachable : exPending.Reachable := ⟨_, _, _, rfl⟩
  have hreachable' : exClosed.Reachable := ⟨_, _, _, rfl⟩
  have hnanos : (exPending.retryAfter 1 5).nanos = 5 := by decide
  have hpending : exPending.find? 1 = some ⟨⟨⟨2, .ofNanos 10⟩, 3, 3⟩, .default, 0⟩ := by decide
  have hclosed : exClosed.find? 1 = some ⟨⟨⟨0, .ofNanos 10⟩, 0, 0⟩, .default, 0⟩ := by decide
  have hleft : ∀ a ∈ exMeanwhile, a.leaves 1 = true := by decide
  obtain ⟨hexact, -⟩ :=
    retryAfter_exact hreachable hpending (by decide : (3 : Int) ≤ 5) hleft (by decide)
  obtain ⟨-, hforever⟩ :=
    retryAfter_exact hreachable' hclosed (by decide : (0 : Int) ≤ 5) hleft (by decide)
  obtain ⟨hallowed, hdenied⟩ := hexact (by decide) (by decide)
  obtain ⟨hnever, hdenied'⟩ := hforever rfl rfl
  rw [hnanos] at hallowed hdenied
  exact ⟨hnanos, hallowed, hdenied 9 (by decide) (by decide), hnever, hdenied' 1000⟩

end Limiter

end Tollgate.Rate
