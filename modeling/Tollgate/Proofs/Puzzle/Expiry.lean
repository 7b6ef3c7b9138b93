import Tollgate.Verify.Verifier

/-!
# When a puzzle expires

A puzzle is accepted up to and including one nanosecond: the last one that is no
later than its expiry and a tolerance. Dates end before the seconds of 64 bits do,
so the second that this sum names may have none; such a puzzle outlives every
date.

Results:
1. `isExpired_of_le_deadline`: up to its last nanosecond a puzzle has not expired.
2. `isExpired_iff_deadline_lt`: at every point that has a date, it has expired
   exactly after its last nanosecond.
3. `isExpired_of_le`, `isExpired_iff`: the same with the tolerance that is left to
   clocks which are not in step.
4. `isExpired_exact`: when a puzzle has expired, and what makes it expire later.
-/

namespace Tollgate.Puzzle

variable {p : Puzzle} {now : Timestamp} {tolerance : UInt64}

/-! ## With any tolerance -/

theorem isExpired_of_le_deadline
    (h : now.nanos ≤ (p.expiresAt.toNat + tolerance.toNat) * 1000000000) :
    p.isExpired now tolerance = false := by
  have hlast : Timestamp.lastSecond = 8210266876799 := rfl
  simp only [isExpired, deadline?, Timestamp.ofSecond?]
  split
  · next deadline hdeadline =>
    split at hdeadline
    · cases hdeadline
      refine decide_eq_false ?_
      simp only [Timestamp.ofSeconds]
      omega
    · cases hdeadline
  · rfl

/-- A puzzle accepted at a point that has a date is accepted up to its last
nanosecond, also if that has no date or its second leaves the 64 bits. -/
theorem nanos_le_deadline (hdate : now.seconds ≤ Timestamp.lastSecond)
    (h : p.isExpired now tolerance = false) :
    now.nanos ≤ (p.expiresAt.toNat + tolerance.toNat) * 1000000000 := by
  have hlast : Timestamp.lastSecond = 8210266876799 := rfl
  simp only [isExpired, deadline?, Timestamp.ofSecond?] at h
  simp only [Timestamp.seconds] at hdate
  split at h
  · next deadline hdeadline =>
    split at hdeadline
    · cases hdeadline
      have hle := of_decide_eq_false h
      simp only [Timestamp.ofSeconds] at hle
      omega
    · cases hdeadline
  · next hdeadline =>
    split at hdeadline
    · cases hdeadline
    · omega

theorem isExpired_iff_deadline_lt (hdate : now.seconds ≤ Timestamp.lastSecond) :
    p.isExpired now tolerance = true ↔
      (p.expiresAt.toNat + tolerance.toNat) * 1000000000 < now.nanos := by
  constructor
  · intro h
    refine Int.not_le.mp fun hle => ?_
    rw [isExpired_of_le_deadline hle] at h
    cases h
  · intro h
    refine Bool.of_not_eq_false fun hvalid => ?_
    exact Int.not_lt.mpr (nanos_le_deadline hdate hvalid) h

/-! ## With the tolerance for clocks -/

/-- The last nanosecond of the wall clock at which the puzzle is accepted. -/
def lastNanos (p : Puzzle) : Int :=
  (p.expiresAt.toNat + clockSkew.toNat) * 1000000000

theorem isExpired_of_le (h : now.nanos ≤ p.lastNanos) : p.isExpired now clockSkew = false :=
  isExpired_of_le_deadline h

theorem nanos_le_lastNanos (hdate : now.seconds ≤ Timestamp.lastSecond)
    (h : p.isExpired now clockSkew = false) : now.nanos ≤ p.lastNanos :=
  nanos_le_deadline hdate h

theorem isExpired_iff (hdate : now.seconds ≤ Timestamp.lastSecond) :
    p.isExpired now clockSkew = true ↔ p.lastNanos < now.nanos :=
  isExpired_iff_deadline_lt hdate

/-! ## Results -/

/-- At every point that has a date, before 1970 or after, a puzzle has expired
exactly if the point is later than its expiry and the tolerance together, in
nanoseconds and without bounds. So it stays expired as time goes on, a later
expiry or more tolerance never make it expire, and it never expires if the second
up to which it is accepted has no date. -/
theorem isExpired_exact (p : Puzzle) (tolerance : UInt64) (now : Timestamp)
    (hdate : now.seconds ≤ Timestamp.lastSecond) :
    (p.isExpired now tolerance = true ↔
      (p.expiresAt.toNat + tolerance.toNat) * 1000000000 < now.nanos) ∧
    (∀ later : Timestamp, later.seconds ≤ Timestamp.lastSecond → now.nanos ≤ later.nanos →
      p.isExpired now tolerance = true → p.isExpired later tolerance = true) ∧
    (∀ (p' : Puzzle) (tolerance' : UInt64), p.expiresAt ≤ p'.expiresAt → tolerance ≤ tolerance' →
      p'.isExpired now tolerance' = true → p.isExpired now tolerance = true) ∧
    (Timestamp.lastSecond < p.expiresAt.toNat + tolerance.toNat →
      p.isExpired now tolerance = false) := by
  refine ⟨isExpired_iff_deadline_lt hdate, ?_, ?_, ?_⟩
  · intro later hlater hle hexpired
    rw [isExpired_iff_deadline_lt hdate] at hexpired
    exact (isExpired_iff_deadline_lt hlater).mpr (Int.lt_of_lt_of_le hexpired hle)
  · intro p' tolerance' hexpires htolerance hexpired
    rw [isExpired_iff_deadline_lt hdate] at hexpired ⊢
    have hexpires : p.expiresAt.toNat ≤ p'.expiresAt.toNat := hexpires
    have htolerance : tolerance.toNat ≤ tolerance'.toNat := htolerance
    omega
  · intro hbeyond
    refine isExpired_of_le_deadline ?_
    simp only [Timestamp.seconds] at hdate
    omega

/-- A puzzle that is accepted up to the last second that has a date, with the
tolerance for clocks. -/
def exLast : Puzzle :=
  ⟨7, .replicate 16 0xab, .lowest, 1, 1000, 8210266876794, .replicate 16 0⟩

/-- Half of the last second that has a date has gone by: the puzzle has expired, will
stay so, and would have with less tolerance. With one second more it never does. -/
theorem isExpired_exLast :
    exLast.isExpired ⟨8210266876799500000000⟩ 5 = true ∧
    exLast.isExpired ⟨8210266876799999999999⟩ 5 = true ∧
    exLast.isExpired ⟨8210266876799500000000⟩ 4 = true ∧
    exLast.isExpired ⟨8210266876799500000000⟩ 6 = false := by
  have hdate : Timestamp.seconds ⟨8210266876799500000000⟩ ≤ Timestamp.lastSecond := by decide
  obtain ⟨hiff, hlater, -, -⟩ := isExpired_exact exLast 5 ⟨8210266876799500000000⟩ hdate
  obtain ⟨-, -, hless, -⟩ := isExpired_exact exLast 4 ⟨8210266876799500000000⟩ hdate
  obtain ⟨-, -, -, hnever⟩ := isExpired_exact exLast 6 ⟨8210266876799500000000⟩ hdate
  have hexpired := hiff.mpr (by decide)
  exact ⟨hexpired, hlater _ (by decide) (by decide) hexpired,
    hless exLast 5 (by decide) (by decide) hexpired, hnever (by decide)⟩

end Tollgate.Puzzle
