import Tollgate.Rate.Limiter

/-!
# Counting decisions

A limiter counts the requests that it admits and those that it denies. Every
request counts once, whatever the limiter holds, and nothing else does.

Results:
1. `decisions_admitAt`: a request counts once.
2. `decisions_setTier`, `decisions_purgeIdle`, `decisions_updatePolicy`: what does
   not count.
-/

namespace Tollgate.Rate.Limiter

variable {K : Type}

/-- How many requests have been decided. -/
def decisions (l : Limiter K) : Nat :=
  l.counts.allowed + l.counts.denied

theorem decisions_new (settings : LimiterSettings) (place : K → Nat) :
    (new settings place).decisions = 0 :=
  rfl

theorem decisions_reserveSlot (l : Limiter K) (start : Nat) :
    (l.reserveSlot start).decisions = l.decisions := by
  unfold reserveSlot
  split
  · rfl
  · split
    · rfl
    · rfl

theorem decisions_purgeIdle (l : Limiter K) (now : Instant) :
    (l.purgeIdle now).2.decisions = l.decisions :=
  rfl

theorem decisions_updatePolicy (l : Limiter K) (policy : Policy) :
    (l.updatePolicy policy).decisions = l.decisions :=
  rfl

variable [DecidableEq K]

theorem decisions_entryFor (l : Limiter K) (k : K) (tier : Tier) (now : Instant) :
    (l.entryFor k tier now).2.decisions = l.decisions := by
  unfold entryFor
  split
  · rfl
  · exact decisions_reserveSlot l _

theorem decisions_admitAt (l : Limiter K) (k : K) (now : Instant) :
    (l.admitAt k now).2.decisions = l.decisions + 1 := by
  have hentry := decisions_entryFor l k .default now
  rw [← hentry]
  simp only [admitAt, decisions]
  split
  · exact Nat.add_right_comm _ _ _
  · exact (Nat.add_assoc _ _ _).symm

theorem decisions_setTier (l : Limiter K) (k : K) (tier : Tier) (now : Instant) :
    (l.setTier k tier now).decisions = l.decisions :=
  decisions_entryFor l k tier now

end Tollgate.Rate.Limiter
