import Tollgate.Rate.Bucket

/-!
Refill intervals told in seconds.

Main statement: a number of seconds makes limits exactly if it is a length of time that does not round
to zero.
-/

namespace Tollgate.Rate

/-- Why a number of seconds is no refill interval. -/
inductive IntervalFault
  | noDuration (seconds : Float) (cause : Duration.Fault)
  | zero
deriving Repr

namespace IntervalFault

/-- The fault without its cause. -/
def summary : IntervalFault → String
  | .noDuration seconds _ => "invalid refill interval " ++ Decimal.plain seconds
  | .zero => "refill interval must be positive"

def message : IntervalFault → String
  | .noDuration seconds cause => (noDuration seconds cause).summary ++ ": " ++ cause.message
  | .zero => zero.summary

end IntervalFault

/-- The limits of a burst and of the seconds that refill one token. -/
def Limits.ofSeconds (capacity : UInt32) (seconds : Float) : Except IntervalFault Limits :=
  match Duration.ofSeconds? seconds with
  | .error cause => .error (.noDuration seconds cause)
  | .ok interval => if interval.nanos = 0 then .error .zero else .ok ⟨capacity, interval⟩

theorem Limits.ofSeconds_eq_ok_iff {capacity : UInt32} {seconds : Float} {limits : Limits} :
    Limits.ofSeconds capacity seconds = .ok limits ↔
      Duration.ofSeconds? seconds = .ok limits.interval ∧ limits.interval.nanos ≠ 0 ∧
        limits.capacity = capacity := by
  obtain ⟨ownCapacity, interval⟩ := limits
  unfold Limits.ofSeconds
  split
  · simp_all
  · rename_i read found
    by_cases none : read.nanos = 0
    · simp only [none, if_true, found]
      constructor
      · intro equal
        cases equal
      · rintro ⟨equal, positive, -⟩
        cases equal
        exact absurd none positive
    · simp only [none, if_false, found, Except.ok.injEq, Limits.mk.injEq]
      constructor
      · rintro ⟨rfl, rfl⟩
        exact ⟨rfl, none, rfl⟩
      · rintro ⟨rfl, -, rfl⟩
        exact ⟨rfl, rfl⟩

end Tollgate.Rate
