import Tollgate.Proofs.Verify.Ledger
import Tollgate.Verify.SharedReplay
import Tollgate.Verify.Verifier

/-!
# Which verifications reach a verdict

A verification counts the verdict that it reaches. It reaches one unless counting
the presentation breaks off, which the shared store never does, and counters in
memory do where a new one would outlast the clock.

Results:
1. `Tally.total_record`: a verdict counts once.
2. `ReplayLedger.present_eq_error_iff`, `Store.present_ne_error`: where counting a
   presentation breaks off.
3. `Verifier.verifyWithin_eq`: when a budget of time matters, where the owner is found
   in no time.
4. `Verifier.verify_cases`: a verification reaches a verdict and counts it, or it
   breaks off and counts nothing.
-/

namespace Tollgate

/-! ## Counts -/

namespace Tally

/-- How many verifications have been counted. -/
def total (t : Tally) : Nat :=
  t.success + t.expired + t.ownerMismatch + t.proofInvalid + t.replayExceeded + t.malformed

theorem total_record (t : Tally) (outcome : Outcome) :
    (t.record outcome).total = t.total + 1 := by
  unfold total
  cases outcome with
  | malformed => exact (Nat.add_assoc _ _ _).symm
  | _ =>
    simp only [record]
    omega

end Tally

/-! ## Presentations -/

/-- The presentation takes a new counter, and the counter would end later than the
clock can show. -/
def ReplayLedger.outlasts (l : ReplayLedger) (p : Presentation) (now : Instant) : Bool :=
  (l.live? p.key now).isNone && (now.after? p.ttl).isNone

theorem ReplayLedger.present_eq_error_iff {l : ReplayLedger} {p : Presentation} {now : Instant}
    {crash : Crash} :
    (present now p l).1 = .error crash ↔ l.outlasts p now = true ∧ crash = .clockOverflow := by
  unfold outlasts
  cases hlive : l.live? p.key now with
  | some c =>
    rw [present_of_live hlive]
    constructor
    · intro h
      cases h
    · rintro ⟨h, -⟩
      cases h
  | none =>
    cases hend : now.after? p.ttl with
    | none =>
      rw [present_of_overflow hlive hend]
      exact ⟨fun h => ⟨rfl, (Except.error.inj h).symm⟩, fun h => congrArg _ h.2.symm⟩
    | some expires =>
      have hfresh : (present now p l).1 = .ok (.ok (1 ≤ p.limit.toNat)) := by
        rw [live?] at hlive
        simp only [present, hlive, hend]
      rw [hfresh]
      constructor
      · intro h
        cases h
      · rintro ⟨h, -⟩
        cases h

theorem Store.present_ne_error (s : Store) (p : Presentation) (now : Instant) (crash : Crash) :
    (present now p s).1 ≠ .error crash := by
  unfold present
  dsimp only
  split
  · exact nofun
  · exact nofun

/-! ## Verifications -/

namespace Verifier

variable {σ : Type} {v : Verifier} {submission : Submission} {resource : Resource}
  {now : Timestamp}

/-- Where the owner is found in no time, only the counting of a presentation can take
longer than the budget allows. -/
theorem verifyWithin_eq {budget trip : Duration} (tracker : Tracker σ) (store : σ)
    (hdelay : resource.delay = .zero) :
    v.verifyWithin budget tracker store submission resource now trip =
      if (examine v.key submission resource now).presentation?.isSome ∧
          budget.nanos < trip.nanos then
        (.ok (.error (timeoutFailure budget)), v,
          (v.verify tracker store submission resource now).2.2)
      else
        ((v.verify tracker store submission resource now).1.map .ok,
          (v.verify tracker store submission resource now).2) := by
  have hwait : (v.delay submission resource now).nanos = 0 := by
    unfold delay
    split
    · rw [hdelay]
      rfl
    · rfl
  simp only [verifyWithin, hwait, Nat.not_lt_zero, if_false, Nat.zero_add]

theorem verifyWithin_of_inTime {budget trip : Duration} (tracker : Tracker σ) (store : σ)
    (hdelay : resource.delay = .zero)
    (htime : (examine v.key submission resource now).presentation?.isSome →
      trip.nanos ≤ budget.nanos) :
    v.verifyWithin budget tracker store submission resource now trip =
      ((v.verify tracker store submission resource now).1.map .ok,
        (v.verify tracker store submission resource now).2) := by
  rw [verifyWithin_eq tracker store hdelay, if_neg]
  rintro ⟨hpending, hlate⟩
  exact Nat.not_le.mpr hlate (htime hpending)

theorem verify_cases (v : Verifier) (tracker : Tracker σ) (store : σ) (submission : Submission)
    (resource : Resource) (now : Timestamp) :
    (∃ verdict, (v.verify tracker store submission resource now).1 = .ok verdict ∧
      (v.verify tracker store submission resource now).2.1 = v.finish verdict ∧
      ∀ presentation, examine v.key submission resource now = .pending presentation →
        ∀ crash, (tracker presentation store).1 ≠ .error crash) ∨
    ∃ presentation crash, examine v.key submission resource now = .pending presentation ∧
      (tracker presentation store).1 = .error crash ∧
      (v.verify tracker store submission resource now).1 = .error crash ∧
      (v.verify tracker store submission resource now).2.1 = v := by
  unfold verify
  cases hexamine : examine v.key submission resource now with
  | decided verdict => exact .inl ⟨verdict, rfl, rfl, nofun⟩
  | pending presentation =>
    dsimp only
    cases htracker : tracker presentation store with
    | mk answer store' =>
      cases answer with
      | ok answer =>
        refine .inl ⟨verdictOf presentation answer, rfl, rfl, fun presentation' h crash => ?_⟩
        obtain rfl := Examination.pending.inj h
        rw [htracker]
        exact nofun
      | error crash => exact .inr ⟨presentation, crash, rfl, congrArg _ htracker, rfl, rfl⟩

end Verifier

end Tollgate
