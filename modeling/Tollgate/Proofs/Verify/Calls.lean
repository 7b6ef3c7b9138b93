import Tollgate.Proofs.Verify.Ledger
import Tollgate.Time.Moment
import Tollgate.Verify.Verifier

/-!
# Runs of a verifier with counters in memory

A call hands the verifier a submission at a moment. All checks but the last
read the call alone; what passes them presents its puzzle to the ledger. So a
run of calls is a run of presentations, with calls in between that leave no
trace but a count of their outcome.

Results:
1. `examine_eq_pending_iff`: what passes all checks but the last, and what it
   presents.
2. `perform_of_decided`, `perform_of_presented`: the outcome of one call, and
   the ledger after it.
-/

namespace Tollgate

/-- What a presentation of the puzzle is counted by. -/
def Puzzle.replayKey (p : Puzzle) : ReplayKey :=
  ⟨p.owner, p.id⟩

/-- One verification: what is submitted, for which resource, and when. -/
structure Call where
  submission : Submission
  resource : Resource
  now : Moment

/-- What the call presents to the ledger, if it passes the other checks. -/
def Call.presentation? (key : PuzzleKey) (c : Call) : Option Presentation :=
  (Verifier.examine key c.submission c.resource c.now.wall).presentation?

namespace Verifier

variable {v : Verifier} {key : PuzzleKey} {l : ReplayLedger} {c : Call}
  {presentation : Presentation} {p : Puzzle} {calls : List Call}

/-! ## Definitions -/

/-- Verifies what is submitted, with the counters of a ledger. -/
def perform (v : Verifier) (l : ReplayLedger) (c : Call) :
    Except Crash Verdict × Verifier × ReplayLedger :=
  v.verify (ReplayLedger.present c.now.clock) l c.submission c.resource c.now.wall

/-- The outcomes of some calls, in their order; a call that crashes has none. -/
def outcomes : Verifier → ReplayLedger → List Call → List (Option Outcome)
  | _, _, [] => []
  | v, l, c :: rest =>
    (v.perform l c).1.toOption.map Verdict.outcome ::
      outcomes (v.perform l c).2.1 (v.perform l c).2.2 rest

/-- Whether the outcome is one that the count of presentations has decided. -/
def isCounted (outcome : Option Outcome) : Bool :=
  outcome = some .success || outcome = some .replayExceeded

/-- How many submissions of a puzzle succeed. -/
def successesOf (v : Verifier) (l : ReplayLedger) (p : Puzzle) (calls : List Call) : Nat :=
  (calls.zip (v.outcomes l calls)).countP fun (c, outcome) =>
    c.submission.puzzle = p && outcome = some .success

/-- The calls whose submission of a puzzle was counted. -/
def countedOf (v : Verifier) (l : ReplayLedger) (p : Puzzle) (calls : List Call) : List Call :=
  ((calls.zip (v.outcomes l calls)).filter fun (c, outcome) =>
    c.submission.puzzle = p && isCounted outcome).map Prod.fst

/-! ## One call -/

/-- A submission passes all checks but the last if it is authentic, in time, for
the owner and solved. -/
theorem examine_eq_pending_iff {s : Submission} {resource : Resource} {now : Timestamp} :
    examine key s resource now = .pending presentation ↔
      key.verify s.body.toList s.tag.toList = true ∧ s.puzzle.isExpired now clockSkew = false ∧
        resource.owner = .ok s.puzzle.owner ∧ s.puzzle.isSolvedBy s.nonces = true ∧
        presentation = ⟨s.puzzle.replayKey, resource.policy.allowedPresentations,
          counterTtl s.puzzle now⟩ := by
  unfold examine
  cases hauthentic : key.verify s.body.toList s.tag.toList with
  | false => simp
  | true =>
    cases hexpired : s.puzzle.isExpired now clockSkew with
    | true => simp
    | false =>
      cases howner : resource.owner with
      | error failure => simp
      | ok owner =>
        by_cases hsame : owner = s.puzzle.owner
        · cases hsolved : s.puzzle.isSolvedBy s.nonces with
          | false => simp [hsame]
          | true => simp [hsame, Puzzle.replayKey, eq_comm]
        · simp [hsame]

theorem presentation?_eq_some_iff :
    c.presentation? key = some presentation ↔
      examine key c.submission c.resource c.now.wall = .pending presentation :=
  Examination.presentation?_eq_some_iff

/-- The checks before the last have outcomes of their own. -/
theorem isCounted_of_decided {s : Submission} {resource : Resource} {now : Timestamp}
    {verdict : Verdict} (h : examine key s resource now = .decided verdict) :
    isCounted (some verdict.outcome) = false := by
  unfold examine at h
  repeat' split at h
  all_goals cases h <;> rfl

theorem perform_of_decided (h : c.presentation? v.key = none) :
    isCounted ((v.perform l c).1.toOption.map Verdict.outcome) = false ∧
      (v.perform l c).2.1.key = v.key ∧ (v.perform l c).2.2 = l := by
  cases hexamine : examine v.key c.submission c.resource c.now.wall with
  | decided verdict =>
    have hout := isCounted_of_decided hexamine
    rw [perform, verify, hexamine]
    exact ⟨hout, rfl, rfl⟩
  | pending presentation =>
    rw [presentation?_eq_some_iff.mpr hexamine] at h
    cases h

/-- The outcome that follows from an answer of the ledger. -/
def outcomeOf : Except Crash (Except Failure Bool) → Option Outcome
  | .ok (.ok true) => some .success
  | .ok _ => some .replayExceeded
  | .error _ => none

theorem perform_of_presented (h : c.presentation? v.key = some presentation) :
    (v.perform l c).1.toOption.map Verdict.outcome =
        outcomeOf (ReplayLedger.present c.now.clock presentation l).1 ∧
      (v.perform l c).2.1.key = v.key ∧
      (v.perform l c).2.2 = (ReplayLedger.present c.now.clock presentation l).2 := by
  have hexamine := presentation?_eq_some_iff.mp h
  simp only [perform, verify, hexamine]
  cases hanswer : ReplayLedger.present c.now.clock presentation l with
  | mk answer l' =>
    cases answer with
    | error crash => exact ⟨rfl, rfl, rfl⟩
    | ok answer =>
      cases answer with
      | error failure => exact ⟨rfl, rfl, rfl⟩
      | ok accepted => cases accepted <;> exact ⟨rfl, rfl, rfl⟩

theorem key_perform (v : Verifier) (l : ReplayLedger) (c : Call) :
    (v.perform l c).2.1.key = v.key := by
  cases h : c.presentation? v.key with
  | none => exact (perform_of_decided h).2.1
  | some presentation => exact (perform_of_presented h).2.1

/-! ## Counting -/

/-- A call that is not counted for the puzzle changes none of its counts. -/
theorem counts_cons_of_not (calls : List Call) (h : c.submission.puzzle = p →
    isCounted ((v.perform l c).1.toOption.map Verdict.outcome) = false) :
    v.successesOf l p (c :: calls) =
        (v.perform l c).2.1.successesOf (v.perform l c).2.2 p calls ∧
      v.countedOf l p (c :: calls) =
        (v.perform l c).2.1.countedOf (v.perform l c).2.2 p calls := by
  by_cases hp : c.submission.puzzle = p
  · have hnot := h hp
    simp only [isCounted, Bool.or_eq_false_iff, decide_eq_false_iff_not] at hnot
    simp [successesOf, countedOf, outcomes, isCounted, hnot]
  · simp [successesOf, countedOf, outcomes, hp]

theorem successesOf_cons (hp : c.submission.puzzle = p) :
    v.successesOf l p (c :: calls) =
      (v.perform l c).2.1.successesOf (v.perform l c).2.2 p calls +
        if (v.perform l c).1.toOption.map Verdict.outcome = some .success then 1 else 0 := by
  simp [successesOf, outcomes, hp, List.countP_cons]

theorem countedOf_cons (hp : c.submission.puzzle = p)
    (h : isCounted ((v.perform l c).1.toOption.map Verdict.outcome) = true) :
    v.countedOf l p (c :: calls) =
      c :: (v.perform l c).2.1.countedOf (v.perform l c).2.2 p calls := by
  simp [countedOf, outcomes, hp, h]

theorem length_outcomes (v : Verifier) (l : ReplayLedger) (calls : List Call) :
    (v.outcomes l calls).length = calls.length := by
  induction calls generalizing v l with
  | nil => rfl
  | cons c rest ih => simp [outcomes, ih]

theorem countedOf_sublist (v : Verifier) (l : ReplayLedger) (p : Puzzle) (calls : List Call) :
    (v.countedOf l p calls).Sublist calls := by
  have hfst : (calls.zip (v.outcomes l calls)).map Prod.fst = calls :=
    List.map_fst_zip (Nat.le_of_eq (length_outcomes v l calls).symm)
  have hsub : (v.countedOf l p calls).Sublist ((calls.zip (v.outcomes l calls)).map Prod.fst) :=
    List.filter_sublist.map _
  rwa [hfst] at hsub

end Verifier

end Tollgate
