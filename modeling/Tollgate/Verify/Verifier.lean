import Tollgate.Puzzle.Submission
import Tollgate.Puzzle.Work
import Tollgate.Verify.Outcome
import Tollgate.Verify.Replay

/-!
Verifying submissions.

Checks run in a fixed order and the first one that fails decides: authenticity, expiry, owner, proof,
number of presentations.
-/

namespace Tollgate

/-- An outcome and its reason in words. -/
structure Verdict where
  outcome : Outcome
  detail : String
deriving DecidableEq, Repr

/-- What the checks before the counting of presentations have led to. -/
inductive Examination
  | decided (verdict : Verdict)
  | pending (presentation : Presentation)
deriving DecidableEq

/-- What is presented, if only the counting of that is left to do. -/
def Examination.presentation? : Examination → Option Presentation
  | .decided _ => none
  | .pending presentation => some presentation

theorem Examination.presentation?_eq_some_iff {examination : Examination}
    {presentation : Presentation} :
    examination.presentation? = some presentation ↔ examination = .pending presentation := by
  cases examination <;> simp [presentation?]

/-- How many verifications had each outcome. -/
structure Tally where
  success : Nat := 0
  expired : Nat := 0
  ownerMismatch : Nat := 0
  proofInvalid : Nat := 0
  replayExceeded : Nat := 0
  malformed : Nat := 0
deriving DecidableEq, Repr

namespace Tally

def count (t : Tally) : Outcome → Nat
  | .success => t.success
  | .expired => t.expired
  | .ownerMismatch => t.ownerMismatch
  | .proofInvalid => t.proofInvalid
  | .replayExceeded => t.replayExceeded
  | .malformed => t.malformed

def record (t : Tally) : Outcome → Tally
  | .success => { t with success := t.success + 1 }
  | .expired => { t with expired := t.expired + 1 }
  | .ownerMismatch => { t with ownerMismatch := t.ownerMismatch + 1 }
  | .proofInvalid => { t with proofInvalid := t.proofInvalid + 1 }
  | .replayExceeded => { t with replayExceeded := t.replayExceeded + 1 }
  | .malformed => { t with malformed := t.malformed + 1 }

end Tally

/-- The seconds by which clocks of issuer and verifier may differ. -/
def clockSkew : UInt64 := 5

/-- The resource that a submission is verified against. -/
structure Resource where
  owner : Except Failure Owner
  policy : ReplayPolicy
  /-- How long it takes to find the owner. -/
  delay : Duration := .zero

/-- Verifies submissions and counts the outcomes. -/
structure Verifier where
  key : PuzzleKey
  tally : Tally

namespace Verifier

def new (key : PuzzleKey) : Verifier :=
  ⟨key, {}⟩

/-- Whether the tag is right and the puzzle has not expired, so that its owner matters. -/
def asksOwner (key : PuzzleKey) (s : Submission) (now : Timestamp) : Bool :=
  key.verify s.body.toList s.tag.toList && !s.puzzle.isExpired now clockSkew

/-- How long the owner has to be waited for, which is only done where it matters. -/
def delay (v : Verifier) (s : Submission) (resource : Resource) (now : Timestamp) : Duration :=
  if asksOwner v.key s now then resource.delay else .zero

/-- How long a counter must live: as long as the puzzle may still be accepted. -/
def counterTtl (p : Puzzle) (now : Timestamp) : Duration :=
  .ofSeconds (max 1 (min (p.remainingSeconds now + clockSkew.toNat) 0xffffffffffffffff)).toUInt64

/-- All checks but the last. -/
def examine (key : PuzzleKey) (s : Submission) (resource : Resource) (now : Timestamp) :
    Examination :=
  if !key.verify s.body.toList s.tag.toList then
    .decided ⟨.malformed, "puzzle authentication failed"⟩
  else if s.puzzle.isExpired now clockSkew then
    .decided ⟨.expired, "puzzle expired, request a new one"⟩
  else
    match resource.owner with
    | .error failure =>
      .decided ⟨.ownerMismatch, "owner could not be resolved: " ++ failure.message⟩
    | .ok owner =>
      if owner ≠ s.puzzle.owner then
        .decided ⟨.ownerMismatch, "puzzle was issued for a different resource"⟩
      else if !s.puzzle.isSolvedBy s.nonces then
        .decided ⟨.proofInvalid, "proof does not meet the difficulty target"⟩
      else
        .pending ⟨⟨s.puzzle.owner, s.puzzle.id⟩, resource.policy.allowedPresentations,
          counterTtl s.puzzle now⟩

/-- The verdict that follows from counting a presentation. -/
def verdictOf (p : Presentation) : Except Failure Bool → Verdict
  | .ok true => ⟨.success, "ok"⟩
  | .ok false => ⟨.replayExceeded, s!"puzzle already presented {p.limit.toNat} time(s)"⟩
  | .error _ => ⟨.replayExceeded, "replay store unavailable"⟩

/-- Counts a verdict. -/
def finish (v : Verifier) (verdict : Verdict) : Verifier :=
  { v with tally := v.tally.record verdict.outcome }

variable {σ : Type}

/-- Verifies a submission, counting its presentation in a store. -/
def verify (v : Verifier) (tracker : Tracker σ) (store : σ) (s : Submission) (resource : Resource)
    (now : Timestamp) : Except Crash Verdict × Verifier × σ :=
  match examine v.key s resource now with
  | .decided verdict => (.ok verdict, v.finish verdict, store)
  | .pending presentation =>
    match tracker presentation store with
    | (.ok answer, store) =>
      let verdict := verdictOf presentation answer
      (.ok verdict, v.finish verdict, store)
    | (.error crash, store) => (.error crash, v, store)

/-- The verdict on something that is no submission. -/
def rejectMalformed (v : Verifier) (reason : String) : Verdict × Verifier :=
  let verdict : Verdict := ⟨.malformed, reason⟩
  (verdict, v.finish verdict)

/-- Reads and verifies a submission. -/
def verifyBytes (v : Verifier) (tracker : Tracker σ) (store : σ) (bytes : List UInt8)
    (resource : Resource) (now : Timestamp) : Except Crash Verdict × Verifier × σ :=
  match Submission.parse bytes with
  | .ok s => v.verify tracker store s resource now
  | .error fault =>
    let (verdict, v) := v.rejectMalformed fault.message
    (.ok verdict, v, store)

/-- The failure of a verification that takes longer than it may. -/
def timeoutFailure (budget : Duration) : Failure :=
  ⟨.timeout, s!"verification exceeded {budget.millis}ms"⟩

/-- Verifies a submission within a budget of time, where counting a presentation takes as long as
`trip`. A verification that takes longer is given up and has no verdict. Nobody waits for its
presentation then, but it is counted if the verification has come that far. -/
def verifyWithin (v : Verifier) (budget : Duration) (tracker : Tracker σ) (store : σ)
    (s : Submission) (resource : Resource) (now : Timestamp) (trip : Duration := .zero) :
    Except Crash (Except Failure Verdict) × Verifier × σ :=
  let wait := (v.delay s resource now).nanos
  if budget.nanos < wait then (.ok (.error (timeoutFailure budget)), v, store)
  else
    let (answer, counted, store) := v.verify tracker store s resource now
    if (examine v.key s resource now).presentation?.isSome ∧ budget.nanos < wait + trip.nanos then
      (.ok (.error (timeoutFailure budget)), v, store)
    else (answer.map .ok, counted, store)

end Verifier

end Tollgate
