import Tollgate.Json.Value
import Tollgate.Schema

/-!
Outcomes of a verification, and how often a solved puzzle may be presented.
-/

namespace Tollgate

/-- The outcome of verifying a submission. -/
inductive Outcome
  | success
  /-- The span of validity has passed. -/
  | expired
  /-- Solved for another resource. -/
  | ownerMismatch
  /-- The nonces do not meet the target. -/
  | proofInvalid
  /-- Presented more often than allowed. -/
  | replayExceeded
  /-- Not readable, or not authentic. -/
  | malformed
deriving DecidableEq, Repr

namespace Outcome

def name : Outcome → String
  | .success => "success"
  | .expired => "expired"
  | .ownerMismatch => "owner_mismatch"
  | .proofInvalid => "proof_invalid"
  | .replayExceeded => "replay_exceeded"
  | .malformed => "malformed"

def ofName? : String → Option Outcome
  | "success" => some .success
  | "expired" => some .expired
  | "owner_mismatch" => some .ownerMismatch
  | "proof_invalid" => some .proofInvalid
  | "replay_exceeded" => some .replayExceeded
  | "malformed" => some .malformed
  | _ => none

def codec : Codec Outcome :=
  .choice ofName?

def isSuccess (outcome : Outcome) : Bool :=
  outcome = .success

/-- The code told to clients; a success has none. -/
def code? : Outcome → Option String
  | .success => none
  | outcome => some outcome.name

end Outcome

/-- How often a solved puzzle may be presented. -/
structure ReplayPolicy where
  allowReplay : Bool := false
  maxReplayCount : UInt32 := 0
deriving DecidableEq, Repr

namespace ReplayPolicy

def singleUse : ReplayPolicy := ⟨false, 0⟩

/-- How many presentations of a puzzle are accepted. -/
def allowedPresentations (policy : ReplayPolicy) : UInt32 :=
  if policy.allowReplay then max policy.maxReplayCount 1 else 1

def fields : List (Field ReplayPolicy) := [
  .of "allow_replay" .defaulted .boolean fun p allowReplay => { p with allowReplay },
  .of "max_replay_count" .defaulted .word32 fun p maxReplayCount => { p with maxReplayCount }]

def codec : Codec ReplayPolicy :=
  .record fields {}

def toJson (policy : ReplayPolicy) : Json :=
  .object [
    ("allow_replay", .bool policy.allowReplay),
    ("max_replay_count", .integer policy.maxReplayCount.toNat)]

end ReplayPolicy

end Tollgate
