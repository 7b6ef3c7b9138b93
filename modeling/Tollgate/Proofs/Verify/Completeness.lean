import Tollgate.Proofs.Puzzle.Expiry
import Tollgate.Proofs.Puzzle.Issuing
import Tollgate.Proofs.Puzzle.Solved
import Tollgate.Proofs.Puzzle.Submitted
import Tollgate.Proofs.Verify.Calls

/-!
# Honest clients succeed

Whoever solves an issued puzzle and submits its token in time succeeds: what the
issuer writes, what a submission spells, what is read of it and what is checked
agree for all parameters.

Results:
1. `isSolvedBy_of_forall`: nonces that meet the target of their index solve a
   puzzle.
2. `verifyBytes_of_issueTo`: an issued puzzle that is solved and submitted in time
   succeeds.
-/

namespace Tollgate

/-! ## Checks -/

/-- Exactly one nonce for each index, each of which meets the target there. -/
theorem isSolvedBy_of_forall {p : Puzzle} {nonces : List UInt64}
    (hlen : nonces.length = p.solutions.toNat)
    (h : ∀ i (hi : i < nonces.length), p.difficulty.bits.toNat ≤
      leadingZeroBits ((Work.ofPuzzle p).hash i.toUInt8 nonces[i])) :
    p.isSolvedBy nonces = true :=
  Puzzle.isSolvedBy_iff.mpr ⟨hlen, h⟩

/-! ## Success -/

namespace Verifier

variable {σ : Type}

/-- What passes the other checks is decided by the answer to its presentation. -/
theorem fst_verify_of_pending {v : Verifier} {tracker : Tracker σ} {store : σ} {s : Submission}
    {resource : Resource} {now : Timestamp} {presentation : Presentation}
    {answer : Except Failure Bool} (hcount : (tracker presentation store).1 = .ok answer)
    (h : examine v.key s resource now = .pending presentation) :
    (v.verify tracker store s resource now).1 = .ok (verdictOf presentation answer) := by
  unfold verify
  simp only [h]
  split
  · next hpresent =>
    rw [hpresent] at hcount
    obtain rfl := Except.ok.inj hcount
    rfl
  · next hpresent =>
    rw [hpresent] at hcount
    cases hcount

/-- What passes the other checks succeeds if its presentation is accepted. -/
theorem verify_of_pending {v : Verifier} {tracker : Tracker σ} {s : Submission}
    {resource : Resource} {now : Timestamp} {presentation : Presentation} (store : σ)
    (htracker : ∀ presentation store, (tracker presentation store).1 = .ok (.ok true))
    (h : examine v.key s resource now = .pending presentation) :
    (v.verify tracker store s resource now).1 = .ok ⟨.success, "ok"⟩ :=
  fst_verify_of_pending (htracker presentation store) h

/-- Whatever the verifier's tally, and whatever it is told of other submissions:
the token that was written, with nonces that solve the puzzle, is accepted. -/
theorem verifyBytes_of_issueTo {sink sink' : Sink} {params : PuzzleParams} {chance : Chance}
    {extra : List UInt8} {issued now : Timestamp} {p : Puzzle} {nonces : List UInt64}
    {tracker : Tracker σ} {resource : Resource} (v : Verifier) (store : σ)
    (hbits : params.difficulty.bits ≤ 40)
    (hissue : Issue.issueTo sink v.key params chance extra issued = (.ok p, sink'))
    (hlen : nonces.length = params.solutions.toNat)
    (hwork : ∀ i (hi : i < nonces.length), params.difficulty.bits.toNat ≤
      leadingZeroBits ((Work.ofPuzzle p).hash i.toUInt8 nonces[i]))
    (hnow : now.nanos ≤ (p.expiresAt.toNat + 5) * 1000000000)
    (howner : resource.owner = .ok params.owner)
    (htracker : ∀ presentation store, (tracker presentation store).1 = .ok (.ok true)) :
    ∃ token, sink'.written = sink.written ++ Text.octets token ∧
      (Text.octets (Submission.encode token nonces)).length ≤ 4096 ∧
      (∃ s, Submission.parse (Text.octets (Submission.encode token nonces)) = .ok s ∧
        s.puzzle = p ∧ s.nonces = nonces) ∧
      (v.verifyBytes tracker store (Text.octets (Submission.encode token nonces)) resource
        now).1 = .ok ⟨.success, "ok"⟩ := by
  obtain ⟨hbuild, hwritten⟩ := Issue.issueTo_eq_ok hissue
  obtain ⟨hpowner, hdifficulty, hsolutions, -, -⟩ := Issue.build_eq_ok hbuild
  have hdecode : Token.decode (Token.encode p v.key) =
      .ok ⟨p, Token.encodeBody p, v.key.sign (Token.encodeBody p).toList⟩ :=
    Token.decode_eq_ok_iff.mpr ⟨Issue.sound_of_build hbuild hbits, rfl,
      Text.Base64.trim_encode_urlSafe .forbidden _⟩
  rw [← hsolutions] at hlen
  rw [← hdifficulty] at hwork
  -- What is read is the issuer's own body and tag, so the checks are all about `p`.
  have hparse := Submission.parse_encode hdecode hlen
  have hshort := Submission.length_octets_encode_le hdecode hlen
  refine ⟨Token.encode p v.key, hwritten, Nat.le_trans hshort (by decide),
    ⟨_, hparse, rfl, rfl⟩, ?_⟩
  rw [verifyBytes, hparse]
  exact verify_of_pending store htracker (examine_eq_pending_iff.mpr
    ⟨beq_self_eq_true _, Puzzle.isExpired_of_le hnow, howner.trans (congrArg _ hpowner.symm),
      isSolvedBy_of_forall hlen hwork, rfl⟩)

/-- Two solutions and half a second of validity, which becomes a whole one. -/
def exParams : PuzzleParams :=
  ⟨.replicate 16 0xab, .lowest, 2, .ofNanos 500000000⟩

def exChance : Chance :=
  ⟨7, .replicate 16 1⟩

/-- The puzzle issued at the second 1000. -/
def exIssued : Puzzle :=
  ⟨7, .replicate 16 0xab, .lowest, 2, 1000, 1001, Issue.mixSalt (.replicate 16 1) [5]⟩

/-- A verifier that has counted nothing yet. -/
def exVerifier : Verifier :=
  new (.ofSecret (List.replicate 32 7))

/-- Accepts and counts all presentations. -/
def exTracker : Tracker Nat :=
  fun _ count => (.ok (.ok true), count + 1)

/-- Submitted in the very last nanosecond. -/
theorem verifyBytes_exIssued : ∃ token,
    [] ++ Text.octets (Token.encode exIssued exVerifier.key) = [] ++ Text.octets token ∧
      (Text.octets (Submission.encode token [3, 4])).length ≤ 4096 ∧
      (∃ s, Submission.parse (Text.octets (Submission.encode token [3, 4])) = .ok s ∧
        s.puzzle = exIssued ∧ s.nonces = [3, 4]) ∧
      (exVerifier.verifyBytes exTracker 0 (Text.octets (Submission.encode token [3, 4]))
        ⟨.ok exParams.owner, .singleUse, .zero⟩ (.ofSeconds 1006)).1 = .ok ⟨.success, "ok"⟩ := by
  have hbuild : Issue.build exParams exChance [5] (.ofSeconds 1000) = .ok exIssued := rfl
  have hissue : Issue.issueTo ⟨[], none⟩ exVerifier.key exParams exChance [5]
      (.ofSeconds 1000) =
        (.ok exIssued, ⟨[] ++ Text.octets (Token.encode exIssued exVerifier.key), none⟩) := by
    rw [Issue.issueTo, Issue.issue, hbuild]
    rfl
  have hlen : [(3 : UInt64), 4].length = exParams.solutions.toNat := rfl
  have hlast : (Timestamp.ofSeconds 1006).nanos ≤ (exIssued.expiresAt.toNat + 5) * 1000000000 := by
    decide
  have howner : (⟨.ok exParams.owner, .singleUse, .zero⟩ : Resource).owner = .ok exParams.owner :=
    rfl
  have htracker : ∀ presentation count,
      (exTracker presentation count).1 = .ok (.ok true) := fun _ _ => rfl
  have h := verifyBytes_of_issueTo exVerifier 0 (by decide) hissue hlen
    (fun _ _ => Nat.zero_le _) hlast howner htracker
  exact h

end Verifier

end Tollgate
