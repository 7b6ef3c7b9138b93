import Mathlib.Algebra.Group.Int.Defs
import Mathlib.Algebra.Group.Nat.Defs
import Tollgate.Proofs.Verify.Completeness
import Tollgate.Proofs.Verify.Counting

/-!
# The outcome of a verification and what it leaves behind

A submission is checked for authenticity, expiry, owner and proof, in this
order, and then presented to the tracker. The first check that fails decides
the outcome, whatever the later ones would say, and leaves the tracker alone.

Results:
1. `Rejection`, `Passes`, `Ruling`: what the checks lead to, said without the
   code that makes them.
2. `passes_or_rejection`, `not_passes_of_rejection`: bytes are rejected, or pass
   all checks but the last.
3. `verifyBytes_of_rejection`, `verifyBytes_of_passes`: the outcome in either
   case, the tally and the store.
4. `presents_iff_of_presents`: how long the counter is asked to live. Before 1970
   this is shorter than the validity that is left.
5. `verifyBytes_ruling`: all of it for any tracker.
-/

namespace Tollgate

/-! ## Definitions -/

/-- The seconds that a counter made in some second has to live: the validity that
is left and the skew, at least one. -/
def Puzzle.counterSeconds (p : Puzzle) (second : Int) : Int :=
  min (max 1 (max 0 (p.expiresAt.toNat - second) + 5)) (2 ^ 64 - 1)

/-- The tracker, which also writes down what it is called with. -/
def Tracker.recorded {σ : Type} (tracker : Tracker σ) : Tracker (σ × List Presentation) :=
  fun p (store, calls) => ((tracker p store).1, (tracker p store).2, calls ++ [p])

namespace Verifier

/-- The bytes spell a submission with the right tag. -/
def Authentic (key : PuzzleKey) (bytes : List UInt8) (s : Submission) : Prop :=
  Submission.parse bytes = .ok s ∧ key.verify s.body.toList s.tag.toList = true

/-- The bytes spell a submission that passes all checks but the last. -/
structure Passes (key : PuzzleKey) (bytes : List UInt8) (resource : Resource) (now : Timestamp)
    (s : Submission) : Prop where
  authentic : Authentic key bytes s
  inTime : now.nanos ≤ s.puzzle.lastNanos
  owned : resource.owner = .ok s.puzzle.owner
  solved : s.puzzle.Solved s.nonces

/-- What is presented of a submission, its counter reckoned from some second. -/
structure Presents (s : Submission) (resource : Resource) (second : Int) (p : Presentation) :
    Prop where
  key_eq : p.key = ⟨s.puzzle.owner, s.puzzle.id⟩
  limit_eq : p.limit = resource.policy.allowedPresentations
  ttl_eq : (p.ttl.nanos : Int) = s.puzzle.counterSeconds second * 1000000000

/-- The outcome of the first check that fails, all of those before it passing. -/
inductive Rejection (key : PuzzleKey) (bytes : List UInt8) (resource : Resource)
    (now : Timestamp) : Outcome → Prop
  | malformed : (∀ s, ¬Authentic key bytes s) → Rejection key bytes resource now .malformed
  | expired {s : Submission} :
      Authentic key bytes s → s.puzzle.lastNanos < now.nanos →
      Rejection key bytes resource now .expired
  | ownerMismatch {s : Submission} :
      Authentic key bytes s → now.nanos ≤ s.puzzle.lastNanos →
      resource.owner ≠ .ok s.puzzle.owner → Rejection key bytes resource now .ownerMismatch
  | proofInvalid {s : Submission} :
      Authentic key bytes s → now.nanos ≤ s.puzzle.lastNanos →
      resource.owner = .ok s.puzzle.owner → ¬s.puzzle.Solved s.nonces →
      Rejection key bytes resource now .proofInvalid

/-- The outcome that the checks lead to, with a tracker that gives these answers.
Only the plain answer that a presentation is within its limit makes a success. -/
inductive Ruling (key : PuzzleKey) (bytes : List UInt8) (resource : Resource) (now : Timestamp)
    (answer : Presentation → Except Failure Bool) : Outcome → Prop
  | rejected {outcome : Outcome} :
      Rejection key bytes resource now outcome → Ruling key bytes resource now answer outcome
  | replayExceeded {s : Submission} {p : Presentation} :
      Passes key bytes resource now s → Presents s resource (max 0 now.seconds) p →
      answer p ≠ .ok true → Ruling key bytes resource now answer .replayExceeded
  | success {s : Submission} {p : Presentation} :
      Passes key bytes resource now s → Presents s resource (max 0 now.seconds) p →
      answer p = .ok true → Ruling key bytes resource now answer .success

variable {σ : Type} {v : Verifier} {key : PuzzleKey} {bytes : List UInt8} {resource : Resource}
  {now : Timestamp} {s s' : Submission} {p : Presentation} {outcome : Outcome}
  {answer : Presentation → Except Failure Bool}

/-! ## Rejected or not -/

theorem Authentic.unique (h : Authentic key bytes s) (h' : Authentic key bytes s') : s = s' :=
  Except.ok.inj (h.1.symm.trans h'.1)

theorem passes_or_rejection (key : PuzzleKey) (bytes : List UInt8) (resource : Resource)
    (now : Timestamp) : (∃ s, Passes key bytes resource now s) ∨
      ∃ outcome, Rejection key bytes resource now outcome := by
  by_cases hs : ∃ s, Authentic key bytes s
  · obtain ⟨s, hs⟩ := hs
    rcases Int.lt_or_le s.puzzle.lastNanos now.nanos with hlate | hnow
    · exact .inr ⟨_, .expired hs hlate⟩
    by_cases howner : resource.owner = .ok s.puzzle.owner
    · by_cases hsolved : s.puzzle.Solved s.nonces
      · exact .inl ⟨s, hs, hnow, howner, hsolved⟩
      · exact .inr ⟨_, .proofInvalid hs hnow howner hsolved⟩
    · exact .inr ⟨_, .ownerMismatch hs hnow howner⟩
  · exact .inr ⟨_, .malformed (not_exists.mp hs)⟩

theorem not_passes_of_rejection (h : Rejection key bytes resource now outcome) (s : Submission) :
    ¬Passes key bytes resource now s := by
  intro hpass
  cases h with
  | malformed hnone => exact hnone s hpass.authentic
  | expired hs hlate =>
    obtain rfl := hs.unique hpass.authentic
    exact Int.not_le.mpr hlate hpass.inTime
  | ownerMismatch hs _ howner =>
    obtain rfl := hs.unique hpass.authentic
    exact howner hpass.owned
  | proofInvalid hs _ _ hsolved =>
    obtain rfl := hs.unique hpass.authentic
    exact hsolved hpass.solved

/-! ## Verification of what is rejected -/

theorem verifyBytes_of_decided {verdict : Verdict} (tracker : Tracker σ) (store : σ)
    (hparse : Submission.parse bytes = .ok s)
    (hexamine : examine v.key s resource now = .decided verdict) :
    v.verifyBytes tracker store bytes resource now = (.ok verdict, v.finish verdict, store) := by
  rw [verifyBytes, hparse]
  simp only [verify, hexamine]

theorem exists_examine_of_rejection (hdate : now.seconds ≤ Timestamp.lastSecond)
    (hparse : Submission.parse bytes = .ok s) (h : Rejection key bytes resource now outcome) :
    ∃ detail, examine key s resource now = .decided ⟨outcome, detail⟩ := by
  cases h with
  | malformed hnone =>
    have htag : key.verify s.body.toList s.tag.toList = false :=
      Bool.of_not_eq_true fun htag => hnone s ⟨hparse, htag⟩
    exact ⟨_, by simp only [examine, htag]; rfl⟩
  | expired hs hlate =>
    obtain rfl := Except.ok.inj (hparse.symm.trans hs.1)
    have hexpired := (Puzzle.isExpired_iff hdate).mpr hlate
    exact ⟨_, by simp only [examine, hs.2, hexpired]; rfl⟩
  | ownerMismatch hs hnow howner =>
    obtain rfl := Except.ok.inj (hparse.symm.trans hs.1)
    have hvalid := Puzzle.isExpired_of_le hnow
    cases hanswer : resource.owner with
    | error failure => exact ⟨_, by simp only [examine, hs.2, hvalid, hanswer]; rfl⟩
    | ok owner =>
      have hne : owner ≠ s.puzzle.owner := fun heq => howner (by rw [hanswer, heq])
      exact ⟨_, by simp only [examine, hs.2, hvalid, hanswer, if_pos hne]; rfl⟩
  | proofInvalid hs hnow howner hsolved =>
    obtain rfl := Except.ok.inj (hparse.symm.trans hs.1)
    have hvalid := Puzzle.isExpired_of_le hnow
    have hwork : s.puzzle.isSolvedBy s.nonces = false :=
      Bool.of_not_eq_true fun hwork => hsolved (Puzzle.isSolvedBy_iff.mp hwork)
    exact ⟨_, by simp only [examine, hs.2, hvalid, howner, hwork, ne_eq, not_true_eq_false]; rfl⟩

/-- The tracker is not called. -/
theorem verifyBytes_of_rejection (hdate : now.seconds ≤ Timestamp.lastSecond)
    (h : Rejection v.key bytes resource now outcome) (tracker : Tracker σ) (store : σ) :
    ∃ verdict, verdict.outcome = outcome ∧
      v.verifyBytes tracker store bytes resource now = (.ok verdict, v.finish verdict, store) := by
  cases hparse : Submission.parse bytes with
  | error fault =>
    have hmalformed : outcome = .malformed := by
      cases h with
      | malformed => rfl
      | expired hs | ownerMismatch hs | proofInvalid hs =>
        rw [hs.1] at hparse
        cases hparse
    exact ⟨⟨.malformed, fault.message⟩, hmalformed.symm, by rw [verifyBytes, hparse]; rfl⟩
  | ok s =>
    obtain ⟨detail, hexamine⟩ := exists_examine_of_rejection hdate hparse h
    exact ⟨⟨outcome, detail⟩, rfl, verifyBytes_of_decided tracker store hparse hexamine⟩

/-! ## Verification of what passes -/

/-- What the verifier presents of a submission. -/
def presentationOf (s : Submission) (resource : Resource) (now : Timestamp) : Presentation :=
  ⟨s.puzzle.replayKey, resource.policy.allowedPresentations, counterTtl s.puzzle now⟩

theorem presents_presentationOf (s : Submission) (resource : Resource) (now : Timestamp) :
    Presents s resource (max 0 now.seconds) (presentationOf s resource now) := by
  refine ⟨rfl, rfl, ?_⟩
  have hbound := s.puzzle.expiresAt.toNat_lt
  simp only [presentationOf, CountingLemmas.nanos_counterTtl, Puzzle.counterSeconds,
    Puzzle.remainingSeconds]
  omega

theorem Presents.unique {p' : Presentation} {second : Int} (h : Presents s resource second p)
    (h' : Presents s resource second p') : p = p' := by
  obtain ⟨key, limit, ⟨nanos, hnanos⟩⟩ := p
  obtain ⟨key', limit', ⟨nanos', hnanos'⟩⟩ := p'
  have hkey := h.key_eq.trans h'.key_eq.symm
  have hlimit := h.limit_eq.trans h'.limit_eq.symm
  have httl := Int.ofNat.inj (h.ttl_eq.trans h'.ttl_eq.symm)
  simp_all

/-- Before 1970 the counter is reckoned from 1970 on, and not from the present
second. That makes a difference unless its life is beyond all bounds anyway. -/
theorem presents_iff_of_presents (h : Presents s resource (max 0 now.seconds) p) :
    Presents s resource now.seconds p ↔
      0 ≤ now.seconds ∨ 2 ^ 64 - 1 ≤ s.puzzle.expiresAt.toNat + 5 := by
  have hsame : Presents s resource now.seconds p ↔
      s.puzzle.counterSeconds (max 0 now.seconds) = s.puzzle.counterSeconds now.seconds := by
    constructor
    · intro h'
      have httl := h.ttl_eq.symm.trans h'.ttl_eq
      omega
    · intro heq
      exact ⟨h.key_eq, h.limit_eq, heq ▸ h.ttl_eq⟩
  rw [hsame]
  simp only [Puzzle.counterSeconds]
  omega

/-- The tracker is called once, and its answer decides. -/
theorem verifyBytes_of_passes (h : Passes v.key bytes resource now s) (tracker : Tracker σ)
    (store : σ) {given : Except Failure Bool}
    (hgiven : (tracker (presentationOf s resource now) store).1 = .ok given) :
    v.verifyBytes tracker store bytes resource now =
      (.ok (verdictOf (presentationOf s resource now) given),
        v.finish (verdictOf (presentationOf s resource now) given),
        (tracker (presentationOf s resource now) store).2) := by
  have hexamine : examine v.key s resource now = .pending (presentationOf s resource now) :=
    examine_eq_pending_iff.mpr ⟨h.authentic.2, Puzzle.isExpired_of_le h.inTime, h.owned,
      Puzzle.isSolvedBy_iff.mpr h.solved, rfl⟩
  rw [verifyBytes, h.authentic.1]
  simp only [verify, hexamine]
  cases hcall : tracker (presentationOf s resource now) store with
  | mk result store' =>
    rw [hcall] at hgiven
    simp only at hgiven
    rw [hgiven]

theorem ruling_of_passes (h : Passes key bytes resource now s) :
    Ruling key bytes resource now answer
      (verdictOf (presentationOf s resource now)
        (answer (presentationOf s resource now))).outcome := by
  have hpresents := presents_presentationOf s resource now
  cases hanswer : answer (presentationOf s resource now) with
  | error failure => exact .replayExceeded h hpresents (by rw [hanswer]; simp)
  | ok accepted =>
    cases accepted with
    | false => exact .replayExceeded h hpresents (by rw [hanswer]; simp)
    | true => exact .success h hpresents hanswer

theorem outcome_verdictOf_of_ne {result : Except Failure Bool} (h : result ≠ .ok true) :
    (verdictOf p result).outcome = .replayExceeded := by
  cases result with
  | error failure => rfl
  | ok accepted =>
    cases accepted with
    | false => rfl
    | true => exact absurd rfl h

/-! ## The outcome -/

section Outcome

variable {tracker : Tracker σ} {store : σ} {verdict : Verdict}

theorem outcome_of_ruling (hanswer : ∀ p, (tracker p store).1 = .ok (answer p))
    (hdate : now.seconds ≤ Timestamp.lastSecond)
    (hverdict : (v.verifyBytes tracker store bytes resource now).1 = .ok verdict)
    (h : Ruling v.key bytes resource now answer outcome) : verdict.outcome = outcome := by
  cases h with
  | rejected hreject =>
    obtain ⟨verdict', houtcome, hverify⟩ := verifyBytes_of_rejection hdate hreject tracker store
    rw [hverify] at hverdict
    rw [← Except.ok.inj hverdict, houtcome]
  | replayExceeded hpass hpresents hrefused =>
    obtain rfl := (presents_presentationOf _ _ _).unique hpresents
    rw [verifyBytes_of_passes hpass tracker store (hanswer _)] at hverdict
    rw [← Except.ok.inj hverdict, outcome_verdictOf_of_ne hrefused]
  | success hpass hpresents haccepted =>
    obtain rfl := (presents_presentationOf _ _ _).unique hpresents
    rw [verifyBytes_of_passes hpass tracker store (hanswer _), haccepted] at hverdict
    rw [← Except.ok.inj hverdict]
    rfl

theorem outcome_eq_iff_ruling (hanswer : ∀ p, (tracker p store).1 = .ok (answer p))
    (hdate : now.seconds ≤ Timestamp.lastSecond)
    (hverdict : (v.verifyBytes tracker store bytes resource now).1 = .ok verdict) :
    verdict.outcome = outcome ↔ Ruling v.key bytes resource now answer outcome := by
  refine ⟨fun houtcome => ?_, outcome_of_ruling hanswer hdate hverdict⟩
  -- Some ruling there is, and the verdict has its outcome.
  have hsome : ∃ other, Ruling v.key bytes resource now answer other := by
    rcases passes_or_rejection v.key bytes resource now with ⟨s, hpass⟩ | ⟨other, hreject⟩
    · exact ⟨_, ruling_of_passes hpass⟩
    · exact ⟨other, .rejected hreject⟩
  obtain ⟨other, hother⟩ := hsome
  rwa [← houtcome, outcome_of_ruling hanswer hdate hverdict hother]

end Outcome

/-! ## The whole of it -/

theorem Tally.count_record (t : Tally) (outcome other : Outcome) :
    (t.record outcome).count other = t.count other + if other = outcome then 1 else 0 := by
  cases outcome <;> cases other <;> rfl

/-- For every key and tally, all bytes, every answer of the resource and of the
tracker, and every instant that has a date: there is a verdict, and it is the one
that the first failing check leads to. The tracker is called once for what passes
all checks but the last, and not at all for the rest, which leaves its store as
it was. One count grows, by one, that of the outcome.

The counter is to live for the validity that is left and the skew only from 1970
on, or where that is more seconds than can be told. -/
theorem verifyBytes_ruling (v : Verifier) (tracker : Tracker σ) (store : σ)
    (calls : List Presentation) (bytes : List UInt8) (resource : Resource) (now : Timestamp)
    (answer : Presentation → Except Failure Bool)
    (hanswer : ∀ p, (tracker p store).1 = .ok (answer p))
    (hdate : now.seconds ≤ Timestamp.lastSecond) :
    ∃ verdict v' store' calls',
      v.verifyBytes tracker.recorded (store, calls) bytes resource now =
        (.ok verdict, v', store', calls') ∧
      (∀ outcome, verdict.outcome = outcome ↔
        Ruling v.key bytes resource now answer outcome) ∧
      (∀ s, Passes v.key bytes resource now s → ∃ p,
        Presents s resource (max 0 now.seconds) p ∧
        (Presents s resource now.seconds p ↔
          0 ≤ now.seconds ∨ 2 ^ 64 - 1 ≤ s.puzzle.expiresAt.toNat + 5) ∧
        calls' = calls ++ [p] ∧ store' = (tracker p store).2) ∧
      ((∀ s, ¬Passes v.key bytes resource now s) → calls' = calls ∧ store' = store) ∧
      (∀ outcome, v'.tally.count outcome =
        v.tally.count outcome + if outcome = verdict.outcome then 1 else 0) ∧
      v'.key = v.key := by
  have hrecorded : ∀ p, (tracker.recorded p (store, calls)).1 = .ok (answer p) := hanswer
  rcases passes_or_rejection v.key bytes resource now with ⟨s, hpass⟩ | ⟨outcome, hreject⟩
  · have hpresents := presents_presentationOf s resource now
    have hverify := verifyBytes_of_passes hpass tracker.recorded (store, calls) (hrecorded _)
    refine ⟨_, _, _, _, hverify, fun outcome => ?_, fun s' hpass' => ?_, fun hnone => ?_,
      Tally.count_record _ _, rfl⟩
    · exact outcome_eq_iff_ruling hrecorded hdate (congrArg Prod.fst hverify)
    · obtain rfl := hpass.authentic.unique hpass'.authentic
      exact ⟨_, hpresents, presents_iff_of_presents hpresents, rfl, rfl⟩
    · exact absurd hpass (hnone s)
  · obtain ⟨verdict, houtcome, hverify⟩ :=
      verifyBytes_of_rejection hdate hreject tracker.recorded (store, calls)
    refine ⟨_, _, _, _, hverify, fun outcome => ?_, fun s hpass => ?_, fun _ => ⟨rfl, rfl⟩,
      Tally.count_record _ _, rfl⟩
    · exact outcome_eq_iff_ruling hrecorded hdate (congrArg Prod.fst hverify)
    · exact absurd hpass (not_passes_of_rejection hreject s)

/-- What is submitted of a sound puzzle, with its own token. -/
def submissionOf (key : PuzzleKey) (p : Puzzle) (nonces : List UInt64) : Submission :=
  ⟨p, Token.encodeBody p, key.sign (Token.encodeBody p).toList, nonces⟩

theorem authentic_encode {puzzle : Puzzle} {nonces : List UInt64} (hsound : puzzle.Sound)
    (hlen : nonces.length = puzzle.solutions.toNat) :
    Authentic key (Text.octets (Submission.encode (Token.encode puzzle key) nonces))
      (submissionOf key puzzle nonces) :=
  ⟨Submission.parse_encode (Token.decode_encode key hsound) hlen, beq_self_eq_true _⟩

/-- Refuses and counts all presentations. -/
def exRefusing : Tracker Nat :=
  fun _ count => (.ok (.ok false), count + 1)

/-- In the very last nanosecond of the puzzle all depends on the tracker. -/
theorem verifyBytes_exRefused : ∃ verdict v' store' calls',
    exVerifier.verifyBytes exRefusing.recorded (0, [])
        (Text.octets (Submission.encode (Token.encode exIssued exVerifier.key) [3, 4]))
        ⟨.ok exParams.owner, .singleUse, .zero⟩ (.ofSeconds 1006) =
      (.ok verdict, v', store', calls') ∧
    verdict.outcome = .replayExceeded ∧ v'.tally.count .replayExceeded = 1 ∧
    v'.tally.count .success = 0 ∧ calls'.length = 1 ∧ store' = 1 := by
  have hpasses : Passes exVerifier.key
      (Text.octets (Submission.encode (Token.encode exIssued exVerifier.key) [3, 4]))
      ⟨.ok exParams.owner, .singleUse, .zero⟩ (.ofSeconds 1006)
      (submissionOf exVerifier.key exIssued [3, 4]) :=
    ⟨authentic_encode ⟨by decide, by decide, by decide⟩ rfl, by decide, rfl, rfl,
      fun _ _ => Nat.zero_le _⟩
  obtain ⟨verdict, v', store', calls', hverify, houtcome, hcalls, -, htally, -⟩ :=
    verifyBytes_ruling exVerifier exRefusing 0 []
      (Text.octets (Submission.encode (Token.encode exIssued exVerifier.key) [3, 4]))
      ⟨.ok exParams.owner, .singleUse, .zero⟩ (.ofSeconds 1006) (fun _ => .ok false)
      (fun _ => rfl) (by decide)
  obtain ⟨p, hpresents, -, rfl, rfl⟩ := hcalls _ hpasses
  have hexceeded : verdict.outcome = .replayExceeded :=
    (houtcome _).mpr (.replayExceeded hpasses hpresents (by simp))
  refine ⟨verdict, v', _, _, hverify, hexceeded, ?_, ?_, rfl, rfl⟩
  · rw [htally, hexceeded]
    rfl
  · rw [htally, hexceeded]
    rfl

/-- A puzzle that any nonce solves, of the first ten seconds of 1970. -/
def exFirst : Puzzle :=
  ⟨7, .replicate 16 0xab, .lowest, 1, 0, 10, .replicate 16 0⟩

/-- A hundred seconds before 1970 the puzzle is valid for a hundred and ten
seconds and the skew, but its counter is to live for fifteen. -/
theorem exFirst_presents :
    Passes exVerifier.key
      (Text.octets (Submission.encode (Token.encode exFirst exVerifier.key) [0]))
      ⟨.ok exFirst.owner, .singleUse, .zero⟩ (.ofSeconds (-100))
      (submissionOf exVerifier.key exFirst [0]) ∧
    ∃ p, (exVerifier.verifyBytes exTracker.recorded (0, [])
        (Text.octets (Submission.encode (Token.encode exFirst exVerifier.key) [0]))
        ⟨.ok exFirst.owner, .singleUse, .zero⟩ (.ofSeconds (-100))).2.2 = (1, [p]) ∧
      p.ttl = .ofSeconds 15 ∧ exFirst.counterSeconds (-100) = 115 ∧
      ¬Presents (submissionOf exVerifier.key exFirst [0])
        ⟨.ok exFirst.owner, .singleUse, .zero⟩ (-100) p := by
  have hpasses : Passes exVerifier.key
      (Text.octets (Submission.encode (Token.encode exFirst exVerifier.key) [0]))
      ⟨.ok exFirst.owner, .singleUse, .zero⟩ (.ofSeconds (-100))
      (submissionOf exVerifier.key exFirst [0]) :=
    ⟨authentic_encode ⟨by decide, by decide, by decide⟩ rfl, by decide, rfl, rfl,
      fun _ _ => Nat.zero_le _⟩
  have hverify := verifyBytes_of_passes hpasses exTracker.recorded (0, []) rfl
  have httl : counterTtl exFirst (.ofSeconds (-100)) = .ofSeconds 15 := by decide
  have hseconds : exFirst.counterSeconds (-100) = 115 := by decide
  refine ⟨hpasses, _, congrArg (fun result => result.2.2) hverify, httl, hseconds, ?_⟩
  intro hpresents
  have h := hpresents.ttl_eq
  rw [show (submissionOf exVerifier.key exFirst [0]).puzzle = exFirst from rfl, hseconds] at h
  exact absurd h (by decide)

end Verifier

end Tollgate
