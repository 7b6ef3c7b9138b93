import Tollgate.Proofs.Verify.Ruling
import Tollgate.Proofs.Verify.Verdicts
import Tollgate.Settings.Consistency
import Tollgate.Sites

/-!
# Verifications that break off

A submission that passes all other checks takes a counter in memory, which is to live as long
as its puzzle. The end of the counter is an instant of the monotonic clock, and that clock has
a last second. The second at which a puzzle expires has 64 bits, whatever the clock can show,
and nothing bounds the validity that a site may be given. So a counter may have to end when
there is no clock any more; then no verdict is reached.

Results:
1. `after?_eq_none_iff`: which whole seconds lead beyond the end of the clock.
2. `verify_eq_error_iff`, `Verifier.verify_present_eq_error_iff`: where a verification breaks
   off.
3. `verifyBytes_of_issued`: when it does for an issued puzzle, and when it does not.
4. `exEndless_breaksOff`: accepted settings, and a first presentation that breaks off.
-/

namespace Tollgate

/-! ## The end of the clock -/

theorem Instant.after?_eq_none_iff {now : Instant} {d : Duration} {seconds : Int}
    (h : (d.nanos : Int) = seconds * 1000000000) :
    now.after? d = none ↔ (lastSecond : Int) < now / 1000000000 + seconds := by
  have hlater : (now + d.nanos) / 1000000000 = now / 1000000000 + seconds := by
    rw [h, Int.add_mul_ediv_right _ _ (by decide)]
  unfold after?
  dsimp only
  rw [hlater]
  split
  · next hle => exact ⟨nofun, fun hlt => absurd hle (Int.not_le.mpr hlt)⟩
  · next hlt => exact ⟨fun _ => Int.not_le.mp hlt, fun _ => rfl⟩

/-- A counter is not asked to live longer than the puzzle, reckoned from 1970, and the skew. -/
theorem Puzzle.counterSeconds_le (p : Puzzle) {second : Int} (h : 0 ≤ second) :
    p.counterSeconds second ≤ p.expiresAt.toNat + 5 := by
  unfold counterSeconds
  omega

namespace Verifier

variable {σ : Type} {v : Verifier} {l : ReplayLedger} {s : Submission} {resource : Resource}
  {now : Moment} {bytes : List UInt8} {crash : Crash}

/-! ## Where a verification breaks off -/

theorem verify_eq_error_iff {tracker : Tracker σ} {store : σ} {wall : Timestamp} :
    (v.verify tracker store s resource wall).1 = .error crash ↔
      ∃ presentation, examine v.key s resource wall = .pending presentation ∧
        (tracker presentation store).1 = .error crash := by
  rcases verify_cases v tracker store s resource wall with
    ⟨verdict, hverdict, -, hnever⟩ | ⟨presentation, crash', hpending, hcrash, hbroken, -⟩
  · rw [hverdict]
    refine ⟨nofun, fun ⟨presentation, hpending, hcrash⟩ => ?_⟩
    exact absurd hcrash (hnever presentation hpending crash)
  · rw [hbroken]
    constructor
    · intro h
      obtain rfl := Except.error.inj h
      exact ⟨presentation, hpending, hcrash⟩
    · rintro ⟨presentation', hpending', hcrash'⟩
      obtain rfl := Examination.pending.inj (hpending.symm.trans hpending')
      exact congrArg _ (Except.error.inj (hcrash.symm.trans hcrash'))

/-- All other checks have passed, the presentation is the first one that counts, and the
counter would end after the last second of the clock. -/
theorem verify_present_eq_error_iff :
    (v.verify (ReplayLedger.present now.clock) l s resource now.wall).1 = .error crash ↔
      crash = .clockOverflow ∧ v.key.verify s.body.toList s.tag.toList = true ∧
        s.puzzle.isExpired now.wall clockSkew = false ∧ resource.owner = .ok s.puzzle.owner ∧
        s.puzzle.Solved s.nonces ∧ l.live? s.puzzle.replayKey now.clock = none ∧
        (Instant.lastSecond : Int) <
          now.clock / 1000000000 + s.puzzle.counterSeconds (max 0 now.wall.seconds) := by
  have hpresents := presents_presentationOf s resource now.wall
  have hbroken : (ReplayLedger.present now.clock (presentationOf s resource now.wall) l).1 =
      .error crash ↔ (l.live? s.puzzle.replayKey now.clock = none ∧
        (Instant.lastSecond : Int) <
          now.clock / 1000000000 + s.puzzle.counterSeconds (max 0 now.wall.seconds)) ∧
        crash = .clockOverflow := by
    rw [ReplayLedger.present_eq_error_iff, ReplayLedger.outlasts, Bool.and_eq_true,
      Option.isNone_iff_eq_none, Option.isNone_iff_eq_none,
      Instant.after?_eq_none_iff hpresents.ttl_eq]
    rfl
  rw [verify_eq_error_iff]
  constructor
  · rintro ⟨presentation, hpending, hcrash⟩
    obtain ⟨hauthentic, hexpired, howner, hsolved, rfl⟩ := examine_eq_pending_iff.mp hpending
    obtain ⟨⟨hlive, hlate⟩, rfl⟩ := hbroken.mp hcrash
    exact ⟨rfl, hauthentic, hexpired, howner, Puzzle.isSolvedBy_iff.mp hsolved, hlive, hlate⟩
  · rintro ⟨rfl, hauthentic, hexpired, howner, hsolved, hlive, hlate⟩
    exact ⟨presentationOf s resource now.wall,
      examine_eq_pending_iff.mpr
        ⟨hauthentic, hexpired, howner, Puzzle.isSolvedBy_iff.mpr hsolved, rfl⟩,
      hbroken.mpr ⟨⟨hlive, hlate⟩, rfl⟩⟩

theorem verifyBytes_of_parse {tracker : Tracker σ} {store : σ} {wall : Timestamp}
    (h : Submission.parse bytes = .ok s) :
    v.verifyBytes tracker store bytes resource wall = v.verify tracker store s resource wall := by
  rw [verifyBytes, h]

end Verifier

/-! ## Issued puzzles -/

namespace Verifier

variable {v : Verifier} {s : Submission} {bytes : List UInt8}

/-- A submission of an issued puzzle is verified to the end, with one exception: it is right
in everything, no counter of the puzzle lives, and a new one would end after the last second
of the clock. A puzzle whose seconds of expiry and skew fit the clock is not concerned. -/
theorem verifyBytes_of_issued {sink sink' : Sink} {params : PuzzleParams} {chance : Chance}
    {extra : List UInt8} {issued : Timestamp} {p : Puzzle}
    (hissue : Issue.issueTo sink v.key params chance extra issued = (.ok p, sink'))
    (hparse : Submission.parse bytes = .ok s) (hp : s.puzzle = p) (l : ReplayLedger)
    (resource : Resource) (now : Moment) :
    (∀ crash, (v.verifyBytes (ReplayLedger.present now.clock) l bytes resource now.wall).1 =
        .error crash ↔
      crash = .clockOverflow ∧ v.key.verify s.body.toList s.tag.toList = true ∧
        p.isExpired now.wall clockSkew = false ∧ resource.owner = .ok params.owner ∧
        p.Solved s.nonces ∧ l.live? p.replayKey now.clock = none ∧
        (Instant.lastSecond : Int) <
          now.clock / 1000000000 + p.counterSeconds (max 0 now.wall.seconds)) ∧
    (now.clock / 1000000000 + (issued.seconds + max 1 params.validity.seconds + 5) ≤
        Instant.lastSecond →
      ∃ verdict, (v.verifyBytes (ReplayLedger.present now.clock) l bytes resource
        now.wall).1 = .ok verdict) := by
  obtain ⟨hbuild, -⟩ := Issue.issueTo_eq_ok hissue
  have howner : p.owner = params.owner := (Issue.build_eq_ok hbuild).1
  have hexpires : (p.expiresAt.toNat : Int) = issued.seconds + max 1 params.validity.seconds := by
    obtain ⟨-, -, hepoch, hfits, rfl⟩ := Issue.build_eq_ok_iff.mp hbuild
    rw [(@Issue.window_issued params chance extra issued hfits).2, Int.natCast_add,
      Int.toNat_of_nonneg hepoch]
  subst hp
  rw [verifyBytes_of_parse hparse, ← howner]
  refine ⟨fun crash => verify_present_eq_error_iff, fun hfits => ?_⟩
  cases hanswer : (v.verify (ReplayLedger.present now.clock) l s resource now.wall).1 with
  | ok verdict => exact ⟨verdict, rfl⟩
  | error crash =>
    obtain ⟨-, -, -, -, -, -, hlate⟩ := verify_present_eq_error_iff.mp hanswer
    have hlife := s.puzzle.counterSeconds_le (Int.le_max_left 0 now.wall.seconds)
    rw [hexpires] at hlife
    have hend := Int.add_le_add_left hlife (now.clock / 1000000000)
    exact absurd (Int.le_trans hend hfits) (Int.not_le.mpr hlate)

/-- What to issue: a puzzle that any nonce solves, valid for so many seconds. -/
def exLongParams (validity : UInt64) : PuzzleParams :=
  ⟨.replicate 16 0xab, .lowest, 1, .ofSeconds validity⟩

/-- The puzzle that is issued at the second 1000. -/
def exLong (validity : UInt64) : Puzzle :=
  ⟨7, .replicate 16 0xab, .lowest, 1, 1000, 1000 + validity, Issue.mixSalt (.replicate 16 1) []⟩

theorem solved_exLong (validity : UInt64) : (exLong validity).Solved [0] :=
  ⟨rfl, fun _ _ => Nat.zero_le _⟩

/-- Its token with a nonce, as it is written. -/
def exLongBytes (validity : UInt64) : List UInt8 :=
  Text.octets (Submission.encode (Token.encode (exLong validity) exVerifier.key) [0])

/-- The first puzzle and its skew end with the second `2 ^ 63 + 1000` of the wall clock.
Presented when it is issued, in the first second of the monotonic clock, it would take a
counter that ends one second after that clock does. Presented a second of the wall clock
later, it takes one that ends with it. The other puzzle ends so early that its presentation
in the first second of the monotonic clock never breaks off. -/
theorem verifyBytes_exLong :
    (exVerifier.verifyBytes (ReplayLedger.present 999999999) (.new 4)
      (exLongBytes 0x7ffffffffffffffb) ⟨.ok (.replicate 16 0xab), .singleUse, .zero⟩
        (.ofSeconds 1000)).1 = .error .clockOverflow ∧
    (exVerifier.verifyBytes (ReplayLedger.present 999999999) (.new 4)
      (exLongBytes 0x7ffffffffffffffb) ⟨.ok (.replicate 16 0xab), .singleUse, .zero⟩
        (.ofSeconds 1001)).1 ≠ .error .clockOverflow ∧
    ∃ verdict, (exVerifier.verifyBytes (ReplayLedger.present 999999999) (.new 4)
      (exLongBytes 0x7ffffffffffffc12) ⟨.ok (.replicate 16 0xab), .singleUse, .zero⟩
        (.ofSeconds 1000)).1 = .ok verdict := by
  have hparse (validity : UInt64) (hsound : (exLong validity).Sound) :
      Submission.parse (exLongBytes validity) =
        .ok (submissionOf exVerifier.key (exLong validity) [0]) :=
    (authentic_encode hsound rfl).1
  have hnarrow := hparse 0x7ffffffffffffffb ⟨by decide, by decide, by decide⟩
  have hlasting := hparse 0x7ffffffffffffc12 ⟨by decide, by decide, by decide⟩
  have hissue : Issue.issueTo ⟨[], none⟩ exVerifier.key (exLongParams 0x7ffffffffffffffb)
      exChance [] (.ofSeconds 1000) = (.ok (exLong 0x7ffffffffffffffb), _) :=
    Issue.issueTo_of_build rfl []
  have hissue' : Issue.issueTo ⟨[], none⟩ exVerifier.key (exLongParams 0x7ffffffffffffc12)
      exChance [] (.ofSeconds 1000) = (.ok (exLong 0x7ffffffffffffc12), _) :=
    Issue.issueTo_of_build rfl []
  refine ⟨?_, ?_, ?_⟩
  · exact ((verifyBytes_of_issued hissue hnarrow rfl (.new 4) _
      ⟨999999999, .ofSeconds 1000⟩).1 _).mpr
        ⟨rfl, beq_self_eq_true _, by decide, rfl, solved_exLong _, rfl, by decide⟩
  · intro hbroken
    obtain ⟨-, -, -, -, -, -, hlate⟩ := ((verifyBytes_of_issued hissue hnarrow rfl (.new 4) _
      ⟨999999999, .ofSeconds 1001⟩).1 _).mp hbroken
    exact absurd hlate (by decide)
  · exact (verifyBytes_of_issued hissue' hlasting rfl (.new 4) _
      ⟨999999999, .ofSeconds 1000⟩).2 (by decide)

/-! ## Accepted settings -/

/-- A site whose puzzles are valid for longer than the clock can show. -/
def exEndless : SiteSettings where
  siteKey := "a"
  owner := .replicate 16 0xab
  low := 0
  medium := 0
  high := 0
  validitySeconds := 0x7fffffffffffffff
  solutions := 1

/-- The settings are accepted, the puzzle is issued, and its first presentation, which is
right in everything, breaks off. -/
theorem exEndless_breaksOff :
    Settings.validate { sites := [exEndless] } = .ok () ∧
    (∀ baseline settings now, (Site.ofSettings exEndless baseline settings now).params none =
      exLongParams 0x7fffffffffffffff) ∧
    (Issue.issueTo ⟨[], none⟩ exVerifier.key (exLongParams 0x7fffffffffffffff) exChance []
      (.ofSeconds 1000)).1 = .ok (exLong 0x7fffffffffffffff) ∧
    Submission.parse (exLongBytes 0x7fffffffffffffff) =
      .ok (submissionOf exVerifier.key (exLong 0x7fffffffffffffff) [0]) ∧
    (exLong 0x7fffffffffffffff).Solved [0] ∧
    (exVerifier.verifyBytes (ReplayLedger.present 0) (.new 4) (exLongBytes 0x7fffffffffffffff)
      ⟨.ok (.replicate 16 0xab), .singleUse, .zero⟩ (.ofSeconds 1000)).1 =
        .error .clockOverflow := by
  have hparse : Submission.parse (exLongBytes 0x7fffffffffffffff) =
      .ok (submissionOf exVerifier.key (exLong 0x7fffffffffffffff) [0]) :=
    (authentic_encode ⟨by decide, by decide, by decide⟩ rfl).1
  have hissue := @Issue.issueTo_of_build (exLongParams 0x7fffffffffffffff) exChance []
    (.ofSeconds 1000) exVerifier.key (exLong 0x7fffffffffffffff) rfl []
  refine ⟨rfl, fun _ _ _ => rfl, congrArg Prod.fst hissue, hparse, solved_exLong _, ?_⟩
  have hbroken := @verify_present_eq_error_iff exVerifier (.new 4)
    (submissionOf exVerifier.key (exLong 0x7fffffffffffffff) [0])
    ⟨.ok (.replicate 16 0xab), .singleUse, .zero⟩ ⟨0, .ofSeconds 1000⟩ .clockOverflow
  rw [verifyBytes_of_parse hparse]
  exact hbroken.mpr ⟨rfl, beq_self_eq_true _, by decide, rfl, solved_exLong _, rfl, by decide⟩

end Verifier

end Tollgate
