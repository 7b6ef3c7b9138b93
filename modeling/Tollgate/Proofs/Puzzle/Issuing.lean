import Tollgate.Proofs.Puzzle.Spelling
import Tollgate.Puzzle.Issue

/-!
# Issuing

An issuer checks what it is asked for and when, takes the window of the puzzle in
whole seconds, and writes the token. All of the token is known before a byte of it
is written. So whether a puzzle is issued is decided by the number of solutions, the
validity and the second of issue, and a sink gets a whole token or nothing.

Results:
1. `build_eq_ok_iff`, `build_eq_error_iff`: which puzzle is issued, and what is told
   if none is.
2. `isIssued_of_build`: the puzzle is what was asked for, and neither end of its
   window is cut.
3. `decode_octets`: a token that was written to a sink is read back.
4. `issueTo_exact`: when a puzzle is issued, and what the sink has then and
   otherwise.
-/

namespace Tollgate.Issue

variable {params : PuzzleParams} {chance : Chance} {extra : List UInt8} {now : Timestamp}
  {key : PuzzleKey} {sink sink' : Sink} {p : Puzzle} {fault : Fault}

/-! ## Puzzles -/

/-- The puzzle that is issued if nothing speaks against it. -/
def issued (params : PuzzleParams) (chance : Chance) (extra : List UInt8) (now : Timestamp) :
    Puzzle where
  id := chance.id
  owner := params.owner
  difficulty := params.difficulty
  solutions := params.solutions
  issuedAt := now.seconds.toNat.toUInt64
  expiresAt := (now.seconds.toNat + max 1 params.validity.seconds).toUInt64
  salt := mixSalt chance.salt extra

theorem build_eq_ok_iff : build params chance extra now = .ok p ↔
    params.solutions ≠ 0 ∧ params.validity.nanos ≠ 0 ∧ 0 ≤ now.seconds ∧
      now.seconds.toNat + max 1 params.validity.seconds ≤ 0xffffffffffffffff ∧
      issued params chance extra now = p := by
  simp only [build, throw_bind, ite_error_eq_ok_iff, pure_eq_ok_iff, Int.not_lt, Nat.not_lt,
    ne_eq, gt_iff_lt, issued]

/-- Neither second is cut when it is stored. -/
theorem window_issued
    (h : now.seconds.toNat + max 1 params.validity.seconds ≤ 0xffffffffffffffff) :
    (issued params chance extra now).issuedAt.toNat = now.seconds.toNat ∧
      (issued params chance extra now).expiresAt.toNat =
        now.seconds.toNat + max 1 params.validity.seconds := by
  simp only [issued, Nat.toUInt64, UInt64.toNat_ofNat']
  omega

/-- The puzzle has the parameters asked for, and its window is not empty. -/
theorem build_eq_ok (h : build params chance extra now = .ok p) :
    p.owner = params.owner ∧ p.difficulty = params.difficulty ∧
      p.solutions = params.solutions ∧ 1 ≤ p.solutions ∧ p.issuedAt ≤ p.expiresAt := by
  obtain ⟨hsolutions, -, -, hexpiry, rfl⟩ := build_eq_ok_iff.mp h
  obtain ⟨hissued, hexpires⟩ := @window_issued params chance extra now hexpiry
  refine ⟨rfl, rfl, rfl, Token.one_le_iff_ne_zero.mpr hsolutions, ?_⟩
  rw [UInt64.le_iff_toNat_le, hissued, hexpires]
  exact Nat.le_add_right _ _

theorem sound_of_build (h : build params chance extra now = .ok p)
    (hbits : params.difficulty.bits ≤ Level.highest) : p.Sound := by
  obtain ⟨-, hdifficulty, -, hsolutions, hwindow⟩ := build_eq_ok h
  exact ⟨hsolutions, hdifficulty ▸ hbits, hwindow⟩

/-- What a puzzle is to be: it has the random number and the parameters, its window
begins with the second of issue and lasts for the whole seconds of the validity, one
at least, and its salt is mixed from random bytes and those that tell the caller. -/
structure IsIssued (params : PuzzleParams) (chance : Chance) (extra : List UInt8)
    (now : Timestamp) (p : Puzzle) : Prop where
  id_eq : p.id = chance.id
  owner_eq : p.owner = params.owner
  difficulty_eq : p.difficulty = params.difficulty
  solutions_eq : p.solutions = params.solutions
  issuedAt_eq : (p.issuedAt.toNat : Int) = now.seconds
  expiresAt_eq : (p.expiresAt.toNat : Int) = now.seconds + max 1 params.validity.seconds
  salt_eq : p.salt = mixSalt chance.salt extra

theorem isIssued_of_build (h : build params chance extra now = .ok p) :
    IsIssued params chance extra now p := by
  obtain ⟨-, -, hepoch, hexpiry, rfl⟩ := build_eq_ok_iff.mp h
  obtain ⟨hissued, hexpires⟩ := @window_issued params chance extra now hexpiry
  refine ⟨rfl, rfl, rfl, rfl, ?_, ?_, rfl⟩
  · rw [hissued, Int.toNat_of_nonneg hepoch]
  · rw [hexpires, Int.natCast_add, Int.toNat_of_nonneg hepoch]

/-- From 1970 on, it does not matter that seconds may be negative. -/
theorem overflows_iff (hepoch : 0 ≤ now.seconds) :
    0xffffffffffffffff < now.seconds.toNat + max 1 params.validity.seconds ↔
      (0xffffffffffffffff : Int) < now.seconds + max 1 params.validity.seconds := by
  omega

theorem exists_build_iff : (∃ p, build params chance extra now = .ok p) ↔
    1 ≤ params.solutions ∧ 0 < params.validity.nanos ∧ 0 ≤ now.seconds ∧
      now.seconds + max 1 params.validity.seconds ≤ 0xffffffffffffffff := by
  constructor
  · rintro ⟨p, h⟩
    obtain ⟨hsolutions, hvalidity, hepoch, hexpiry, -⟩ := build_eq_ok_iff.mp h
    exact ⟨Token.one_le_iff_ne_zero.mpr hsolutions, Nat.pos_of_ne_zero hvalidity, hepoch,
      Int.not_lt.mp ((not_congr (overflows_iff hepoch)).mp (Nat.not_lt.mpr hexpiry))⟩
  · rintro ⟨hsolutions, hvalidity, hepoch, hexpiry⟩
    have hfits := (not_congr (overflows_iff hepoch)).mpr (Int.not_lt.mpr hexpiry)
    exact ⟨_, build_eq_ok_iff.mpr ⟨Token.one_le_iff_ne_zero.mp hsolutions,
      Nat.ne_of_gt hvalidity, hepoch, Nat.not_lt.mp hfits, rfl⟩⟩

/-! ## Refusals -/

/-- What speaks against a puzzle, and is told first. -/
inductive Refusal (params : PuzzleParams) (now : Timestamp) : Fault → Prop
  | noSolutions (h : params.solutions = 0) : Refusal params now .noSolutions
  | noValidity (hsolutions : 1 ≤ params.solutions) (h : params.validity.nanos = 0) :
      Refusal params now .noValidity
  | beforeEpoch (hsolutions : 1 ≤ params.solutions) (hvalidity : 0 < params.validity.nanos)
      (h : now.seconds < 0) : Refusal params now (.beforeEpoch now)
  | expiryOverflow (hsolutions : 1 ≤ params.solutions) (hvalidity : 0 < params.validity.nanos)
      (hepoch : 0 ≤ now.seconds)
      (h : 0xffffffffffffffff < now.seconds + max 1 params.validity.seconds) :
      Refusal params now .expiryOverflow

/-- The checks of an issuer, in their order. -/
theorem build_eq (params : PuzzleParams) (chance : Chance) (extra : List UInt8)
    (now : Timestamp) : build params chance extra now =
    if params.solutions = 0 then .error .noSolutions
    else if params.validity.nanos = 0 then .error .noValidity
    else if now.seconds < 0 then .error (.beforeEpoch now)
    else if 0xffffffffffffffff < now.seconds.toNat + max 1 params.validity.seconds then
      .error .expiryOverflow
    else .ok (issued params chance extra now) :=
  rfl

theorem build_eq_error_iff :
    build params chance extra now = .error fault ↔ Refusal params now fault := by
  rw [build_eq]
  constructor
  · intro h
    split at h
    · next hsolutions =>
      cases h
      exact .noSolutions hsolutions
    next hsolutions =>
    have hsolutions := Token.one_le_iff_ne_zero.mpr hsolutions
    split at h
    · next hvalidity =>
      cases h
      exact .noValidity hsolutions hvalidity
    next hvalidity =>
    have hvalidity := Nat.pos_of_ne_zero hvalidity
    split at h
    · next hepoch =>
      cases h
      exact .beforeEpoch hsolutions hvalidity hepoch
    next hepoch =>
    have hepoch := Int.not_lt.mp hepoch
    split at h
    · next hoverflow =>
      cases h
      exact .expiryOverflow hsolutions hvalidity hepoch ((overflows_iff hepoch).mp hoverflow)
    · cases h
  · intro h
    cases h with
    | noSolutions h => exact if_pos h
    | noValidity hsolutions h =>
      rw [if_neg (Token.one_le_iff_ne_zero.mp hsolutions), if_pos h]
    | beforeEpoch hsolutions hvalidity h =>
      rw [if_neg (Token.one_le_iff_ne_zero.mp hsolutions), if_neg (Nat.ne_of_gt hvalidity),
        if_pos h]
    | expiryOverflow hsolutions hvalidity hepoch h =>
      rw [if_neg (Token.one_le_iff_ne_zero.mp hsolutions), if_neg (Nat.ne_of_gt hvalidity),
        if_neg (Int.not_lt.mpr hepoch), if_pos ((overflows_iff hepoch).mpr h)]

/-! ## Sinks -/

theorem write_eq_ok {bytes : List UInt8} (h : sink.write bytes = .ok sink') :
    sink'.written = sink.written ++ bytes := by
  unfold Sink.write at h
  split at h
  · cases h
    rfl
  · split at h
    · cases h
      rfl
    · cases h

theorem issue_eq_ok {token : String} (h : issue key params chance extra now = .ok (p, token)) :
    build params chance extra now = .ok p ∧ Token.encode p key = token := by
  obtain ⟨built, hbuild, hpair⟩ := map_eq_ok_iff.mp h
  obtain ⟨rfl, htoken⟩ := Prod.mk.inj hpair
  exact ⟨hbuild, htoken⟩

/-- All of the token is written. -/
theorem issueTo_eq_ok (h : issueTo sink key params chance extra now = (.ok p, sink')) :
    build params chance extra now = .ok p ∧
      sink'.written = sink.written ++ Text.octets (Token.encode p key) := by
  unfold issueTo at h
  cases hissue : issue key params chance extra now with
  | error fault =>
    rw [hissue] at h
    cases h
  | ok result =>
    obtain ⟨hbuild, htoken⟩ := issue_eq_ok hissue
    rw [hissue] at h
    dsimp only at h
    split at h
    · cases h
    · next hwrite =>
      cases h
      exact ⟨hbuild, htoken ▸ write_eq_ok hwrite⟩

/-- Where there is room for it, the token of every puzzle is written. -/
theorem issueTo_of_build (h : build params chance extra now = .ok p) (written : List UInt8) :
    issueTo ⟨written, none⟩ key params chance extra now =
      (.ok p, ⟨written ++ Text.octets (Token.encode p key), none⟩) := by
  rw [issueTo, issue, h]
  rfl

/-- Nothing is written unless a puzzle is issued. -/
theorem issueTo_of_build_error (h : build params chance extra now = .error fault) (sink : Sink) :
    issueTo sink key params chance extra now = (.error fault, sink) := by
  rw [issueTo, issue, h]
  rfl

/-- What stands behind the bytes that were there before is the token, and is read as
the puzzle it was written for. -/
theorem decode_octets (key : PuzzleKey) (hsound : p.Sound) (written : List UInt8) :
    ∃ text decoded,
      Text.ofOctets? ((written ++ Text.octets (Token.encode p key)).drop written.length) =
        some text ∧
      Token.decode text = .ok decoded ∧ decoded.puzzle = p ∧
      key.verify decoded.body.toList decoded.tag.toList = true := by
  rw [List.drop_left]
  exact ⟨_, _, Text.ofOctets?_octets _, Token.decode_encode key hsound, rfl,
    beq_self_eq_true _⟩

/-! ## Results -/

/-- A sink without end gets the token of a puzzle exactly if a solution is asked for,
the validity is not zero, the second of issue is not before 1970, and that of expiry
fits 64 bits. What is written is read back as this puzzle, unless it is harder than
any that is read. If no puzzle is issued the sink stays as it was, and the first thing
that speaks against the puzzle is told. -/
theorem issueTo_exact (written : List UInt8) (key : PuzzleKey) (params : PuzzleParams)
    (chance : Chance) (extra : List UInt8) (now : Timestamp) :
    ((∃ p sink', issueTo ⟨written, none⟩ key params chance extra now = (.ok p, sink')) ↔
      1 ≤ params.solutions ∧ 0 < params.validity.nanos ∧ 0 ≤ now.seconds ∧
        now.seconds + max 1 params.validity.seconds ≤ 0xffffffffffffffff) ∧
    (∀ p sink', issueTo ⟨written, none⟩ key params chance extra now = (.ok p, sink') →
      IsIssued params chance extra now p ∧
      sink' = ⟨written ++ Text.octets (Token.encode p key), none⟩ ∧
      (params.difficulty.bits ≤ 40 → ∃ text decoded,
        Text.ofOctets? (sink'.written.drop written.length) = some text ∧
        Token.decode text = .ok decoded ∧ decoded.puzzle = p ∧
        key.verify decoded.body.toList decoded.tag.toList = true)) ∧
    (∀ fault sink', issueTo ⟨written, none⟩ key params chance extra now = (.error fault, sink') →
      sink' = ⟨written, none⟩ ∧ Refusal params now fault) := by
  refine ⟨?_, ?_, ?_⟩
  · rw [← @exists_build_iff params chance extra now]
    constructor
    · rintro ⟨p, sink', h⟩
      exact ⟨p, (issueTo_eq_ok h).1⟩
    · rintro ⟨p, h⟩
      exact ⟨p, _, issueTo_of_build h written⟩
  · intro p sink' h
    have hbuild := (issueTo_eq_ok h).1
    obtain rfl := (Prod.mk.inj ((issueTo_of_build hbuild written).symm.trans h)).2
    exact ⟨isIssued_of_build hbuild, rfl,
      fun hbits => decode_octets key (sound_of_build hbuild hbits) written⟩
  · intro fault sink' h
    cases hbuild : build params chance extra now with
    | ok p =>
      rw [issueTo_of_build hbuild] at h
      cases h
    | error fault' =>
      rw [issueTo_of_build_error hbuild] at h
      obtain ⟨hfault, rfl⟩ := Prod.mk.inj h
      obtain rfl := Except.error.inj hfault
      exact ⟨rfl, build_eq_error_iff.mp hbuild⟩

/-- A puzzle that any nonce solves, for so many nanoseconds. -/
def exBrief (nanos : Nat) : PuzzleParams :=
  ⟨.replicate 16 0xab, .lowest, 1, .ofNanos nanos⟩

def exKey : PuzzleKey :=
  .ofSecret (List.replicate 32 7)

def exRandom : Chance :=
  ⟨7, .replicate 16 1⟩

/-- A half of a second becomes a whole one, from the second 1000 that has begun to 1001.
One nanosecond before 1970 is one second before, and a window of `2 ^ 64 - 1` seconds
ends too late if it begins with the second 1000. -/
theorem issueTo_exBrief :
    (∃ p, issueTo ⟨[9], none⟩ exKey (exBrief 500000000) exRandom [] ⟨1000900000000⟩ =
        (.ok p, ⟨[9] ++ Text.octets (Token.encode p exKey), none⟩) ∧
      (p.issuedAt.toNat : Int) = 1000 ∧ (p.expiresAt.toNat : Int) = 1001) ∧
    (issueTo ⟨[9], none⟩ exKey (exBrief 500000000) exRandom [] ⟨-1⟩ =
        (.error (.beforeEpoch ⟨-1⟩), ⟨[9], none⟩) ∧
      Refusal (exBrief 500000000) ⟨-1⟩ (.beforeEpoch ⟨-1⟩)) ∧
    (issueTo ⟨[9], none⟩ exKey (exBrief Duration.limit) exRandom [] ⟨1000900000000⟩ =
        (.error .expiryOverflow, ⟨[9], none⟩) ∧
      Refusal (exBrief Duration.limit) ⟨1000900000000⟩ .expiryOverflow) := by
  obtain ⟨hexists, hissued, -⟩ :=
    issueTo_exact [9] exKey (exBrief 500000000) exRandom [] ⟨1000900000000⟩
  obtain ⟨-, -, hearly⟩ := issueTo_exact [9] exKey (exBrief 500000000) exRandom [] ⟨-1⟩
  obtain ⟨-, -, hlate⟩ :=
    issueTo_exact [9] exKey (exBrief Duration.limit) exRandom [] ⟨1000900000000⟩
  obtain ⟨p, sink', h⟩ := hexists.mpr (by decide)
  obtain ⟨hp, rfl, -⟩ := hissued p sink' h
  exact ⟨⟨p, h, hp.issuedAt_eq, hp.expiresAt_eq⟩, ⟨rfl, (hearly _ _ rfl).2⟩,
    ⟨rfl, (hlate _ _ rfl).2⟩⟩

end Tollgate.Issue
