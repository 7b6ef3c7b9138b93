import Tollgate.Proofs.Checks
import Tollgate.Proofs.Octets
import Tollgate.Puzzle.Token

/-!
# Bodies of tokens

The body of a token has 59 bytes, and each of them belongs to one field: the
version, or a field of the puzzle. A reader checks the version, and that the fields
make a sound puzzle. So every sound puzzle has one body, which is read as this
puzzle, and no other bytes are read.

Results:
1. `encodeBody_fieldsOf`, `fieldsOf_encodeBody`: fields and bodies determine each
   other.
2. `ofBody_eq_ok_iff`: the bodies that are read, as which puzzles.
3. `ofBody_of_flaw`: what is told of the body of a puzzle that is not sound.
4. `decodeBody_bijective`: the bytes that are read, and that reading and writing
   are inverse to each other.
-/

namespace Tollgate

/-- What holds of every puzzle that a token is read as. -/
structure Puzzle.Sound (p : Puzzle) : Prop where
  solutions : 1 ≤ p.solutions
  difficulty : p.difficulty.bits ≤ Level.highest
  window : p.issuedAt ≤ p.expiresAt

namespace Token

variable {body : Octets bodyLength} {bytes : List UInt8} {p : Puzzle} {fault : Fault}

/-! ## Fields -/

/-- The fields of a body, whether or not they make a sound puzzle. -/
def fieldsOf (body : Octets bodyLength) : Puzzle where
  id := (body.slice 1 8).toWord
  owner := body.slice 9 16
  difficulty := .ofBits (body.get 25)
  solutions := body.get 26
  issuedAt := (body.slice 27 8).toWord
  expiresAt := (body.slice 35 8).toWord
  salt := body.slice 43 16

theorem ofBits_eq_self {bits : UInt8} (h : bits ≤ Level.highest) : Level.ofBits bits = ⟨bits⟩ := by
  show (⟨if bits ≤ Level.highest then bits else Level.highest⟩ : Level) = ⟨bits⟩
  rw [if_pos h]

theorem one_le_iff_ne_zero {count : UInt8} : 1 ≤ count ↔ count ≠ 0 := by
  rw [UInt8.le_iff_toNat_le, Ne, ← UInt8.toNat_inj]
  show 1 ≤ count.toNat ↔ ¬count.toNat = 0
  omega

theorem encodeBody_fieldsOf (hversion : body.get 0 = version)
    (hbits : body.get 25 ≤ Level.highest) : encodeBody (fieldsOf body) = body := by
  refine Octets.ext ?_
  have h0 := Octets.slice_one body 0 (by decide) (by decide)
  have h25 := Octets.slice_one body 25 (by decide) (by decide)
  have h26 := Octets.slice_one body 26 (by decide) (by decide)
  calc
    (encodeBody (fieldsOf body)).toList
      = [version] ++ (Octets.ofWord (body.slice 1 8).toWord).toList ++ (body.slice 9 16).toList ++
          ([(Level.ofBits (body.get 25)).bits] ++ [body.get 26]) ++
          (Octets.ofWord (body.slice 27 8).toWord).toList ++
          (Octets.ofWord (body.slice 35 8).toWord).toList ++ (body.slice 43 16).toList := rfl
    _ = (body.slice 0 1).toList ++ (body.slice 1 8).toList ++ (body.slice 9 16).toList ++
          ((body.slice 25 1).toList ++ (body.slice 26 1).toList) ++ (body.slice 27 8).toList ++
          (body.slice 35 8).toList ++ (body.slice 43 16).toList := by
      rw [h0, h25, h26, hversion, ofBits_eq_self hbits, Octets.ofWord_toWord,
        Octets.ofWord_toWord, Octets.ofWord_toWord]
    -- The slices lie side by side and leave no byte out.
    _ = (body.slice 0 59).toList := by
      rw [Octets.slice_append_slice body 0 1 8, Octets.slice_append_slice body 0 9 16,
        Octets.slice_append_slice body 25 1 1, Octets.slice_append_slice body 0 25 2,
        Octets.slice_append_slice body 0 27 8, Octets.slice_append_slice body 0 35 8,
        Octets.slice_append_slice body 0 43 16]
    _ = body.toList := Octets.slice_self body (by decide)

/-- What a reader of the body finds at the offsets of the fields. -/
theorem parts_encodeBody (p : Puzzle) :
    (encodeBody p).get 0 = version ∧ (encodeBody p).slice 1 8 = .ofWord p.id ∧
      (encodeBody p).slice 9 16 = p.owner ∧ (encodeBody p).get 25 = p.difficulty.bits ∧
      (encodeBody p).get 26 = p.solutions ∧ (encodeBody p).slice 27 8 = .ofWord p.issuedAt ∧
      (encodeBody p).slice 35 8 = .ofWord p.expiresAt ∧ (encodeBody p).slice 43 16 = p.salt := by
  have hlen : ∀ {n : Nat} (o : Octets n), o.toList.length = n := fun o => o.length_toList
  refine ⟨rfl, Octets.ext ?_, Octets.ext ?_, ?_, ?_, Octets.ext ?_, Octets.ext ?_, Octets.ext ?_⟩
  · simp [Octets.slice, encodeBody, hlen]
  · simp [Octets.slice, encodeBody, hlen]
  · simp [Octets.get, encodeBody, hlen]
  · simp [Octets.get, encodeBody, hlen]
  · simp [Octets.slice, encodeBody, List.drop_append, List.drop_eq_nil_of_le, hlen]
  · simp [Octets.slice, encodeBody, List.drop_append, List.drop_eq_nil_of_le, hlen]
  · simp [Octets.slice, encodeBody, List.drop_append, List.drop_eq_nil_of_le,
      List.take_of_length_le, hlen]

theorem fieldsOf_encodeBody (h : p.difficulty.bits ≤ Level.highest) :
    fieldsOf (encodeBody p) = p := by
  obtain ⟨-, hid, howner, hbits, hsolutions, hissued, hexpires, hsalt⟩ := parts_encodeBody p
  unfold fieldsOf
  rw [hid, howner, hbits, hsolutions, hissued, hexpires, hsalt, ofBits_eq_self h]
  simp only [Octets.toWord_ofWord]

theorem eq_of_encodeBody_eq {p' : Puzzle} (h : encodeBody p = encodeBody p')
    (hbits : p.difficulty.bits ≤ Level.highest) : p = p' := by
  obtain ⟨-, -, -, hlevel, -⟩ := parts_encodeBody p
  obtain ⟨-, -, -, hlevel', -⟩ := parts_encodeBody p'
  have hsame : p.difficulty.bits = p'.difficulty.bits := by rw [← hlevel, h, hlevel']
  rw [← fieldsOf_encodeBody hbits, h, fieldsOf_encodeBody (hsame ▸ hbits)]

/-- A body is read if its version is known and its fields make a sound puzzle. -/
theorem ofBody_eq_ok_iff_fieldsOf : ofBody body = .ok p ↔
    body.get 0 = version ∧ body.get 25 ≤ Level.highest ∧ (fieldsOf body).Sound ∧
      fieldsOf body = p := by
  simp only [ofBody, throw_bind, ite_error_eq_ok_iff, pure_eq_ok_iff]
  constructor
  · rintro ⟨hversion, hbits, hsolutions, hwindow, hp⟩
    have hbits : body.get 25 ≤ Level.highest := UInt8.not_lt.mp hbits
    refine ⟨Decidable.not_not.mp hversion, hbits, ⟨?_, ?_, UInt64.not_lt.mp hwindow⟩, hp⟩
    · exact one_le_iff_ne_zero.mpr hsolutions
    · show (Level.ofBits (body.get 25)).bits ≤ Level.highest
      rwa [ofBits_eq_self hbits]
  · rintro ⟨hversion, hbits, hsound, hp⟩
    exact ⟨Decidable.not_not.mpr hversion, UInt8.not_lt.mpr hbits,
      one_le_iff_ne_zero.mp hsound.solutions, UInt64.not_lt.mpr hsound.window, hp⟩

theorem ofBody_eq_ok_iff :
    ofBody body = .ok p ↔ p.Sound ∧ body = encodeBody p := by
  rw [ofBody_eq_ok_iff_fieldsOf]
  constructor
  · rintro ⟨hversion, hbits, hsound, rfl⟩
    exact ⟨hsound, (encodeBody_fieldsOf hversion hbits).symm⟩
  · rintro ⟨hsound, rfl⟩
    obtain ⟨hversion, -, -, hbits, -⟩ := parts_encodeBody p
    have hfields := fieldsOf_encodeBody hsound.difficulty
    exact ⟨hversion, hbits ▸ hsound.difficulty, hfields.symm ▸ hsound, hfields⟩

/-! ## Bytes -/

/-- What is asked of the bytes of a body: their number, and what stands at five of
their places. Numbers are big-endian. -/
structure IsBody (bytes : List UInt8) : Prop where
  length_eq : bytes.length = 59
  version_eq : bytes[0]? = some version
  difficulty : ∀ bits, bytes[25]? = some bits → bits ≤ 40
  solutions : bytes[26]? ≠ some 0
  window : ofBigEndian ((bytes.drop 27).take 8) ≤ ofBigEndian ((bytes.drop 35).take 8)

/-- What is wrong with a puzzle that is not sound, and is told first. -/
inductive Flaw (p : Puzzle) : Fault → Prop
  | difficulty (h : 40 < p.difficulty.bits) : Flaw p (.difficultyOutOfRange p.difficulty.bits)
  | solutions (hdifficulty : p.difficulty.bits ≤ 40) (h : p.solutions = 0) : Flaw p .noSolutions
  | window (hdifficulty : p.difficulty.bits ≤ 40) (hsolutions : 1 ≤ p.solutions)
      (h : p.expiresAt < p.issuedAt) : Flaw p .expiresBeforeIssue

theorem isBody_toList_iff : IsBody body.toList ↔
    body.get 0 = version ∧ body.get 25 ≤ Level.highest ∧ (fieldsOf body).Sound := by
  have h0 := body.getElem?_toList 0 (by decide)
  have h25 := body.getElem?_toList 25 (by decide)
  have h26 := body.getElem?_toList 26 (by decide)
  have hwindow : (fieldsOf body).issuedAt ≤ (fieldsOf body).expiresAt ↔
      ofBigEndian (body.slice 27 8).toList ≤ ofBigEndian (body.slice 35 8).toList := by
    rw [← Octets.toNat_toWord, ← Octets.toNat_toWord]
    exact UInt64.le_iff_toNat_le
  constructor
  · rintro ⟨-, hversion, hdifficulty, hsolutions, hle⟩
    have hbits : body.get 25 ≤ Level.highest := hdifficulty _ h25
    refine ⟨Option.some.inj (h0.symm.trans hversion), hbits, ?_, ?_, hwindow.mpr hle⟩
    · exact one_le_iff_ne_zero.mpr fun hzero => hsolutions (h26.trans (congrArg some hzero))
    · show (Level.ofBits (body.get 25)).bits ≤ Level.highest
      rwa [ofBits_eq_self hbits]
  · rintro ⟨hversion, hbits, hsound⟩
    refine ⟨body.length_toList, h0.trans (congrArg some hversion), ?_, ?_,
      hwindow.mp hsound.window⟩
    · intro bits hin
      exact Option.some.inj (h25.symm.trans hin) ▸ hbits
    · intro hzero
      exact one_le_iff_ne_zero.mp hsound.solutions (Option.some.inj (h26.symm.trans hzero))

theorem decodeBody_toList (body : Octets bodyLength) : decodeBody body.toList = ofBody body := by
  rw [decodeBody, Octets.ofList?_eq_some_iff.mpr rfl]

theorem exists_toList_of_decodeBody (h : decodeBody bytes = .ok p) :
    ∃ body : Octets bodyLength, bytes = body.toList := by
  unfold decodeBody at h
  split at h
  · next body hbody => exact ⟨body, Octets.ofList?_eq_some_iff.mp hbody⟩
  · cases h

theorem decodeBody_eq_ok_iff :
    decodeBody bytes = .ok p ↔ p.Sound ∧ (encodeBody p).toList = bytes := by
  constructor
  · intro h
    obtain ⟨body, rfl⟩ := exists_toList_of_decodeBody h
    rw [decodeBody_toList] at h
    obtain ⟨hsound, rfl⟩ := ofBody_eq_ok_iff.mp h
    exact ⟨hsound, rfl⟩
  · rintro ⟨hsound, rfl⟩
    rw [decodeBody_toList]
    exact ofBody_eq_ok_iff.mpr ⟨hsound, rfl⟩

theorem exists_decodeBody_iff : (∃ p, decodeBody bytes = .ok p) ↔ IsBody bytes := by
  constructor
  · rintro ⟨p, h⟩
    obtain ⟨body, rfl⟩ := exists_toList_of_decodeBody h
    rw [decodeBody_toList] at h
    obtain ⟨hversion, hbits, hsound, -⟩ := ofBody_eq_ok_iff_fieldsOf.mp h
    exact isBody_toList_iff.mpr ⟨hversion, hbits, hsound⟩
  · intro h
    obtain ⟨body, rfl⟩ : ∃ body : Octets bodyLength, bytes = body.toList :=
      ⟨⟨bytes, h.length_eq⟩, rfl⟩
    obtain ⟨hversion, hbits, hsound⟩ := isBody_toList_iff.mp h
    rw [decodeBody_toList]
    exact ⟨fieldsOf body, ofBody_eq_ok_iff_fieldsOf.mpr ⟨hversion, hbits, hsound, rfl⟩⟩

/-- The checks of a reader, in the order of the fields. -/
theorem ofBody_eq (body : Octets bodyLength) : ofBody body =
    if body.get 0 ≠ version then .error (.unsupportedVersion (body.get 0))
    else if Level.highest < body.get 25 then .error (.difficultyOutOfRange (body.get 25))
    else if body.get 26 = 0 then .error .noSolutions
    else if (fieldsOf body).expiresAt < (fieldsOf body).issuedAt then .error .expiresBeforeIssue
    else .ok (fieldsOf body) :=
  rfl

theorem ofBody_of_flaw (h : Flaw p fault) : ofBody (encodeBody p) = .error fault := by
  obtain ⟨hversion, -, -, hbits, hsolutions, hissued, hexpires, -⟩ := parts_encodeBody p
  have hknown : ¬(encodeBody p).get 0 ≠ version := Decidable.not_not.mpr hversion
  rw [ofBody_eq, if_neg hknown, hbits, hsolutions]
  cases h with
  | difficulty h => exact if_pos h
  | solutions hdifficulty h =>
    have hlevel : ¬Level.highest < p.difficulty.bits := UInt8.not_lt.mpr hdifficulty
    rw [if_neg hlevel, if_pos h]
  | window hdifficulty hsome h =>
    have hlevel : ¬Level.highest < p.difficulty.bits := UInt8.not_lt.mpr hdifficulty
    have hwindow : (fieldsOf (encodeBody p)).expiresAt < (fieldsOf (encodeBody p)).issuedAt := by
      rwa [fieldsOf, hissued, hexpires, Octets.toWord_ofWord, Octets.toWord_ofWord]
    rw [if_neg hlevel, if_neg (one_le_iff_ne_zero.mp hsome), if_pos hwindow]

theorem exists_flaw (h : 40 < p.difficulty.bits ∨ p.solutions = 0 ∨ p.expiresAt < p.issuedAt) :
    ∃ fault, Flaw p fault := by
  by_cases hdifficulty : 40 < p.difficulty.bits
  · exact ⟨_, .difficulty hdifficulty⟩
  · have hlevel := UInt8.not_lt.mp hdifficulty
    by_cases hsolutions : p.solutions = 0
    · exact ⟨_, .solutions hlevel hsolutions⟩
    · have hwindow := (h.resolve_left hdifficulty).resolve_left hsolutions
      exact ⟨_, .window hlevel (one_le_iff_ne_zero.mpr hsolutions) hwindow⟩

/-! ## Results -/

/-- Exactly the bytes of bodies are read, and the puzzle that is read has these bytes
as its body. The body of a sound puzzle is read as this puzzle, and that of any
other is refused for the first thing that is wrong with it. -/
theorem decodeBody_bijective :
    (∀ bytes, (∃ p, decodeBody bytes = .ok p) ↔ IsBody bytes) ∧
    (∀ bytes p, decodeBody bytes = .ok p → (encodeBody p).toList = bytes) ∧
    (∀ p : Puzzle, p.difficulty.bits ≤ 40 → 1 ≤ p.solutions → p.issuedAt ≤ p.expiresAt →
      decodeBody (encodeBody p).toList = .ok p) ∧
    (∀ p : Puzzle, 40 < p.difficulty.bits ∨ p.solutions = 0 ∨ p.expiresAt < p.issuedAt →
      ∃ fault, Flaw p fault ∧ decodeBody (encodeBody p).toList = .error fault) := by
  refine ⟨fun _ => exists_decodeBody_iff, fun bytes p h => (decodeBody_eq_ok_iff.mp h).2, ?_, ?_⟩
  · intro p hdifficulty hsolutions hwindow
    exact decodeBody_eq_ok_iff.mpr ⟨⟨hsolutions, hdifficulty, hwindow⟩, rfl⟩
  · intro p h
    obtain ⟨fault, hflaw⟩ := exists_flaw h
    exact ⟨fault, hflaw, (decodeBody_toList _).trans (ofBody_of_flaw hflaw)⟩

/-- A puzzle with the highest level and the greatest numbers, which expires when it
is issued. -/
def exUtmost : Puzzle :=
  ⟨0xffffffffffffffff, .replicate 16 0xab, ⟨40⟩, 255, 0xffffffffffffffff, 0xffffffffffffffff,
    .replicate 16 1⟩

/-- It is read back. If it were issued later than it expires it would be refused, and
if it were one level harder as well this would be told first. -/
theorem decodeBody_exUtmost :
    decodeBody (encodeBody exUtmost).toList = .ok exUtmost ∧ IsBody (encodeBody exUtmost).toList ∧
    decodeBody (encodeBody { exUtmost with expiresAt := 1 }).toList = .error .expiresBeforeIssue ∧
    decodeBody (encodeBody { exUtmost with difficulty := ⟨41⟩, expiresAt := 1 }).toList =
      .error (.difficultyOutOfRange 41) := by
  obtain ⟨hreads, -, hback, hrefused⟩ := decodeBody_bijective
  have hread := hback exUtmost (by decide) (by decide) (by decide)
  obtain ⟨late, hlate, hlateRefused⟩ :=
    hrefused { exUtmost with expiresAt := 1 } (.inr (.inr (by decide)))
  obtain ⟨hard, hhard, hhardRefused⟩ :=
    hrefused { exUtmost with difficulty := ⟨41⟩, expiresAt := 1 } (.inl (by decide))
  refine ⟨hread, (hreads _).mp ⟨_, hread⟩, ?_, ?_⟩
  · cases hlate with
    | difficulty h => exact absurd h (by decide)
    | solutions _ h => exact absurd h (by decide)
    | window => exact hlateRefused
  · cases hhard with
    | difficulty => exact hhardRefused
    | solutions h => exact absurd h (by decide)
    | window h => exact absurd h (by decide)

end Token

end Tollgate
