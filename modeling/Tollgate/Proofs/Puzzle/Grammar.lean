import Tollgate.Proofs.Puzzle.Submitted

/-!
# Which bytes are submissions

A submission is a text of at most 4096 bytes: the base64 of its nonces, a point
and a token. Blanks may stand around the text and around the token, and nowhere
else. So what is read fixes what was written, but for these blanks.

Results:
1. `splitProof?_eq_some_iff`: a text is cut at its first point.
2. `ofParts_eq_ok_iff`: the two parts that are read, as which submission.
3. `parse_eq_ok_iff`: the bytes that are read.
4. `parse_grammar`: the grammar, that what is written is read back, and that
   blanks are the only freedom.
-/

namespace Tollgate.Submission

/-! ## Definitions -/

/-- The base64 of some nonces. -/
def proofText (nonces : List UInt64) : String :=
  Text.Base64.encode .urlSafe .forbidden (encodeNonces nonces)

/-- The proof, a point and the token, with blanks around the text and before the
token. -/
def spaced (proof token front gap back : String) : String :=
  front ++ proof ++ String.singleton separator ++ gap ++ token ++ back

/-- Two texts in bytes that differ in blanks around them and before the token
only. -/
def DifferInBlanks (bytes bytes' : List UInt8) : Prop :=
  ∃ proof token front gap back front' gap' back',
    (Text.Blank front ∧ Text.Blank gap ∧ Text.Blank back) ∧
      (Text.Blank front' ∧ Text.Blank gap' ∧ Text.Blank back') ∧
      bytes = Text.octets (spaced proof token front gap back) ∧
      bytes' = Text.octets (spaced proof token front' gap' back')

namespace GrammarLemmas

variable {p : Puzzle} {body : Octets Token.bodyLength} {tag : Octets Token.tagLength}
  {nonces : List UInt64} {s token proof : String} {bytes : List UInt8}

/-! ## Parts -/

theorem separator_notMem_takeWhile (cs : List Char) : separator ∉ cs.takeWhile (· ≠ separator) := by
  intro hin
  have hall := List.all_eq_true.mp (List.all_takeWhile (p := (· ≠ separator))) separator hin
  exact of_decide_eq_true hall rfl

theorem splitProof?_eq_some_iff : splitProof? s = some (proof, token) ↔
    separator ∉ proof.toList ∧ s = proof ++ String.singleton separator ++ token := by
  constructor
  · intro h
    simp only [splitProof?] at h
    split at h
    · cases h
    · next c rest hrest =>
      obtain ⟨rfl, rfl⟩ := Prod.mk.inj (Option.some.inj h)
      have hhead := List.head?_dropWhile_not (· ≠ separator) s.toList
      rw [hrest] at hhead
      have hc : c = separator := by simpa using hhead
      refine ⟨by rw [String.toList_ofList]; exact separator_notMem_takeWhile _, ?_⟩
      refine String.toList_inj.mp ?_
      calc
        s.toList = s.toList.takeWhile (· ≠ separator) ++ s.toList.dropWhile (· ≠ separator) :=
          List.takeWhile_append_dropWhile.symm
        _ = s.toList.takeWhile (· ≠ separator) ++ separator :: rest := by rw [hrest, hc]
        _ = _ := by simp
  · rintro ⟨hpoint, rfl⟩
    exact splitProof?_append hpoint token

theorem encodeNonces_decodeNonces {count : Nat} (h : bytes.length = count * 8) :
    encodeNonces (decodeNonces count bytes) = bytes := by
  induction count generalizing bytes with
  | zero => exact (List.eq_nil_of_length_eq_zero (by omega)).symm
  | succ count ih =>
    have hfirst : (bytes.take 8).length = 8 := by
      rw [List.length_take]
      omega
    have hword : Octets.ofListPadded 8 bytes = ⟨bytes.take 8, hfirst⟩ := by
      have hsplit := Octets.ofListPadded_append ⟨bytes.take 8, hfirst⟩ (bytes.drop 8)
      rwa [List.take_append_drop] at hsplit
    have hrest := @ih (bytes.drop 8) (by rw [List.length_drop]; omega)
    calc
      encodeNonces (decodeNonces (count + 1) bytes)
        = (Octets.ofWord (Octets.ofListPadded 8 bytes).toWord).toList ++
            encodeNonces (decodeNonces count (bytes.drop 8)) := rfl
      _ = bytes.take 8 ++ bytes.drop 8 := by rw [Octets.ofWord_toWord, hword, hrest]
      _ = bytes := List.take_append_drop 8 bytes

theorem length_decodeNonces (count : Nat) (bytes : List UInt8) :
    (decodeNonces count bytes).length = count := by
  induction count generalizing bytes with
  | zero => rfl
  | succ count ih => exact congrArg (· + 1) (ih (bytes.drop 8))

theorem decodeText_proofText (nonces : List UInt64) :
    Text.Base64.decodeText .urlSafe .forbidden (proofText nonces) = .ok (encodeNonces nonces) :=
  (Text.Base64.decodeText_eq_ok_iff Text.Base64.proper_urlSafe).mpr rfl

theorem ofParts_of_decode {decoded : Token.Decoded} (htoken : Token.decode token = .ok decoded)
    (hproof : Text.Base64.decodeText .urlSafe .forbidden proof = .ok bytes) :
    ofParts proof token =
      if bytes.length ≠ decoded.puzzle.solutions.toNat * 8 then
        .error (.proofLength decoded.puzzle.solutions.toNat bytes.length)
      else .ok ⟨decoded.puzzle, decoded.body, decoded.tag,
        decodeNonces decoded.puzzle.solutions.toNat bytes⟩ := by
  simp only [ofParts, htoken, hproof]
  rfl

/-- Both parts are read, and there are as many nonces as the token asks for. -/
theorem ofParts_eq_ok_iff : ofParts proof token = .ok ⟨p, body, tag, nonces⟩ ↔
    Token.decode token = .ok ⟨p, body, tag⟩ ∧ proof = proofText nonces ∧
      nonces.length = p.solutions.toNat := by
  constructor
  · intro h
    cases htoken : Token.decode token with
    | error fault =>
      simp only [ofParts, htoken] at h
      cases h
    | ok decoded =>
      cases hproof : Text.Base64.decodeText .urlSafe .forbidden proof with
      | error fault =>
        simp only [ofParts, htoken, hproof] at h
        cases h
      | ok bytes =>
        rw [ofParts_of_decode htoken hproof, ite_error_eq_ok_iff] at h
        obtain ⟨hlen, hparts⟩ := h
        cases hparts
        have hbytes := encodeNonces_decodeNonces (Decidable.not_not.mp hlen)
        refine ⟨rfl, ?_, length_decodeNonces _ _⟩
        rw [proofText, hbytes]
        exact (Text.Base64.decodeText_eq_ok_iff Text.Base64.proper_urlSafe).mp hproof
  · rintro ⟨htoken, rfl, hlen⟩
    rw [ofParts_of_decode htoken (decodeText_proofText nonces), ite_error_eq_ok_iff,
      length_encodeNonces, ← hlen, decodeNonces_encodeNonces]
    exact ⟨fun hne => hne rfl, rfl⟩

/-! ## Whole submissions -/

theorem parse_eq_ok_iff : parse bytes = .ok ⟨p, body, tag, nonces⟩ ↔
    bytes.length ≤ 4096 ∧ ∃ s token, Text.octets s = bytes ∧
      Text.trim s = proofText nonces ++ String.singleton separator ++ token ∧
      Token.decode token = .ok ⟨p, body, tag⟩ ∧ nonces.length = p.solutions.toNat := by
  have hpoint : separator ∉ (proofText nonces).toList :=
    fun hin => (Text.Base64.mem_toList_encode_urlSafe hin).2 rfl
  unfold parse
  rw [ite_error_eq_ok_iff, Nat.not_lt]
  refine and_congr_right fun _ => ?_
  constructor
  · intro h
    split at h
    · cases h
    next s hs =>
    split at h
    · cases h
    next proof token hsplit =>
    obtain ⟨htoken, rfl, hlen⟩ := ofParts_eq_ok_iff.mp h
    exact ⟨s, token, Text.ofOctets?_eq_some_iff.mp hs, (splitProof?_eq_some_iff.mp hsplit).2,
      htoken, hlen⟩
  · rintro ⟨s, token, rfl, htrim, htoken, hlen⟩
    simp only [Text.ofOctets?_octets, htrim, splitProof?_append hpoint]
    exact ofParts_eq_ok_iff.mpr ⟨htoken, rfl, hlen⟩

/-- A submission fixes the text that it is read from, but for blanks. -/
theorem exists_spaced_of_parse (h : parse bytes = .ok ⟨p, body, tag, nonces⟩) :
    ∃ front gap back, (Text.Blank front ∧ Text.Blank gap ∧ Text.Blank back) ∧
      bytes = Text.octets (spaced (proofText nonces)
        (Text.Base64.encode .urlSafe .forbidden (body.toList ++ tag.toList)) front gap back) := by
  obtain ⟨-, s, token, rfl, htrim, htoken, -⟩ := parse_eq_ok_iff.mp h
  obtain ⟨front, back, hfront, hback, hs⟩ := Text.exists_blank_append_trim s
  obtain ⟨gap, behind, hgap, hbehind, hspace⟩ := Text.exists_blank_append_trim token
  have hcore := (Token.decode_eq_ok_iff.mp htoken).2.2
  refine ⟨front, gap, behind ++ back, ⟨hfront, hgap, ?_⟩, ?_⟩
  · intro c hin
    rw [String.toList_append] at hin
    rcases List.mem_append.mp hin with hin | hin
    · exact hbehind c hin
    · exact hback c hin
  · rw [hs, htrim, hspace, hcore, spaced]
    simp only [String.append_assoc]

end GrammarLemmas

open GrammarLemmas

/-- Bytes are read exactly if they spell a submission; what is written for a
readable token and as many nonces as it asks for is read back; and two byte
strings read as the same submission differ in blanks around the text and before
the token only. -/
theorem parse_grammar :
    (∀ bytes p body tag nonces, parse bytes = .ok ⟨p, body, tag, nonces⟩ ↔
      bytes.length ≤ 4096 ∧ ∃ s token, Text.octets s = bytes ∧
        Text.trim s = proofText nonces ++ String.singleton separator ++ token ∧
        Token.decode token = .ok ⟨p, body, tag⟩ ∧ nonces.length = p.solutions.toNat) ∧
    (∀ token p body tag nonces, Token.decode token = .ok ⟨p, body, tag⟩ →
      nonces.length = p.solutions.toNat →
      parse (Text.octets (encode token nonces)) = .ok ⟨p, body, tag, nonces⟩) ∧
    (∀ bytes bytes' submission, parse bytes = .ok submission → parse bytes' = .ok submission →
      DifferInBlanks bytes bytes') := by
  refine ⟨fun _ _ _ _ _ => parse_eq_ok_iff, fun _ _ _ _ _ => parse_encode, ?_⟩
  rintro bytes bytes' ⟨p, body, tag, nonces⟩ h h'
  obtain ⟨front, gap, back, hblank, hbytes⟩ := exists_spaced_of_parse h
  obtain ⟨front', gap', back', hblank', hbytes'⟩ := exists_spaced_of_parse h'
  exact ⟨_, _, front, gap, back, front', gap', back', hblank, hblank', hbytes, hbytes'⟩

/-- A puzzle that asks for two nonces. -/
def exPuzzle : Puzzle :=
  ⟨7, .replicate 16 0xab, .lowest, 2, 1000, 1300, .replicate 16 0⟩

def exToken : String :=
  Token.encode exPuzzle (.ofSecret (List.replicate 32 7))

/-- The nonces 3 and 4, submitted for the token. -/
theorem parse_exSubmission :
    Token.decode exToken = .ok ⟨exPuzzle, Token.encodeBody exPuzzle,
      (PuzzleKey.ofSecret (List.replicate 32 7)).sign (Token.encodeBody exPuzzle).toList⟩ ∧
    [(3 : UInt64), 4].length = exPuzzle.solutions.toNat ∧
    parse (Text.octets (encode exToken [3, 4])) = .ok ⟨exPuzzle, Token.encodeBody exPuzzle,
      (PuzzleKey.ofSecret (List.replicate 32 7)).sign (Token.encodeBody exPuzzle).toList, [3, 4]⟩ ∧
    DifferInBlanks (Text.octets (encode exToken [3, 4]))
      (Text.octets (encode exToken [3, 4])) := by
  have hsound : exPuzzle.Sound := ⟨by decide, by decide, by decide⟩
  have hdecode := Token.decode_encode (.ofSecret (List.replicate 32 7)) hsound
  obtain ⟨-, hback, hblanks⟩ := parse_grammar
  have hparse := hback exToken exPuzzle _ _ [3, 4] hdecode rfl
  exact ⟨hdecode, rfl, hparse, hblanks _ _ _ hparse hparse⟩

end Tollgate.Submission
