import Tollgate.Proofs.Json.Literal
import Tollgate.Proofs.Puzzle.Spelling
import Tollgate.Puzzle.Submission

/-!
# Submissions are read back

A submission written for a readable token is never too long, and is read as the
token's puzzle with the nonces that were written.

Results:
1. `decodeNonces_encodeNonces`: nonces are read back from their bytes.
2. `splitProof?_append`: a submission is cut between its two parts.
3. `length_octets_encode_le`: the longest submission has 2843 bytes.
4. `plain_encode`: no character of it has to be escaped in a JSON text.
5. `parse_encode`: what a written submission is read as.
-/

namespace Tollgate.Submission

variable {p : Puzzle} {body : Octets Token.bodyLength} {tag : Octets Token.tagLength}
  {nonces : List UInt64} {token proof : String}

/-! ## Nonces -/

theorem length_encodeNonces (nonces : List UInt64) :
    (encodeNonces nonces).length = nonces.length * 8 := by
  induction nonces with
  | nil => rfl
  | cons nonce rest ih =>
    rw [encodeNonces, List.flatMap_cons, List.length_append, Octets.length_toList,
      ← encodeNonces, ih, List.length_cons]
    omega

theorem decodeNonces_encodeNonces (nonces : List UInt64) :
    decodeNonces nonces.length (encodeNonces nonces) = nonces := by
  induction nonces with
  | nil => rfl
  | cons nonce rest ih =>
    have hsplit : encodeNonces (nonce :: rest) =
        (Octets.ofWord nonce).toList ++ encodeNonces rest := rfl
    have hdrop : (encodeNonces (nonce :: rest)).drop 8 = encodeNonces rest := by
      rw [hsplit, List.drop_append_of_le_length (Nat.le_of_eq (Octets.length_toList _).symm),
        List.drop_of_length_le (Nat.le_of_eq (Octets.length_toList _)), List.nil_append]
    rw [List.length_cons, decodeNonces, hdrop, ih, hsplit, Octets.ofListPadded_append,
      Octets.toWord_ofWord]

/-! ## Parts -/

theorem splitProof?_append (h : separator ∉ proof.toList) (token : String) :
    splitProof? (proof ++ String.singleton separator ++ token) = some (proof, token) := by
  have hall : ∀ c ∈ proof.toList, decide (c ≠ separator) = true :=
    fun c hin => decide_eq_true fun heq => h (heq ▸ hin)
  have htext : (proof ++ String.singleton separator ++ token).toList =
      proof.toList ++ separator :: token.toList := by
    simp
  rw [splitProof?, htext]
  simp only [List.dropWhile_append_of_pos hall, List.takeWhile_append_of_pos hall]
  simp

/-! ## Whole submissions -/

/-- The token that is written with the nonces is trimmed, and only then known to
be strict base64. -/
theorem encode_eq (h : Token.decode token = .ok ⟨p, body, tag⟩) (nonces : List UInt64) :
    encode token nonces =
      Text.Base64.encode .urlSafe .forbidden (encodeNonces nonces) ++ String.singleton separator ++
        Text.Base64.encode .urlSafe .forbidden (body.toList ++ tag.toList) := by
  rw [encode, (Token.decode_eq_ok_iff.mp h).2.2]

theorem plain_base64 (bytes : List UInt8) :
    Json.Read.Plain (Text.Base64.encode .urlSafe .forbidden bytes).toList := by
  have hsymbol : ∀ value < 64, Text.Base64.Alphabet.urlSafe.symbol value ≠ '"' ∧
      Text.Base64.Alphabet.urlSafe.symbol value ≠ '\\' ∧
      32 ≤ (Text.Base64.Alphabet.urlSafe.symbol value).toNat := by
    decide
  intro c hin
  obtain ⟨value, hlt, rfl⟩ := Text.Base64.exists_symbol_of_mem hin
  exact hsymbol value hlt

theorem plain_encode (h : Token.decode token = .ok ⟨p, body, tag⟩) (nonces : List UInt64) :
    Json.Read.Plain (encode token nonces).toList := by
  intro c hin
  rw [encode_eq h, String.toList_append, String.toList_append, String.toList_singleton,
    List.mem_append, List.mem_append, List.mem_singleton] at hin
  rcases hin with (hproof | rfl) | htoken
  · exact plain_base64 _ c hproof
  · decide
  · exact plain_base64 _ c htoken

theorem length_octets_encode (h : Token.decode token = .ok ⟨p, body, tag⟩)
    (nonces : List UInt64) : (Text.octets (encode token nonces)).length =
      (nonces.length * 32 + 2) / 3 + 123 := by
  have hpoint : (Text.octets (String.singleton separator)).length = 1 := by decide
  rw [encode_eq h, Text.octets_append, Text.octets_append, List.length_append,
    List.length_append, hpoint, Text.Base64.length_octets_encode Text.Base64.proper_urlSafe,
    Text.Base64.length_octets_encode Text.Base64.proper_urlSafe, length_encodeNonces,
    List.length_append, body.length_toList, tag.length_toList]
  simp only [Token.bodyLength, Token.tagLength]
  omega

theorem length_octets_encode_le (h : Token.decode token = .ok ⟨p, body, tag⟩)
    (hlen : nonces.length = p.solutions.toNat) :
    (Text.octets (encode token nonces)).length ≤ 2843 := by
  have hbound := p.solutions.toNat_lt
  rw [length_octets_encode h]
  omega

theorem trim_encode (h : Token.decode token = .ok ⟨p, body, tag⟩) (nonces : List UInt64) :
    Text.trim (encode token nonces) = encode token nonces := by
  refine Text.trim_eq_self fun c hin => ?_
  rw [encode_eq h, String.toList_append, String.toList_append, String.toList_singleton,
    List.mem_append, List.mem_append, List.mem_singleton] at hin
  rcases hin with (hproof | rfl) | htoken
  · exact (Text.Base64.mem_toList_encode_urlSafe hproof).1
  · decide
  · exact (Text.Base64.mem_toList_encode_urlSafe htoken).1

/-- A submission that carries one nonce for each index of a readable token. -/
theorem parse_encode (h : Token.decode token = .ok ⟨p, body, tag⟩)
    (hlen : nonces.length = p.solutions.toNat) :
    parse (Text.octets (encode token nonces)) = .ok ⟨p, body, tag, nonces⟩ := by
  have hshort := length_octets_encode_le h hlen
  have hpoint : separator ∉
      (Text.Base64.encode .urlSafe .forbidden (encodeNonces nonces)).toList :=
    fun hin => (Text.Base64.mem_toList_encode_urlSafe hin).2 rfl
  have htoken : Token.decode (Text.Base64.encode .urlSafe .forbidden (body.toList ++ tag.toList)) =
      .ok ⟨p, body, tag⟩ := by
    obtain ⟨hsound, hbody, -⟩ := Token.decode_eq_ok_iff.mp h
    exact Token.decode_eq_ok_iff.mpr ⟨hsound, hbody, Text.Base64.trim_encode_urlSafe .forbidden _⟩
  have hproof : Text.Base64.decodeText .urlSafe .forbidden
      (Text.Base64.encode .urlSafe .forbidden (encodeNonces nonces)) = .ok (encodeNonces nonces) :=
    (Text.Base64.decodeText_eq_ok_iff Text.Base64.proper_urlSafe).mpr rfl
  have hcount : (encodeNonces nonces).length = p.solutions.toNat * 8 := by
    rw [length_encodeNonces, hlen]
  have hnonces : decodeNonces p.solutions.toNat (encodeNonces nonces) = nonces :=
    hlen ▸ decodeNonces_encodeNonces nonces
  rw [parse, if_neg (by simp only [longest]; omega), Text.ofOctets?_octets]
  simp only [trim_encode h]
  rw [encode_eq h, splitProof?_append hpoint]
  simp only [ofParts, htoken, hproof, hcount, hnonces, bind, Except.bind, pure, Except.pure]
  simp

end Tollgate.Submission
