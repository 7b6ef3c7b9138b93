import Tollgate.Proofs.Puzzle.Body
import Tollgate.Proofs.Text.Base64

/-!
# The spelling of tokens

A token is authentic if its tag is that of its body. Fields and body determine
each other, and so do body, tag and text; and the tag covers all bytes that fields
are read from. So each puzzle has one authentic text, blanks at both ends aside:
the one that the issuer writes.

Results:
1. `decode_eq_ok_iff`: the texts that are read, authentic or not.
2. `decode_encode`: what the issuer writes is read back.
3. `decode_authentic_iff`: the authentic texts are the issuer's own, one for each
   puzzle.
-/

namespace Tollgate.Token

variable {body : Octets bodyLength} {tag : Octets tagLength} {p : Puzzle} {key : PuzzleKey}
  {s : String}

theorem ofBytes_eq_ok_iff {bytes : Octets 91} : ofBytes bytes = .ok ⟨p, body, tag⟩ ↔
    bytes.toList = body.toList ++ tag.toList ∧ ofBody body = .ok p := by
  have hwhole : (bytes.slice 0 59).toList ++ (bytes.slice 59 32).toList = bytes.toList := by
    rw [Octets.slice_append_slice bytes 0 59 32]
    exact Octets.slice_self bytes (by decide)
  simp only [ofBytes, bind_eq_ok_iff, pure_eq_ok_iff]
  constructor
  · rintro ⟨p', hbody, hparts⟩
    cases hparts
    exact ⟨hwhole.symm, hbody⟩
  · rintro ⟨hbytes, hbody⟩
    -- Both halves have the same lengths on both sides, so they are the same.
    have hlen : (bytes.slice 0 59).toList.length = body.toList.length := by
      rw [Octets.length_toList, Octets.length_toList]
      rfl
    obtain ⟨hfirst, hsecond⟩ := List.append_inj (hwhole.trans hbytes) hlen
    obtain rfl : bytes.slice 0 59 = body := Octets.ext hfirst
    obtain rfl : bytes.slice 59 32 = tag := Octets.ext hsecond
    exact ⟨p, hbody, rfl⟩

/-- A text is read if it is the strict base64 of a sound puzzle's body and any
tag. -/
theorem decode_eq_ok_iff : decode s = .ok ⟨p, body, tag⟩ ↔
    p.Sound ∧ body = encodeBody p ∧
      Text.trim s = Text.Base64.encode .urlSafe .forbidden (body.toList ++ tag.toList) := by
  unfold decode
  constructor
  · intro h
    split at h
    · cases h
    next bytes htext =>
    split at h
    · next whole hwhole =>
      obtain ⟨hparts, hbody⟩ := ofBytes_eq_ok_iff.mp h
      obtain ⟨hsound, hsame⟩ := ofBody_eq_ok_iff.mp hbody
      obtain rfl := Octets.ofList?_eq_some_iff.mp hwhole
      rw [hparts] at htext
      exact ⟨hsound, hsame, (Text.Base64.decodeText_eq_ok_iff Text.Base64.proper_urlSafe).mp htext⟩
    · cases h
  · rintro ⟨hsound, hsame, htext⟩
    let whole : Octets (bodyLength + tagLength) := ⟨body.toList ++ tag.toList, by
      rw [List.length_append, body.length_toList, tag.length_toList]⟩
    have hwhole : Octets.ofList? (bodyLength + tagLength) (body.toList ++ tag.toList) =
        some whole := Octets.ofList?_eq_some_iff.mpr rfl
    rw [(Text.Base64.decodeText_eq_ok_iff Text.Base64.proper_urlSafe).mpr htext]
    simp only [hwhole]
    exact ofBytes_eq_ok_iff.mpr ⟨rfl, ofBody_eq_ok_iff.mpr ⟨hsound, hsame⟩⟩

/-- What the issuer writes for a sound puzzle is read back. -/
theorem decode_encode (key : PuzzleKey) (h : p.Sound) :
    decode (encode p key) = .ok ⟨p, encodeBody p, key.sign (encodeBody p).toList⟩ :=
  decode_eq_ok_iff.mpr ⟨h, rfl, Text.Base64.trim_encode_urlSafe .forbidden _⟩

/-- The authentic texts are those that the issuer writes, and each is read as the
puzzle it was written for. -/
theorem decode_authentic_iff (key : PuzzleKey) (s : String) (p : Puzzle) :
    (∃ body tag, decode s = .ok ⟨p, body, tag⟩ ∧ key.verify body.toList tag.toList = true) ↔
      1 ≤ p.solutions ∧ p.difficulty.bits ≤ 40 ∧ p.issuedAt ≤ p.expiresAt ∧
        Text.trim s = encode p key := by
  constructor
  · rintro ⟨body, tag, hdecode, hverify⟩
    obtain ⟨hsound, rfl, htext⟩ := decode_eq_ok_iff.mp hdecode
    rw [PuzzleKey.verify, beq_iff_eq] at hverify
    refine ⟨hsound.solutions, hsound.difficulty, hsound.window, ?_⟩
    rw [htext, encode, hverify]
  · rintro ⟨hsolutions, hbits, hwindow, htext⟩
    refine ⟨encodeBody p, key.sign (encodeBody p).toList, ?_, beq_self_eq_true _⟩
    exact decode_eq_ok_iff.mpr ⟨⟨hsolutions, hbits, hwindow⟩, rfl, htext⟩

end Tollgate.Token
