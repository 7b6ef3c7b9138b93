import Tollgate.Proofs.Text.Base64
import Tollgate.Proofs.Text.Split
import Tollgate.Puzzle.Key

/-!
# The spelling of keys

The secret of a key may be written in either alphabet and with or without padding. The
reader tries one alphabet after the other, each on its own cut of the text, and yet no text
has two secrets: a text that both alphabets have is a text of the same bytes in both.

Results:
1. `dropPadding_encode`, `secretOfText_eq_ok_iff`: which texts are read, as which secrets.
2. `ofText_eq_ok_iff`: which texts make which keys.
3. `writings_exact`: all of it.
-/

namespace Tollgate.PuzzleKey

open Text (trim Blank)
open Text.Base64

variable {a : Alphabet} {s : String} {secret : List UInt8} {key : PuzzleKey}

/-! ## Padding -/

theorem pad_notMem_symbols (ha : a.Proper) :
    ∀ c ∈ (toSextets secret).map a.symbol, (c == '=') = false := by
  intro c hin
  obtain ⟨value, hvalue, rfl⟩ := List.mem_map.mp hin
  obtain ⟨-, hne, -⟩ := ha value (lt_of_mem_toSextets hvalue)
  rw [beq_eq_false_iff_ne]
  intro hpad
  rw [hpad] at hne
  exact hne rfl

/-- What is left of a text without its padding is the text that has none. -/
theorem dropPadding_encode (ha : a.Proper) (padding : Padding) (secret : List UInt8) :
    dropPadding (encode a padding secret) = encode a .forbidden secret := by
  have hsymbols : ∀ c ∈ ((toSextets secret).map a.symbol).reverse, (c == '=') = false :=
    fun c hin => pad_notMem_symbols ha c (List.mem_reverse.mp hin)
  rw [dropPadding, encode_eq, String.toList_ofList, List.reverse_append, List.reverse_replicate,
    List.dropWhile_append_of_pos fun c hin => beq_iff_eq.mpr (List.eq_of_mem_replicate hin),
    Text.dropWhile_eq_self_of_forall hsymbols, List.reverse_reverse, encode]

/-! ## Secrets -/

theorem secretOfText_of_urlSafe
    (h : dropPadding (trim s) = encode .urlSafe .forbidden secret) :
    secretOfText s = .ok secret := by
  rw [secretOfText, (decodeText_eq_ok_iff proper_urlSafe).mpr h]

theorem secretOfText_of_error {fault : Text.Base64.Fault}
    (h : decodeText .urlSafe .forbidden (dropPadding (trim s)) = .error fault) :
    secretOfText s = decodeText .standard .required (trim s) := by
  rw [secretOfText, h]

/-- A text without its padding is one of the URL-safe alphabet, or the text is one of the standard
alphabet with its padding. The secret is the same if it is both. -/
theorem secretOfText_eq_ok_iff : secretOfText s = .ok secret ↔
    dropPadding (trim s) = encode .urlSafe .forbidden secret ∨
      trim s = encode .standard .required secret := by
  cases hurlSafe : decodeText .urlSafe .forbidden (dropPadding (trim s)) with
  | ok found =>
    rw [decodeText_eq_ok_iff proper_urlSafe] at hurlSafe
    rw [secretOfText_of_urlSafe hurlSafe, hurlSafe]
    constructor
    · intro h
      rw [Except.ok.inj h]
      exact .inl rfl
    · rintro (hsame | hstandard)
      · rw [← decodeText_eq_ok_iff proper_urlSafe,
          (decodeText_eq_ok_iff proper_urlSafe).mpr rfl] at hsame
        exact hsame
      · rw [hstandard, dropPadding_encode proper_standard] at hurlSafe
        rw [eq_of_encode_eq hurlSafe.symm]
  | error fault =>
    rw [secretOfText_of_error hurlSafe, decodeText_eq_ok_iff proper_standard]
    constructor
    · exact .inr
    · rintro (hsame | hstandard)
      · rw [(decodeText_eq_ok_iff proper_urlSafe).mpr hsame] at hurlSafe
        cases hurlSafe
      · exact hstandard

theorem ofBytes_eq_ok_iff :
    ofBytes secret = .ok key ↔ shortestSecret ≤ secret.length ∧ key = ofSecret secret := by
  rw [ofBytes, ite_error_eq_ok_iff, Except.ok.injEq, Nat.not_lt]
  exact and_congr_right' eq_comm

theorem ofText_eq_ok_iff : ofText s = .ok key ↔
    ∃ secret, secretOfText s = .ok secret ∧ ofBytes secret = .ok key := by
  unfold ofText
  cases secretOfText s with
  | ok secret =>
    constructor
    · intro h
      exact ⟨secret, rfl, h⟩
    · rintro ⟨secret', hsame, h⟩
      obtain rfl := Except.ok.inj hsame
      exact h
  | error fault =>
    constructor
    · intro h
      cases h
    · rintro ⟨secret, h, -⟩
      cases h

/-- The ways to write a secret that are read. -/
def writings (secret : List UInt8) : List String :=
  [encode .standard .required secret, encode .urlSafe .required secret,
    encode .urlSafe .forbidden secret]

/-- Blanks around it aside, each of them is read as the secret. -/
theorem secretOfText_of_mem_writings {text front back : String} (htext : text ∈ writings secret)
    (hfront : Blank front) (hback : Blank back) :
    secretOfText (front ++ text ++ back) = .ok secret := by
  rw [secretOfText_eq_ok_iff, Text.trim_append_of_blank hfront hback]
  simp only [writings, List.mem_cons, List.not_mem_nil, or_false] at htext
  rcases htext with rfl | rfl | rfl
  · exact .inr (trim_encode_standard .required secret)
  · rw [trim_encode_urlSafe, dropPadding_encode proper_urlSafe]
    exact .inl rfl
  · rw [trim_encode_urlSafe, dropPadding_encode proper_urlSafe]
    exact .inl rfl

/-- Without blanks and padding, a text that is read is the text of its secret in one of the
alphabets. -/
theorem dropPadding_of_secretOfText (h : secretOfText s = .ok secret) :
    dropPadding (trim s) = encode .urlSafe .forbidden secret ∨
      dropPadding (trim s) = encode .standard .forbidden secret := by
  rcases secretOfText_eq_ok_iff.mp h with hurlSafe | hstandard
  · exact .inl hurlSafe
  · rw [hstandard, dropPadding_encode proper_standard]
    exact .inr rfl

/-! ## Results -/

/-- A secret that is long enough makes one key, in whichever way it is written and whatever
blanks stand around it. Whenever a text makes a key, it is written in one of the alphabets, but
for blanks and padding, and its secret is long enough and makes this key. -/
theorem writings_exact :
    (∀ secret : List UInt8, 32 ≤ secret.length → ∀ text ∈ writings secret,
      ∀ front back, Blank front → Blank back →
        ∃ key, ofText (front ++ text ++ back) = .ok key ∧ ofBytes secret = .ok key ∧
          ∀ body, key.sign body = Digest.hmac secret body) ∧
    ∀ s key, ofText s = .ok key → ∃ secret, secretOfText s = .ok secret ∧
      ofBytes secret = .ok key ∧ 32 ≤ secret.length ∧
      (dropPadding (trim s) = encode .urlSafe .forbidden secret ∨
        dropPadding (trim s) = encode .standard .forbidden secret) := by
  constructor
  · intro secret hlen text htext front back hfront hback
    have hkey : ofBytes secret = .ok (ofSecret secret) := ofBytes_eq_ok_iff.mpr ⟨hlen, rfl⟩
    have hsecret := secretOfText_of_mem_writings htext hfront hback
    exact ⟨ofSecret secret, ofText_eq_ok_iff.mpr ⟨secret, hsecret, hkey⟩, hkey, fun _ => rfl⟩
  · intro s key h
    obtain ⟨secret, hsecret, hkey⟩ := ofText_eq_ok_iff.mp h
    obtain ⟨hlen, -⟩ := ofBytes_eq_ok_iff.mp hkey
    exact ⟨secret, hsecret, hkey, hlen, dropPadding_of_secretOfText hsecret⟩

/-- A secret whose text has the last two symbols of its alphabet. -/
def exSecret : List UInt8 :=
  List.replicate 32 0xfb

/-- It is written in three ways. Each of them makes its key, also between blanks, and the key
comes from a secret that is long enough. -/
theorem writings_exSecret :
    writings exSecret = ["+/v7+/v7+/v7+/v7+/v7+/v7+/v7+/v7+/v7+/v7+/s=",
      "-_v7-_v7-_v7-_v7-_v7-_v7-_v7-_v7-_v7-_v7-_s=",
      "-_v7-_v7-_v7-_v7-_v7-_v7-_v7-_v7-_v7-_v7-_s"] ∧
    ∃ key, ofBytes exSecret = .ok key ∧
      (∀ text ∈ writings exSecret, ofText ("\u2003" ++ text ++ "\n") = .ok key) ∧
      ∃ secret, ofBytes secret = .ok key ∧ 32 ≤ secret.length := by
  obtain ⟨hread, hwritten⟩ := writings_exact
  have hfront : Blank "\u2003" := by decide +kernel
  have hback : Blank "\n" := by decide +kernel
  have hmade : ∀ text ∈ writings exSecret,
      ofText ("\u2003" ++ text ++ "\n") = .ok (ofSecret exSecret) := by
    intro text htext
    obtain ⟨key, hkey, hbytes, -⟩ := hread exSecret (by decide) text htext _ _ hfront hback
    rw [hkey, ← hbytes]
    rfl
  obtain ⟨secret, -, hbytes, hlen, -⟩ := hwritten _ _ (hmade _ List.mem_cons_self)
  exact ⟨by decide +kernel, ofSecret exSecret, rfl, hmade, secret, hbytes, hlen⟩

end Tollgate.PuzzleKey
