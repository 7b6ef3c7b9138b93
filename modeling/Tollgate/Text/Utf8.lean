/-!
Texts as bytes: UTF-8, strictly and with replacement characters.

Main statement: strict reading accepts exactly what writing produces. Reading with replacement
characters accepts everything.
-/

namespace Tollgate.Text

/-- The UTF-8 bytes of a text. -/
def octets (s : String) : List UInt8 :=
  s.toUTF8.data.toList

/-- The text with these UTF-8 bytes, if they are well formed. -/
def ofOctets? (bytes : List UInt8) : Option String :=
  String.fromUTF8? ⟨bytes.toArray⟩

theorem ofOctets?_octets (s : String) : ofOctets? (octets s) = some s := by
  have valid : ByteArray.IsValidUTF8 ⟨(octets s).toArray⟩ := by
    simpa [octets] using s.isValidUTF8
  rw [ofOctets?, String.fromUTF8?, dif_pos valid]
  simp [octets, String.fromUTF8]

theorem octets_of_ofOctets? {bytes : List UInt8} {s : String}
    (read : ofOctets? bytes = some s) : octets s = bytes := by
  simp only [ofOctets?, String.fromUTF8?] at read
  split at read
  · cases read
    rfl
  · cases read

theorem ofOctets?_eq_some_iff {bytes : List UInt8} {s : String} :
    ofOctets? bytes = some s ↔ octets s = bytes :=
  ⟨octets_of_ofOctets?, fun equal => equal ▸ ofOctets?_octets s⟩

/-! ### Characters and replacement characters -/

/-- Reads `count` continuation bytes of a character, the first of them between `low` and `high`; stops
before the first byte that is none. -/
def continuation (value : Nat) (low high : UInt8) :
    Nat → List UInt8 → Option Nat × List UInt8
  | 0, bytes => (some value, bytes)
  | _ + 1, [] => (none, [])
  | count + 1, byte :: rest =>
    if low ≤ byte ∧ byte ≤ high then
      continuation (value * 64 + byte.toNat % 64) 0x80 0xBF count rest
    else (none, byte :: rest)

/-- The code point that starts with the byte `lead`, and what follows what was read of it. The ranges
leave out longer spellings than needed, halves of pairs and numbers beyond the last code point. -/
def codePoint (lead : UInt8) (rest : List UInt8) : Option Nat × List UInt8 :=
  if lead < 0x80 then (some lead.toNat, rest)
  else if lead < 0xC2 then (none, rest)
  else if lead < 0xE0 then continuation (lead.toNat % 32) 0x80 0xBF 1 rest
  else if lead = 0xE0 then continuation 0 0xA0 0xBF 2 rest
  else if lead = 0xED then continuation 13 0x80 0x9F 2 rest
  else if lead < 0xF0 then continuation (lead.toNat % 16) 0x80 0xBF 2 rest
  else if lead = 0xF0 then continuation 0 0x90 0xBF 3 rest
  else if lead < 0xF4 then continuation (lead.toNat % 8) 0x80 0xBF 3 rest
  else if lead = 0xF4 then continuation 4 0x80 0x8F 3 rest
  else (none, rest)

theorem length_continuation_le (value : Nat) (low high : UInt8) (count : Nat)
    (bytes : List UInt8) : (continuation value low high count bytes).2.length ≤ bytes.length := by
  induction count generalizing value low high bytes with
  | zero => simp [continuation]
  | succ count ih =>
    cases bytes with
    | nil => simp [continuation]
    | cons byte rest =>
      simp only [continuation]
      split
      · exact Nat.le_succ_of_le (ih ..)
      · simp

theorem length_codePoint_le (lead : UInt8) (rest : List UInt8) :
    (codePoint lead rest).2.length ≤ rest.length := by
  unfold codePoint
  repeat' split
  all_goals first | exact Nat.le_refl _ | exact length_continuation_le ..

/-- The characters that bytes spell. Each longest start of a character that is not completed, and each
other byte that is none, makes one place without a character. -/
def characters : List UInt8 → List (Option Char)
  | [] => []
  | lead :: rest =>
    (codePoint lead rest).1.map Char.ofNat :: characters (codePoint lead rest).2
termination_by bytes => bytes.length
decreasing_by
  exact Nat.lt_succ_of_le (length_codePoint_le lead rest)

/-- What stands for bytes that are no character. -/
def replacement : Char := Char.ofNat 0xFFFD

/-- Reads bytes as characters, with replacement characters where they spell none. -/
def lossy (bytes : List UInt8) : List Char :=
  (characters bytes).map (·.getD replacement)

end Tollgate.Text
