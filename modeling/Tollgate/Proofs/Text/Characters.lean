import Tollgate.Proofs.Text.Plain

/-!
# Characters and their bytes

A character is spelled by one to four bytes. The first of them tells how many follow,
and each of those carries six bits of its number. The bytes of a text are read as its
characters, whatever stands behind them.

Results:
1. `continuation_ofNat`: one further byte of a character.
2. `codePoint_one`, `codePoint_two`, `codePoint_three`, `codePoint_four`: a number is
   read from its one to four bytes.
3. `characters_octets`: the characters of a text are read from its bytes.
-/

namespace Tollgate.Text

variable {value n count : Nat} {low high : UInt8} {rest : List UInt8}

/-! ## One character -/

theorem toNat_lead (h : n < 256) : (UInt8.ofNat n).toNat = n :=
  UInt8.toNat_ofNat_of_lt' h

theorem continuation_ofNat (hlow : low.toNat ≤ n % 64 + 128) (hhigh : n % 64 + 128 ≤ high.toNat) :
    continuation value low high (count + 1) (UInt8.ofNat (n % 64 + 128) :: rest) =
      continuation (value * 64 + n % 64) 0x80 0xBF count rest := by
  have hbyte : (UInt8.ofNat (n % 64 + 128)).toNat = n % 64 + 128 := toNat_lead (by omega)
  rw [← hbyte] at hlow hhigh
  rw [continuation, if_pos ⟨UInt8.le_iff_toNat_le.mpr hlow, UInt8.le_iff_toNat_le.mpr hhigh⟩, hbyte]
  congr 2
  omega

/-- From the second one on, any byte of this form may follow. -/
theorem continuation_next :
    continuation value 0x80 0xBF (count + 1) (UInt8.ofNat (n % 64 + 128) :: rest) =
      continuation (value * 64 + n % 64) 0x80 0xBF count rest := by
  have hhigh : UInt8.toNat 0xBF = 191 := rfl
  exact continuation_ofNat (Nat.le_add_left _ _) (by omega)

theorem codePoint_one (h : n < 0x80) : codePoint (UInt8.ofNat n) rest = (some n, rest) := by
  simp only [codePoint, UInt8.lt_iff_toNat_lt, toNat_lead (Nat.lt_trans h (by decide : 0x80 < 256)),
    UInt8.reduceToNat]
  rw [if_pos h]

theorem codePoint_two (hlow : 0x80 ≤ n) (hhigh : n < 0x800) :
    codePoint (UInt8.ofNat (n / 64 % 32 + 192)) (UInt8.ofNat (n % 64 + 128) :: rest) =
      (some n, rest) := by
  have hlead := toNat_lead (n := n / 64 % 32 + 192) (by omega)
  simp only [codePoint, UInt8.lt_iff_toNat_lt, ← UInt8.toNat_inj, hlead, UInt8.reduceToNat]
  rw [if_neg (by omega), if_neg (by omega), if_pos (by omega), continuation_next, continuation]
  congr 2
  omega

/-- The first byte `0xE0` leaves out what two bytes can spell, and `0xED` the halves of pairs. -/
theorem codePoint_three (hlow : 0x800 ≤ n) (hhigh : n < 0x10000) (hpair : n < 0xD800 ∨ 0xDFFF < n) :
    codePoint (UInt8.ofNat (n / 4096 % 16 + 224))
        (UInt8.ofNat (n / 64 % 64 + 128) :: UInt8.ofNat (n % 64 + 128) :: rest) =
      (some n, rest) := by
  have hlead := toNat_lead (n := n / 4096 % 16 + 224) (by omega)
  have h80 : UInt8.toNat 0x80 = 0x80 := rfl
  have h9F : UInt8.toNat 0x9F = 0x9F := rfl
  have hA0 : UInt8.toNat 0xA0 = 0xA0 := rfl
  have hBF : UInt8.toNat 0xBF = 0xBF := rfl
  simp only [codePoint, UInt8.lt_iff_toNat_lt, ← UInt8.toNat_inj, hlead, UInt8.reduceToNat]
  rw [if_neg (by omega), if_neg (by omega), if_neg (by omega)]
  split
  · rw [continuation_ofNat (by omega) (by omega), continuation_next, continuation]
    congr 2
    omega
  · split
    · rw [continuation_ofNat (by omega) (by omega), continuation_next, continuation]
      congr 2
      omega
    · rw [if_pos (by omega), continuation_next, continuation_next, continuation]
      congr 2
      omega

/-- The first byte `0xF0` leaves out what three bytes can spell, and `0xF4` what is beyond the last
code point. -/
theorem codePoint_four (hlow : 0x10000 ≤ n) (hhigh : n < 0x110000) :
    codePoint (UInt8.ofNat (n / 262144 % 8 + 240))
        (UInt8.ofNat (n / 4096 % 64 + 128) :: UInt8.ofNat (n / 64 % 64 + 128) ::
          UInt8.ofNat (n % 64 + 128) :: rest) =
      (some n, rest) := by
  have hlead := toNat_lead (n := n / 262144 % 8 + 240) (by omega)
  have h80 : UInt8.toNat 0x80 = 0x80 := rfl
  have h8F : UInt8.toNat 0x8F = 0x8F := rfl
  have h90 : UInt8.toNat 0x90 = 0x90 := rfl
  have hBF : UInt8.toNat 0xBF = 0xBF := rfl
  simp only [codePoint, UInt8.lt_iff_toNat_lt, ← UInt8.toNat_inj, hlead, UInt8.reduceToNat]
  rw [if_neg (by omega), if_neg (by omega), if_neg (by omega), if_neg (by omega),
    if_neg (by omega), if_neg (by omega)]
  split
  · rw [continuation_ofNat (by omega) (by omega), continuation_next, continuation_next, continuation]
    congr 2
    omega
  · split
    · rw [continuation_next, continuation_next, continuation_next, continuation]
      congr 2
      omega
    · rw [if_pos (by omega), continuation_ofNat (by omega) (by omega), continuation_next,
        continuation_next, continuation]
      congr 2
      omega

/-! ## Texts -/

theorem characters_utf8EncodeChar_append (c : Char) (rest : List UInt8) :
    characters (String.utf8EncodeChar c ++ rest) = some c :: characters rest := by
  have hvalid : c.toNat < 0xD800 ∨ 0xDFFF < c.toNat ∧ c.toNat < 0x110000 := c.valid
  have hfirst {lead : UInt8} {tail : List UInt8}
      (h : codePoint lead (tail ++ rest) = (some c.toNat, rest)) :
      characters (lead :: tail ++ rest) = some c :: characters rest := by
    rw [List.cons_append, characters, h, Option.map_some, Char.ofNat_toNat]
  unfold String.utf8EncodeChar
  rw [show c.val.toNat = c.toNat from rfl]
  dsimp only
  split
  · exact hfirst (codePoint_one (by omega))
  · split
    · exact hfirst (codePoint_two (by omega) (by omega))
    · split
      · exact hfirst (codePoint_three (by omega) (by omega) (by omega))
      · exact hfirst (codePoint_four (by omega) (by omega))

theorem characters_octets (s : String) : characters (octets s) = s.toList.map some := by
  have hchars (cs : List Char) : characters (cs.flatMap String.utf8EncodeChar) = cs.map some := by
    induction cs with
    | nil => rw [List.flatMap_nil, characters, List.map_nil]
    | cons c rest ih =>
      rw [List.flatMap_cons, characters_utf8EncodeChar_append, ih, List.map_cons]
  rw [← hchars, ← octets_ofList, String.ofList_toList]

end Tollgate.Text
