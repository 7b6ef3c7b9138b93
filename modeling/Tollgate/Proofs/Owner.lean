import Tollgate.Owner
import Tollgate.Proofs.Json.Literal
import Tollgate.Proofs.Octets
import Tollgate.Proofs.Text.Hex

/-!
# The spelling of owners

An owner is written as thirty-two digits in lower case. It is read from every text that
has thirty-two digits of either case between blanks, and texts that differ in more than
blanks and case are read as different owners. What is written, as a text or in JSON, is
read as the owner that it was written for.

Results:
1. `parse_eq_ok_iff`, `exists_parse_iff`: which texts are read, as which owners.
2. `parse_display`, `readJson_toJson`: what is written is read back.
3. `spellings`: all of it.
-/

namespace Tollgate.Owner

variable {owner owner' : Owner} {s s' : String}

/-! ## Texts -/

theorem parse_eq_ok_iff_decode : parse s = .ok owner ↔
    Text.Hex.decode 16 (Text.octets (Text.trim s)) = .ok owner.toList := by
  unfold parse
  rw [bind_eq_ok_iff]
  constructor
  · rintro ⟨bytes, hbytes, howner⟩
    split at howner
    · next own hown =>
      obtain rfl := Except.ok.inj howner
      rw [← Octets.ofList?_eq_some_iff.mp hown]
      exact hbytes
    · cases howner
  · intro hbytes
    refine ⟨owner.toList, hbytes, ?_⟩
    rw [Octets.ofList?_eq_some_iff.mpr rfl]
    rfl

/-- A text is read as an owner exactly if, blanks aside, it is made of digits and is in lower
case what the owner is written as. -/
theorem parse_eq_ok_iff : parse s = .ok owner ↔
    Text.Hex.IsDigits (Text.trim s) ∧ (Text.trim s).toLower = owner.display := by
  rw [parse_eq_ok_iff_decode, Text.Hex.decode_octets_eq_ok_iff]
  exact and_iff_right owner.length_toList

theorem exists_parse_iff : (∃ owner, parse s = .ok owner) ↔
    (Text.trim s).length = 32 ∧ Text.Hex.IsDigits (Text.trim s) := by
  rw [← Text.Hex.exists_decode_octets_iff 16]
  constructor
  · rintro ⟨owner, h⟩
    exact ⟨owner.toList, parse_eq_ok_iff_decode.mp h⟩
  · rintro ⟨out, h⟩
    obtain ⟨hlen, -⟩ := (Text.Hex.decode_octets_eq_ok_iff 16).mp h
    exact ⟨⟨out, hlen⟩, parse_eq_ok_iff_decode.mpr h⟩

theorem trim_display (owner : Owner) : Text.trim owner.display = owner.display := by
  have hdigit : ∀ c ∈ Text.Hex.digits, Text.isBlank c = false :=
    Text.Hex.forall_mem_digits (by decide)
  exact Text.trim_eq_self fun c hin => hdigit c (Text.Hex.isDigits_encode owner.toList c hin)

theorem parse_display (owner : Owner) : parse owner.display = .ok owner := by
  refine parse_eq_ok_iff.mpr ?_
  rw [trim_display]
  exact ⟨Text.Hex.isDigits_encode owner.toList, Text.Hex.toLower_encode owner.toList⟩

/-- Owners are told apart by what they are written as. -/
theorem display_inj (h : owner.display = owner'.display) : owner = owner' := by
  have hread := parse_display owner
  rw [h, parse_display] at hread
  exact (Except.ok.inj hread).symm

/-! ## JSON -/

theorem plain_display (owner : Owner) : Json.Read.Plain owner.display.toList := by
  have hdigit : ∀ c ∈ Text.Hex.digits, c ≠ '"' ∧ c ≠ '\\' ∧ 32 ≤ c.toNat :=
    Text.Hex.forall_mem_digits (by decide)
  exact fun c hin => hdigit c (Text.Hex.isDigits_encode owner.toList c hin)

theorem readJson_toJson (owner : Owner) : codec.readJson (toJson owner).compact = .ok owner := by
  refine Json.Read.readJson_textOf (plain_display owner) ?_
  exact toOption_eq_some_iff.mpr (parse_display owner)

/-! ## Results -/

/-- Exactly the texts of thirty-two digits between blanks are read, and an owner is written
as any text that it is read from, in lower case and without the blanks. Texts are read as
one owner exactly if they differ in blanks and case alone. Every owner is read back from
the text and from the JSON that it is written as. -/
theorem spellings :
    (∀ s, (∃ owner, parse s = .ok owner) ↔
      (Text.trim s).length = 32 ∧ Text.Hex.IsDigits (Text.trim s)) ∧
    (∀ s owner, parse s = .ok owner → owner.display = (Text.trim s).toLower) ∧
    (∀ s s' owner owner', parse s = .ok owner → parse s' = .ok owner' →
      (owner = owner' ↔ (Text.trim s).toLower = (Text.trim s').toLower)) ∧
    (∀ owner, parse (display owner) = .ok owner) ∧
    ∀ owner, (toJson owner).compact = "\"" ++ display owner ++ "\"" ∧
      codec.readJson (toJson owner).compact = .ok owner := by
  refine ⟨fun s => exists_parse_iff, ?_, ?_, parse_display, fun owner => ?_⟩
  · intro s owner h
    exact (parse_eq_ok_iff.mp h).2.symm
  · intro s s' owner owner' h h'
    rw [(parse_eq_ok_iff.mp h).2, (parse_eq_ok_iff.mp h').2]
    exact ⟨congrArg display, display_inj⟩
  · exact ⟨Json.Read.compact_text (plain_display owner), readJson_toJson owner⟩

/-- Thirty-two digits, some of them in upper case, between blanks. -/
def exLoud : String :=
  "\u2003AbAbAbAbAbAbAbAbAbAbAbAbAbAbAbAb\n"

/-- They name the same owner as the same digits in lower case. -/
theorem spellings_exLoud :
    parse exLoud = .ok (.replicate 16 0xab) ∧
    parse "abababababababababababababababab" = .ok (.replicate 16 0xab) ∧
    (Text.trim exLoud).toLower = (Text.trim "abababababababababababababababab").toLower ∧
    display (.replicate 16 0xab) = (Text.trim exLoud).toLower := by
  have hloud : parse exLoud = .ok (.replicate 16 0xab) :=
    toOption_eq_some_iff.mp (by decide +kernel)
  have hquiet : parse "abababababababababababababababab" = .ok (.replicate 16 0xab) :=
    toOption_eq_some_iff.mp (by decide +kernel)
  obtain ⟨-, hdisplay, hsame, -⟩ := spellings
  exact ⟨hloud, hquiet, (hsame _ _ _ _ hloud hquiet).mp rfl, hdisplay _ _ hloud⟩

end Tollgate.Owner
