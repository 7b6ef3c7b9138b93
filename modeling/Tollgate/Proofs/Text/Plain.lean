import Tollgate.Text.Blank
import Tollgate.Text.Utf8

/-!
# Plain texts

Texts of ASCII characters are their own bytes, and a text without blanks is not
changed by trimming.

Results:
1. `octets_ofList_of_ascii`: the bytes of a text of ASCII characters.
2. `octets_inj`: texts with the same bytes are equal.
3. `trim_eq_self`: trimming changes no text without blanks.
4. `exists_blank_append_trim`: trimming cuts blanks off and nothing else.
5. `eq_of_last_mark`: what stands after the last of some marks.
-/

namespace Tollgate.Text

/-! ## Bytes -/

theorem octets_ofList (cs : List Char) :
    octets (String.ofList cs) = cs.flatMap String.utf8EncodeChar := by
  rw [octets, String.toUTF8_eq_toByteArray, String.toByteArray_ofList, List.utf8Encode,
    List.data_toByteArray]

theorem octets_append (s t : String) : octets (s ++ t) = octets s ++ octets t := by
  simp [octets]

theorem utf8EncodeChar_of_ascii {c : Char} (h : c.toNat < 128) :
    String.utf8EncodeChar c = [c.toNat.toUInt8] := by
  have hle : c.val.toNat ≤ 0x7f := Nat.le_of_lt_succ h
  rw [String.utf8EncodeChar, if_pos hle]
  rfl

theorem octets_ofList_of_ascii {cs : List Char} (h : ∀ c ∈ cs, c.toNat < 128) :
    octets (String.ofList cs) = cs.map fun c => c.toNat.toUInt8 := by
  rw [octets_ofList]
  induction cs with
  | nil => rfl
  | cons c rest ih =>
    rw [List.flatMap_cons, List.map_cons, utf8EncodeChar_of_ascii (h c List.mem_cons_self),
      ih fun c' hin => h c' (List.mem_cons_of_mem _ hin)]
    rfl

theorem octets_inj {s t : String} (h : octets s = octets t) : s = t := by
  have hread := ofOctets?_octets s
  rw [h, ofOctets?_octets] at hread
  exact (Option.some.inj hread).symm

/-! ## Trimming -/

theorem dropWhile_eq_self_of_forall {p : Char → Bool} {cs : List Char} (h : ∀ c ∈ cs, p c = false) :
    cs.dropWhile p = cs := by
  cases cs with
  | nil => rfl
  | cons c rest => rw [List.dropWhile_cons_of_neg (by simp [h c List.mem_cons_self])]

theorem trimChars_eq_self {cs : List Char} (h : ∀ c ∈ cs, isBlank c = false) :
    trimChars cs = cs := by
  have hreverse : ∀ c ∈ cs.reverse, isBlank c = false :=
    fun c hin => h c (List.mem_reverse.mp hin)
  rw [trimChars, dropWhile_eq_self_of_forall h, dropBlankEnd, dropWhile_eq_self_of_forall hreverse,
    List.reverse_reverse]

theorem trim_eq_self {s : String} (h : ∀ c ∈ s.toList, isBlank c = false) : trim s = s := by
  rw [trim, trimChars_eq_self h, String.ofList_toList]

/-- A text of blanks only. -/
def Blank (s : String) : Prop :=
  ∀ c ∈ s.toList, isBlank c = true

instance (s : String) : Decidable (Blank s) :=
  List.decidableBAll (fun c => isBlank c = true) s.toList

theorem blank_of_takeWhile {cs : List Char} : ∀ c ∈ cs.takeWhile isBlank, isBlank c = true :=
  List.all_eq_true.mp List.all_takeWhile

theorem exists_blank_append_trim (s : String) :
    ∃ front back, Blank front ∧ Blank back ∧ s = front ++ trim s ++ back := by
  let rest := s.toList.dropWhile isBlank
  refine ⟨String.ofList (s.toList.takeWhile isBlank),
    String.ofList (rest.reverse.takeWhile isBlank).reverse, fun c hin => ?_, fun c hin => ?_, ?_⟩
  · exact blank_of_takeWhile c (String.toList_ofList ▸ hin)
  · rw [String.toList_ofList, List.mem_reverse] at hin
    exact blank_of_takeWhile c hin
  · have hrest : (rest.reverse.dropWhile isBlank).reverse ++
        (rest.reverse.takeWhile isBlank).reverse = rest := by
      rw [← List.reverse_append, List.takeWhile_append_dropWhile, List.reverse_reverse]
    refine String.toList_inj.mp ?_
    calc
      s.toList = s.toList.takeWhile isBlank ++ rest := List.takeWhile_append_dropWhile.symm
      _ = s.toList.takeWhile isBlank ++ ((rest.reverse.dropWhile isBlank).reverse ++
            (rest.reverse.takeWhile isBlank).reverse) := by rw [hrest]
      _ = _ := by simp [trimChars, dropBlankEnd, rest]

/-! ## Marks -/

/-- What stands in front may have marks of its own. -/
theorem eq_of_last_mark {mark : Char} {xs ys zs ws : List Char} (hys : mark ∉ ys)
    (hws : mark ∉ ws) (h : xs ++ mark :: ys = zs ++ mark :: ws) : ys = ws := by
  rcases List.append_eq_append_iff.mp h with ⟨rest, -, hrest⟩ | ⟨rest, -, hrest⟩
  · cases rest with
    | nil => exact List.tail_eq_of_cons_eq hrest
    | cons c rest =>
      exact absurd (List.tail_eq_of_cons_eq hrest ▸ List.mem_append_right _ List.mem_cons_self) hys
  · cases rest with
    | nil => exact (List.tail_eq_of_cons_eq hrest).symm
    | cons c rest =>
      exact absurd (List.tail_eq_of_cons_eq hrest ▸ List.mem_append_right _ List.mem_cons_self) hws

end Tollgate.Text
