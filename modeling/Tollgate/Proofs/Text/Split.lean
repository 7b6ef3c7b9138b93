import Tollgate.Proofs.Text.Plain
import Tollgate.Text.Split

/-!
# Parts of a text

Cutting a text at separators, where the text is put together from others, and where
blanks around the parts do not matter.

Results:
1. `split_append_cons`, `split_intercalate`: the parts of texts that are joined are
   the parts of these texts, in their order.
2. `trim_append_of_blank`: trimming undoes what blanks at the ends have done.
3. `map_trimChars_split_trim`: cutting the blanks off the ends of a text changes no part
   but for the blanks around it.
-/

namespace Tollgate.Text

variable {separator c : Char} {cs front back : List Char}

/-! ## Joined texts -/

theorem split_eq_splitOnP (separator : Char) (cs : List Char) :
    split separator cs = cs.splitOnP (· == separator) := by
  induction cs with
  | nil => rfl
  | cons c rest ih =>
    rw [split, List.splitOnP_cons_eq_if_modifyHead, ← ih]
    by_cases h : c = separator
    · rw [if_pos h, if_pos (beq_iff_eq.mpr h)]
    · rw [if_neg h, if_neg (fun hsame => h (beq_iff_eq.mp hsame))]
      cases hparts : split separator rest with
      | nil => exact absurd hparts (split_ne_nil separator rest)
      | cons part parts => rfl

theorem split_self_cons (separator : Char) (cs : List Char) :
    split separator (separator :: cs) = [] :: split separator cs := by
  rw [split, if_pos rfl]

theorem split_cons_of_ne (h : c ≠ separator) (cs : List Char) :
    split separator (c :: cs) = (split separator cs).modifyHead (c :: ·) := by
  rw [split_eq_splitOnP, List.splitOnP_cons_eq_if_modifyHead, if_neg (fun hsame => h (beq_iff_eq.mp hsame)),
    ← split_eq_splitOnP]

theorem split_of_notMem (h : separator ∉ cs) : split separator cs = [cs] := by
  rw [split_eq_splitOnP]
  exact List.splitOnP_eq_singleton fun c hin => beq_eq_false_iff_ne.mpr fun hsame => h (hsame ▸ hin)

theorem split_append_cons (separator : Char) (front back : List Char) :
    split separator (front ++ separator :: back) =
      split separator front ++ split separator back := by
  simp only [split_eq_splitOnP]
  exact List.splitOnP_append_cons front back (beq_self_eq_true separator)

/-- The parts of joined texts are the parts of these texts. -/
theorem split_intercalate {texts : List (List Char)} (h : texts ≠ []) :
    split separator ([separator].intercalate texts) = texts.flatMap (split separator) := by
  induction texts with
  | nil => exact absurd rfl h
  | cons text rest ih =>
    cases rest with
    | nil => rw [List.intercalate_singleton, List.flatMap_singleton]
    | cons next more =>
      rw [List.intercalate_cons_cons, List.append_assoc, List.singleton_append, split_append_cons,
        ih (List.cons_ne_nil next more), ← List.flatMap_cons]

/-! ## Blanks around parts -/

theorem trimChars_append (h : ∀ c ∈ back, isBlank c = true) (cs : List Char) :
    trimChars (cs ++ back) = trimChars cs := by
  have hback : ∀ c ∈ back.reverse, isBlank c = true := fun c hin => h c (List.mem_reverse.mp hin)
  rw [trimChars, trimChars, List.dropWhile_append]
  split
  · next hempty =>
    have hnone : back.dropWhile isBlank = [] := by
      rw [← List.append_nil back, List.dropWhile_append_of_pos h, List.dropWhile_nil]
    rw [hnone, List.isEmpty_iff.mp hempty]
  · rw [dropBlankEnd, dropBlankEnd, List.reverse_append, List.dropWhile_append_of_pos hback]

theorem trimChars_append_left (h : ∀ c ∈ front, isBlank c = true) (cs : List Char) :
    trimChars (front ++ cs) = trimChars cs := by
  rw [trimChars, trimChars, List.dropWhile_append_of_pos h]

theorem trim_append_of_blank {front back : String} (hfront : Blank front) (hback : Blank back)
    (s : String) : trim (front ++ s ++ back) = trim s := by
  rw [trim, trim, String.toList_append, String.toList_append, trimChars_append hback,
    trimChars_append_left hfront]

/-- What is appended without a separator is appended to the last part. -/
theorem exists_split_append (h : separator ∉ back) (cs : List Char) :
    ∃ parts last, split separator cs = parts ++ [last] ∧
      split separator (cs ++ back) = parts ++ [last ++ back] := by
  induction cs with
  | nil => exact ⟨[], [], rfl, split_of_notMem h⟩
  | cons c rest ih =>
    obtain ⟨parts, last, hrest, hmore⟩ := ih
    rw [List.cons_append]
    by_cases hsame : c = separator
    · subst hsame
      refine ⟨[] :: parts, last, ?_, ?_⟩
      · rw [split_self_cons, hrest, List.cons_append]
      · rw [split_self_cons, hmore, List.cons_append]
    · rw [split_cons_of_ne hsame, split_cons_of_ne hsame, hrest, hmore]
      cases parts with
      | nil => exact ⟨[], c :: last, rfl, rfl⟩
      | cons part parts => exact ⟨(c :: part) :: parts, last, rfl, rfl⟩

/-- What is put in front without a separator is put in front of the first part. -/
theorem split_append_left (h : separator ∉ front) (cs : List Char) :
    split separator (front ++ cs) = (split separator cs).modifyHead (front ++ ·) := by
  induction front with
  | nil => cases hparts : split separator cs <;> simp [hparts]
  | cons c rest ih =>
    rw [List.mem_cons, not_or] at h
    rw [List.cons_append, split_cons_of_ne (Ne.symm h.1), ih h.2, List.modifyHead_modifyHead]
    rfl

theorem notMem_of_blank (hseparator : isBlank separator = false)
    (h : ∀ c ∈ cs, isBlank c = true) : separator ∉ cs := by
  intro hin
  rw [h separator hin] at hseparator
  cases hseparator

/-- Blanks at the ends of a text do not matter if those around its parts do not. -/
theorem map_trimChars_split_trim (hseparator : isBlank separator = false) (s : String) :
    (split separator (trim s).toList).map trimChars =
      (split separator s.toList).map trimChars := by
  obtain ⟨front, back, hfront, hback, hs⟩ := exists_blank_append_trim s
  obtain ⟨parts, last, hparts, hmore⟩ :=
    exists_split_append (notMem_of_blank hseparator hback) (trim s).toList
  have hsplit : split separator s.toList =
      (parts ++ [last ++ back.toList]).modifyHead (front.toList ++ ·) := by
    rw [hs, String.toList_append, String.toList_append, List.append_assoc,
      split_append_left (notMem_of_blank hseparator hfront), hmore]
  rw [hsplit, hparts]
  cases parts with
  | nil => simp [trimChars_append_left hfront, trimChars_append hback]
  | cons part parts => simp [trimChars_append_left hfront, trimChars_append hback]

end Tollgate.Text
