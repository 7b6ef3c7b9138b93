import Tollgate.Text.Digits

/-!
# Numbers in digits

A number is read back from the digits that it is written with, and nothing but
digits is written, after a minus if the number is negative.

Results:
1. `natural?_toDigits`: digits tell the number that they were written for.
2. `word?_toString`, `integer?_toString`: texts do, if the number has 64 bits.
3. `mem_toList_toString`, `toString_inj`: the characters of a whole number, and that
   they tell it.
4. `foldl_digitIn?_toDigits`, `head?_toDigits`: digits to a base, which begin with no
   needless zero.
-/

namespace Tollgate.Text

variable {n : Nat} {c : Char}

theorem isDigit_of_mem_toDigits (h : c ∈ Nat.toDigits 10 n) : isDigit c = true := by
  have hdigit := Nat.isDigit_of_mem_toDigits (by decide) (by decide) h
  rw [Char.isDigit, Bool.and_eq_true, decide_eq_true_iff, decide_eq_true_iff] at hdigit
  rw [isDigit, Bool.and_eq_true, decide_eq_true_iff, decide_eq_true_iff]
  exact hdigit

theorem natural?_toDigits (n : Nat) : natural? (Nat.toDigits 10 n) = some n := by
  have hdigits : (Nat.toDigits 10 n).all isDigit = true :=
    List.all_eq_true.mpr fun _ => isDigit_of_mem_toDigits
  have hsome : (Nat.toDigits 10 n).isEmpty = false :=
    List.isEmpty_eq_false_iff.mpr Nat.toDigits_ne_nil
  have hvalue : digitsValue (Nat.toDigits 10 n) = n := by
    have hread := @Nat.ofDigitChars_ten_toDigits n
    rw [Nat.ofDigitChars_eq_foldl] at hread
    simp only [Nat.mul_comm 10] at hread
    exact hread
  unfold natural?
  rw [hdigits, hsome, hvalue]
  rfl

/-- Digits do not begin with a sign. -/
theorem toDigits_eq_cons (n : Nat) :
    ∃ d rest, Nat.toDigits 10 n = d :: rest ∧ d ≠ '-' ∧ d ≠ '+' := by
  cases h : Nat.toDigits 10 n with
  | nil => exact absurd h Nat.toDigits_ne_nil
  | cons d rest =>
    have hdigit : isDigit d = true := isDigit_of_mem_toDigits (h ▸ List.mem_cons_self)
    refine ⟨d, rest, rfl, ?_, ?_⟩
    · rintro rfl
      exact absurd hdigit (by decide)
    · rintro rfl
      exact absurd hdigit (by decide)

theorem word?_toString (h : n ≤ 0xffffffffffffffff) : word? (toString n) = some n := by
  obtain ⟨d, rest, hcons, -, hplus⟩ := toDigits_eq_cons n
  have hread := natural?_toDigits n
  rw [hcons] at hread
  unfold word?
  rw [Nat.toString_eq_repr, Nat.toList_repr, hcons]
  split
  · next heq => exact absurd (List.cons.inj heq).1 hplus
  · dsimp only
    rw [hread]
    exact Option.filter_some_pos (decide_eq_true h)

theorem integer?_toString (h : n < 0x8000000000000000) : integer? (toString n) = some (n : Int) := by
  obtain ⟨d, rest, hcons, hminus, hplus⟩ := toDigits_eq_cons n
  have hread := natural?_toDigits n
  have hsign : sign (d :: rest) = (false, d :: rest) := by
    unfold sign
    split
    · next heq => exact absurd (List.cons.inj heq).1 hminus
    · next heq => exact absurd (List.cons.inj heq).1 hplus
    · rfl
  rw [hcons] at hread
  unfold integer?
  rw [Nat.toString_eq_repr, Nat.toList_repr, hcons, hsign]
  dsimp only
  rw [hread]
  show (some (n : Int)).filter _ = _
  exact Option.filter_some_pos (decide_eq_true ⟨by omega, by omega⟩)

/-- A whole number is written in digits, after a minus if it is negative. -/
theorem mem_toList_toString {m : Int} (h : c ∈ (toString m).toList) :
    c = '-' ∨ isDigit c = true := by
  rw [Int.toString_eq_repr] at h
  cases m with
  | ofNat n =>
    rw [Int.repr, Nat.toList_repr] at h
    exact .inr (isDigit_of_mem_toDigits h)
  | negSucc n =>
    rw [Int.repr, String.toList_append, Nat.toList_repr] at h
    cases h with
    | head => exact .inl rfl
    | tail _ h => exact .inr (isDigit_of_mem_toDigits h)

theorem toDigits_inj {n' : Nat} (h : Nat.toDigits 10 n = Nat.toDigits 10 n') : n = n' :=
  Option.some.inj (((natural?_toDigits n).symm.trans (congrArg natural? h)).trans
    (natural?_toDigits n'))

theorem toString_inj {m m' : Int} (h : toString m = toString m') : m = m' := by
  have hne (n n' : Nat) : Nat.toDigits 10 n ≠ '-' :: Nat.toDigits 10 n' := by
    intro heq
    obtain ⟨d, rest, hcons, hminus, -⟩ := toDigits_eq_cons n
    exact hminus (List.cons.inj (hcons.symm.trans heq)).1
  have hchars := congrArg String.toList h
  rw [Int.toString_eq_repr, Int.toString_eq_repr] at hchars
  cases m with
  | ofNat n =>
    cases m' with
    | ofNat n' =>
      rw [Int.repr, Int.repr, Nat.toList_repr, Nat.toList_repr] at hchars
      exact congrArg Int.ofNat (toDigits_inj hchars)
    | negSucc n' =>
      rw [Int.repr, Int.repr, String.toList_append, Nat.toList_repr, Nat.toList_repr] at hchars
      exact absurd hchars (hne n _)
  | negSucc n =>
    cases m' with
    | ofNat n' =>
      rw [Int.repr, Int.repr, String.toList_append, Nat.toList_repr, Nat.toList_repr] at hchars
      exact absurd hchars.symm (hne n' _)
    | negSucc n' =>
      rw [Int.repr, Int.repr, String.toList_append, String.toList_append, Nat.toList_repr,
        Nat.toList_repr] at hchars
      exact congrArg Int.negSucc (Nat.succ.inj (toDigits_inj (List.append_cancel_left hchars)))

/-! ## To a base of at most sixteen -/

section Base

variable {base : Nat}

theorem digitIn?_digitChar {d : Nat} (hbase : base ≤ 16) (hd : d < base) :
    digitIn? base (Nat.digitChar d) = some d := by
  have hall : ∀ base ≤ 16, ∀ d < base, digitIn? base (Nat.digitChar d) = some d := by decide
  exact hall base hbase d hd

/-- A number has one digit, or those of the number without its last digit and that one. -/
theorem toDigits_cases (hone : 1 < base) (n : Nat) :
    (n < base ∧ Nat.toDigits base n = [Nat.digitChar n]) ∨
      (0 < n / base ∧ n / base < n ∧
        Nat.toDigits base n = Nat.toDigits base (n / base) ++ [Nat.digitChar (n % base)]) := by
  have hpos : 0 < base := Nat.zero_lt_of_lt hone
  rcases Nat.lt_or_ge n base with hlt | hge
  · exact .inl ⟨hlt, Nat.toDigits_of_lt_base hlt⟩
  · exact .inr ⟨Nat.div_pos hge hpos, Nat.div_lt_self (Nat.lt_of_lt_of_le hpos hge) hone,
      Nat.toDigits_of_base_le hone hge⟩

theorem isSome_digitIn?_of_mem_toDigits (hone : 1 < base) (hbase : base ≤ 16)
    (h : c ∈ Nat.toDigits base n) : (digitIn? base c).isSome := by
  have hdigit (d : Nat) (hd : d < base) : (digitIn? base (Nat.digitChar d)).isSome := by
    rw [digitIn?_digitChar hbase hd, Option.isSome_some]
  induction n using Nat.strongRecOn with
  | ind n ih =>
    rcases toDigits_cases hone n with ⟨hlt, hdigits⟩ | ⟨-, hdiv, hdigits⟩
    · rw [hdigits, List.mem_singleton] at h
      exact h ▸ hdigit n hlt
    · rw [hdigits, List.mem_append, List.mem_singleton] at h
      rcases h with hfront | hlast
      · exact ih _ hdiv hfront
      · exact hlast ▸ hdigit _ (Nat.mod_lt n (Nat.zero_lt_of_lt hone))

theorem foldl_digitIn?_toDigits (hone : 1 < base) (hbase : base ≤ 16) (n : Nat) :
    ((Nat.toDigits base n).filterMap (digitIn? base)).foldl (fun n d => n * base + d) 0 = n := by
  induction n using Nat.strongRecOn with
  | ind n ih =>
    rcases toDigits_cases hone n with ⟨hlt, hdigits⟩ | ⟨-, hdiv, hdigits⟩
    · rw [hdigits, List.filterMap_cons_some (digitIn?_digitChar hbase hlt)]
      show 0 * base + n = n
      rw [Nat.zero_mul, Nat.zero_add]
    · rw [hdigits, List.filterMap_append, List.foldl_append, ih _ hdiv, List.filterMap_cons_some
        (digitIn?_digitChar hbase (Nat.mod_lt n (Nat.zero_lt_of_lt hone)))]
      exact Nat.div_add_mod' n base

/-- Zero alone begins with a zero. -/
theorem head?_toDigits (hone : 1 < base) (hbase : base ≤ 16) (h : 0 < n) :
    (Nat.toDigits base n).head? ≠ some '0' := by
  have hzero : ∀ d < 16, Nat.digitChar d = '0' → d = 0 := by decide
  induction n using Nat.strongRecOn with
  | ind n ih =>
    rcases toDigits_cases hone n with ⟨hlt, hdigits⟩ | ⟨hpos, hdiv, hdigits⟩
    · rw [hdigits, List.head?_cons]
      intro heq
      exact Nat.ne_of_gt h (hzero n (Nat.lt_of_lt_of_le hlt hbase) (Option.some.inj heq))
    · have hfront := ih _ hdiv hpos
      rw [hdigits]
      cases hcons : Nat.toDigits base (n / base) with
      | nil => exact absurd hcons Nat.toDigits_ne_nil
      | cons d rest =>
        rw [hcons] at hfront
        exact hfront

end Base

end Tollgate.Text
