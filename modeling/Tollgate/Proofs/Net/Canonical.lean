import Mathlib.Algebra.Group.Nat.Defs
import Tollgate.Net.Address
import Tollgate.Proofs.Text.Digits

/-!
# Canonical texts of addresses

Many spellings are read as the same address, and one of them is its canonical text. That
text is read back as the address, so different addresses have different texts.

The readers go through a text from its front. Each lemma says what a reader makes of a
text that begins with what is written for a number, a group or an address, and what may
stand behind that.

Results:
1. `number?_toDigits`: a number, as long as no digit follows.
2. `dotted?_intercalate`, `dotted?_of_notMem`: bytes with points between them, and texts
   without points.
3. `groups_joined`: groups with colons between them, up to a gap.
4. `longestZeros_spec`: the groups that a gap stands for are zeros.
5. `parse?_text`, `text_inj`: an address and its text.
-/

namespace Tollgate.Address

open Text

/-! ## Definitions -/

/-- No digit to the base stands at the front. -/
def Ends (base : Nat) (cs : List Char) : Prop :=
  ∀ c ∈ cs.head?, digitIn? base c = none

/-- What may stand behind groups: nothing, or a gap for others. -/
def Gap (rest : List Char) : Prop :=
  rest = [] ∨ ∃ further, rest = ':' :: ':' :: further

/-- A group behind another one. -/
def groupChars (g : Nat) : List Char :=
  ':' :: Nat.toDigits 16 g

variable {base most limit n : Nat} {zeros : Bool} {s : Spelling} {cs rest : List Char}

/-! ## Numbers -/

theorem ends_nil : Ends base [] :=
  nofun

theorem ends_of_cons {c : Char} (h : digitIn? base c = none) : Ends base (c :: cs) :=
  fun _ hd => Option.some.inj hd ▸ h

theorem takeWhile_of_ends (h : Ends base rest) :
    rest.takeWhile (fun c => (digitIn? base c).isSome) = [] := by
  cases rest with
  | nil => rfl
  | cons c cs => rw [List.takeWhile_cons_of_neg (by simp [h c rfl])]

theorem number?_of_ends (h : Ends base cs) : number? base most limit zeros cs = none := by
  rw [number?, takeWhile_of_ends h]
  rfl

theorem number?_toDigits (hone : 1 < base) (hbase : base ≤ 16) (hn : n ≤ limit)
    (hmost : (Nat.toDigits base n).length ≤ most) (hrest : Ends base rest) :
    number? base most limit zeros (Nat.toDigits base n ++ rest) = some (n, rest) := by
  have hword : (Nat.toDigits base n ++ rest).takeWhile (fun c => (digitIn? base c).isSome) =
      Nat.toDigits base n := by
    rw [List.takeWhile_append_of_pos fun c => isSome_digitIn?_of_mem_toDigits hone hbase,
      takeWhile_of_ends hrest, List.append_nil]
  have hfits : ¬((Nat.toDigits base n).isEmpty = true ∨ most < (Nat.toDigits base n).length ∨
      limit < n) := by
    rintro (hempty | hlong | hlarge)
    · exact Nat.toDigits_ne_nil (List.isEmpty_iff.mp hempty)
    · exact Nat.not_lt.mpr hmost hlong
    · exact Nat.not_lt.mpr hn hlarge
  have hplain : ¬((!zeros) = true ∧ 1 < (Nat.toDigits base n).length ∧
      (Nat.toDigits base n).head? = some '0') := by
    rintro ⟨-, hlong, hzero⟩
    rcases Nat.eq_zero_or_pos n with rfl | hpos
    · rw [Nat.toDigits_zero] at hlong
      exact absurd hlong (by decide)
    · exact head?_toDigits hone hbase hpos hzero
  rw [number?, hword, foldl_digitIn?_toDigits hone hbase, if_neg hfits, if_neg hplain,
    List.drop_left]

theorem drop_of_number? {value : Nat} (h : number? base most limit zeros cs = some (value, rest)) :
    ∃ count, rest = cs.drop count := by
  unfold number? at h
  dsimp only at h
  split at h
  · cases h
  · split at h
    · cases h
    · cases h
      exact ⟨_, rfl⟩

/-- Parts with a separator between them: all but the first one have it in front. -/
theorem intercalate_cons_eq (c : Char) (part : List Char) (parts : List (List Char)) :
    [c].intercalate (part :: parts) = part ++ parts.flatMap (c :: ·) := by
  induction parts generalizing part with
  | nil => rw [List.intercalate_singleton, List.flatMap_nil, List.append_nil]
  | cons next more ih =>
    rw [List.intercalate_cons_cons, ih, List.flatMap_cons, List.append_assoc]
    rfl

/-! ## Bytes -/

theorem dotted?_of_ends (s : Spelling) (value count : Nat) (h : Ends 10 cs) :
    dotted? s value (count + 1) cs = none := by
  rw [dotted?, number?_of_ends h]
  rfl

/-- A point stands between decimal numbers, of which there are two at least. -/
theorem dotted?_of_notMem (s : Spelling) (value count : Nat) (h : '.' ∉ cs) :
    dotted? s value (count + 2) cs = none := by
  rw [dotted?]
  cases hnumber : number? 10 3 255 s.zerosInFront cs with
  | none => rfl
  | some found =>
    obtain ⟨skipped, hdrop⟩ := drop_of_number? hnumber
    have hrest : after? '.' found.2 = none := by
      cases hcs : found.2 with
      | nil => rfl
      | cons d more =>
        have hin : d ∈ cs := List.mem_of_mem_drop (hdrop ▸ hcs ▸ List.mem_cons_self)
        exact if_neg fun heq : d = '.' => h (heq ▸ hin)
    simp [hrest]

/-- Bytes with points between them are read back as the digits of one number. -/
theorem dotted?_intercalate (s : Spelling) {bytes : List Nat} (h : ∀ b ∈ bytes, b < 256)
    (value : Nat) :
    dotted? s value bytes.length (['.'].intercalate (bytes.map (Nat.toDigits 10))) =
      some (bytes.foldl (fun n b => n * 256 + b) value, []) := by
  induction bytes generalizing value with
  | nil => rfl
  | cons b more ih =>
    have hb := h b List.mem_cons_self
    have hlength : (Nat.toDigits 10 b).length ≤ 3 :=
      (Nat.length_toDigits_le_iff (by decide) (by decide)).mpr (Nat.lt_trans hb (by decide))
    have hnumber {rest : List Char} (hrest : Ends 10 rest) :
        number? 10 3 255 s.zerosInFront (Nat.toDigits 10 b ++ rest) = some (b, rest) :=
      number?_toDigits (by decide) (by decide) (Nat.le_of_lt_succ hb) hlength hrest
    have hmore := ih (fun b hin => h b (List.mem_cons_of_mem _ hin)) (value * 256 + b)
    cases more with
    | nil =>
      have hlast := hnumber ends_nil
      rw [List.append_nil] at hlast
      rw [List.map_cons, List.map_nil, List.intercalate_singleton, List.length_singleton, dotted?,
        hlast]
      rfl
    | cons next others =>
      have hpoint : digitIn? 10 '.' = none := by decide
      rw [List.map_cons, List.length_cons] at hmore
      rw [List.map_cons, List.map_cons, List.intercalate_cons_cons, List.append_assoc,
        List.length_cons, List.length_cons, dotted?, List.singleton_append,
        hnumber (ends_of_cons hpoint)]
      simp only [Option.bind_eq_bind, Option.bind_some, Nat.succ_ne_zero, if_false, after?, if_true]
      rw [List.foldl_cons]
      exact hmore

/-! ## Groups -/

theorem digitIn?_colon : digitIn? 16 ':' = none := by
  decide

theorem Gap.ends (h : Gap rest) : Ends 16 rest := by
  rcases h with rfl | ⟨further, rfl⟩
  · exact ends_nil
  · exact ends_of_cons digitIn?_colon

theorem ends_flatMap (hgap : Gap rest) (gs : List Nat) :
    Ends 16 (gs.flatMap groupChars ++ rest) := by
  cases gs with
  | nil => exact hgap.ends
  | cons g more => exact ends_of_cons digitIn?_colon

theorem point_notMem_toDigits (g : Nat) : '.' ∉ Nat.toDigits 16 g := by
  intro h
  have hdigit := isSome_digitIn?_of_mem_toDigits (by decide) (by decide) h
  exact absurd hdigit (by decide)

theorem point_notMem_flatMap (gs : List Nat) : '.' ∉ gs.flatMap groupChars := by
  intro h
  obtain ⟨g, -, hin⟩ := List.mem_flatMap.mp h
  rcases List.mem_cons.mp hin with hcolon | hdigit
  · exact absurd hcolon (by decide)
  · exact point_notMem_toDigits g hdigit

/-- Nothing is read where neither bytes nor a group stand. -/
theorem groups_of_ends {first : Bool} {room : Nat} {inner : List Char}
    (hinner : (if first then some cs else after? ':' cs) = some inner)
    (hdotted : dotted? s 0 4 inner = none) (hends : Ends 16 inner) :
    groups s first (room + 1) cs = ([], false, cs) := by
  rw [groups, hinner]
  dsimp only
  rw [hdotted, ite_self, number?_of_ends hends]

/-- One group is read, and then further ones. -/
theorem groups_cons {first : Bool} {room g : Nat} (hg : g < 65536)
    (hinner : (if first then some cs else after? ':' cs) = some (Nat.toDigits 16 g ++ rest))
    (hdotted : dotted? s 0 4 (Nat.toDigits 16 g ++ rest) = none) (hends : Ends 16 rest) :
    groups s first (room + 1) cs =
      (g :: (groups s false room rest).1, (groups s false room rest).2) := by
  have hlength : (Nat.toDigits 16 g).length ≤ 4 :=
    (Nat.length_toDigits_le_iff (by decide) (by decide)).mpr hg
  rw [groups, hinner]
  dsimp only
  rw [hdotted, ite_self,
    number?_toDigits (by decide) (by decide) (Nat.le_of_lt_succ hg) hlength hends]

variable {gs : List Nat} {room : Nat}

/-- One group is read, and then those behind it, up to a gap. -/
theorem groups_cons_flatMap (s : Spelling) {first : Bool} {g : Nat} (hg : g < 65536) (gs : List Nat)
    (hinner : (if first then some cs else after? ':' cs) =
      some (Nat.toDigits 16 g ++ (gs.flatMap groupChars ++ rest)))
    (hgap : Gap rest) (hpoint : '.' ∉ rest) :
    groups s first (room + 1) cs = (g :: (groups s false room (gs.flatMap groupChars ++ rest)).1,
      (groups s false room (gs.flatMap groupChars ++ rest)).2) := by
  have hnone : '.' ∉ Nat.toDigits 16 g ++ (gs.flatMap groupChars ++ rest) :=
    List.not_mem_append (point_notMem_toDigits g)
      (List.not_mem_append (point_notMem_flatMap gs) hpoint)
  exact groups_cons hg hinner (dotted?_of_notMem s 0 2 hnone) (ends_flatMap hgap gs)

theorem groups_flatMap (s : Spelling) (hgs : ∀ g ∈ gs, g < 65536) (hroom : gs.length ≤ room)
    (hgap : Gap rest) (hpoint : '.' ∉ rest) :
    groups s false room (gs.flatMap groupChars ++ rest) = (gs, false, rest) := by
  induction gs generalizing room with
  | nil =>
    cases room with
    | zero => rfl
    | succ room =>
      rcases hgap with rfl | ⟨further, rfl⟩
      · rfl
      · have hfurther : '.' ∉ ':' :: further := fun hin => hpoint (List.mem_cons_of_mem _ hin)
        exact groups_of_ends rfl (dotted?_of_notMem s 0 2 hfurther) (ends_of_cons digitIn?_colon)
  | cons g more ih =>
    cases room with
    | zero => exact absurd hroom (Nat.not_succ_le_zero _)
    | succ room =>
      rw [List.flatMap_cons, List.append_assoc, groupChars, List.cons_append,
        groups_cons_flatMap s (hgs g List.mem_cons_self) more rfl hgap hpoint,
        ih (fun g hin => hgs g (List.mem_cons_of_mem _ hin)) (Nat.le_of_succ_le_succ hroom)]

theorem toList_joined (gs : List Nat) :
    (joined gs).toList = [':'].intercalate (gs.map (Nat.toDigits 16)) := by
  have hcolon : ":".toList = [':'] := by decide
  rw [joined, String.toList_intercalate, hcolon, List.map_map]
  exact congrArg _ (List.map_congr_left fun g _ => String.toList_ofList)

theorem toList_joined_cons (g : Nat) (gs : List Nat) :
    (joined (g :: gs)).toList = Nat.toDigits 16 g ++ gs.flatMap groupChars := by
  rw [toList_joined, List.map_cons, intercalate_cons_eq, List.flatMap_map]
  rfl

theorem point_notMem_joined (gs : List Nat) : '.' ∉ (joined gs).toList := by
  cases gs with
  | nil => exact List.not_mem_nil
  | cons g more =>
    rw [toList_joined_cons]
    exact List.not_mem_append (point_notMem_toDigits g) (point_notMem_flatMap more)

theorem groups_joined (s : Spelling) (hgs : ∀ g ∈ gs, g < 65536) (hroom : gs.length ≤ room)
    (hgap : Gap rest) (hpoint : '.' ∉ rest) :
    groups s true room ((joined gs).toList ++ rest) = (gs, false, rest) := by
  cases gs with
  | nil =>
    cases room with
    | zero => rfl
    | succ room => exact groups_of_ends rfl (dotted?_of_notMem s 0 2 hpoint) hgap.ends
  | cons g more =>
    cases room with
    | zero => exact absurd hroom (Nat.not_succ_le_zero _)
    | succ room =>
      rw [toList_joined_cons, List.append_assoc,
        groups_cons_flatMap s (hgs g List.mem_cons_self) more rfl hgap hpoint,
        groups_flatMap s (fun g hin => hgs g (List.mem_cons_of_mem _ hin))
          (Nat.le_of_succ_le_succ hroom) hgap hpoint]

/-! ## Gaps -/

theorem longestZeros_spec (gs : List Nat) :
    (longestZeros gs).1 + (longestZeros gs).2 ≤ gs.length ∧
      (gs.drop (longestZeros gs).1).take (longestZeros gs).2 =
        List.replicate (longestZeros gs).2 0 := by
  -- The search keeps a run of zeros, which it replaces by longer ones only.
  refine List.foldlRecOn (motive := fun best : Nat × Nat => best.1 + best.2 ≤ gs.length ∧
    (gs.drop best.1).take best.2 = List.replicate best.2 0) _ _ ⟨Nat.zero_le _, rfl⟩ ?_
  intro best hbest start hstart
  dsimp only
  split
  · have hlt : start < gs.length := List.mem_range.mp hstart
    have hprefix := List.takeWhile_prefix (l := gs.drop start) (decide <| · = 0)
    have hle := hprefix.length_le
    rw [List.length_drop] at hle
    refine ⟨by unfold leadingZeroGroups; omega, ?_⟩
    rw [leadingZeroGroups, ← List.prefix_iff_eq_take.mp hprefix]
    refine List.eq_replicate_iff.mpr ⟨rfl, fun g hg => ?_⟩
    exact of_decide_eq_true (List.all_eq_true.mp List.all_takeWhile g hg)
  · exact hbest

/-! ## Digits -/

theorem length_digits (base value count : Nat) : (digits base value count).length = count := by
  induction count generalizing value with
  | zero => rfl
  | succ count ih =>
    rw [digits, List.length_append, ih]
    rfl

theorem lt_of_mem_digits {value count d : Nat} (hbase : 0 < base)
    (h : d ∈ digits base value count) : d < base := by
  induction count generalizing value with
  | zero => cases h
  | succ count ih =>
    rcases List.mem_append.mp h with hfront | hlast
    · exact ih hfront
    · exact List.mem_singleton.mp hlast ▸ Nat.mod_lt value hbase

theorem foldl_digits (base value count : Nat) :
    (digits base value count).foldl (fun n d => n * base + d) 0 = value % base ^ count := by
  induction count generalizing value with
  | zero => rw [Nat.pow_zero, Nat.mod_one, digits, List.foldl_nil]
  | succ count ih =>
    rw [digits, List.foldl_append, ih, Nat.pow_succ', Nat.mod_mul, Nat.add_comm, Nat.mul_comm]
    rfl

theorem ofGroups_digits (bits : BitVec 128) : ofGroups (digits 65536 bits.toNat 8) = bits := by
  have hlt : bits.toNat < 65536 ^ 8 := bits.isLt
  rw [ofGroups, foldl_digits, Nat.mod_eq_of_lt hlt, BitVec.ofNat_toNat, BitVec.setWidth_eq]

/-! ## Addresses -/

theorem toList_dotted (bits : BitVec 32) :
    (dotted bits).toList = ['.'].intercalate ((digits 256 bits.toNat 4).map (Nat.toDigits 10)) := by
  have hpoint : ".".toList = ['.'] := by decide
  rw [dotted, String.toList_intercalate, hpoint, List.map_map]
  refine congrArg _ (List.map_congr_left fun b _ => ?_)
  rw [Function.comp_apply, Nat.toString_eq_repr, Nat.toList_repr]

theorem dotted?_dotted (s : Spelling) (bits : BitVec 32) :
    dotted? s 0 4 (dotted bits).toList = some (bits.toNat, []) := by
  have hbytes : ∀ b ∈ digits 256 bits.toNat 4, b < 256 := fun _ => lt_of_mem_digits (by decide)
  have hlt : bits.toNat < 256 ^ 4 := bits.isLt
  have hread := dotted?_intercalate s hbytes 0
  rw [length_digits, ← toList_dotted, foldl_digits, Nat.mod_eq_of_lt hlt] at hread
  exact hread

theorem colons?_of_whole {head : List Nat} {ended : Bool}
    (hhead : groups s true 8 cs = (head, ended, rest)) (hlength : head.length = 8) :
    colons? s cs = some (ofGroups head, rest) := by
  rw [colons?, hhead]
  exact if_pos hlength

theorem colons?_of_gap {head tail : List Nat} {further : List Char} {ended : Bool}
    (hhead : groups s true 8 cs = (head, false, ':' :: ':' :: further)) (hlength : head.length ≠ 8)
    (htail : groups s true (if s.emptyGap then 8 - head.length else 8 - head.length - 1) further =
      (tail, ended, rest)) :
    colons? s cs =
      some (ofGroups (head ++ List.replicate (8 - head.length - tail.length) 0 ++ tail), rest) := by
  rw [colons?, hhead]
  simp only [if_neg hlength, Bool.false_eq_true, if_false, after?, if_true, Option.bind_eq_bind,
    Option.bind_some, htail]
  rfl

/-- The last two groups may be written as bytes. -/
theorem groups_dotted (s : Spelling) (room : Nat) (bits : BitVec 32) :
    groups s false (room + 2) (':' :: (dotted bits).toList) =
      ([bits.toNat / 65536, bits.toNat % 65536], true, []) := by
  rw [groups, if_neg Bool.false_ne_true, after?, if_pos rfl]
  dsimp only
  rw [if_neg (Nat.succ_ne_zero room), dotted?_dotted]

/-- An address that stands for one of the other family is read from a text that shows that
one. -/
theorem colons?_mapped {bits : BitVec 128} (h : bits.toNat / 0x100000000 = 0xffff) :
    colons? .strict (':' :: ':' ::
      (Nat.toDigits 16 0xffff ++ ':' :: (dotted (bits.setWidth 32)).toList)) = some (bits, []) := by
  have hdigits : Nat.toDigits 16 0xffff = ['f', 'f', 'f', 'f'] := by decide
  have hletter : digitIn? 10 'f' = none := by decide
  have hcolon : digitIn? 10 ':' = none := by decide
  have hhead (further : List Char) :
      groups .strict true 8 (':' :: further) = ([], false, ':' :: further) :=
    groups_of_ends rfl (dotted?_of_ends .strict 0 3 (ends_of_cons hcolon))
      (ends_of_cons digitIn?_colon)
  have hbytes : Ends 10 (Nat.toDigits 16 0xffff ++ ':' :: (dotted (bits.setWidth 32)).toList) :=
    hdigits ▸ ends_of_cons hletter
  have htail : groups .strict true 7
      (Nat.toDigits 16 0xffff ++ ':' :: (dotted (bits.setWidth 32)).toList) =
        ([0xffff, (bits.setWidth 32).toNat / 65536, (bits.setWidth 32).toNat % 65536],
          true, []) := by
    rw [groups_cons (by decide) rfl (dotted?_of_ends .strict 0 3 hbytes)
      (ends_of_cons digitIn?_colon), groups_dotted]
  rw [colons?_of_gap (hhead _) (by decide) htail]
  refine congrArg (fun found => some (found, [])) (BitVec.eq_of_toNat_eq ?_)
  have hlt := bits.isLt
  simp only [ofGroups, List.replicate, List.nil_append, List.cons_append, List.foldl_cons,
    List.foldl_nil, List.length_nil, List.length_cons, BitVec.toNat_ofNat, BitVec.toNat_setWidth]
  omega

theorem colons?_joined (hgs : ∀ g ∈ gs, g < 65536) (hlength : gs.length = 8) :
    colons? .strict (joined gs).toList = some (ofGroups gs, []) := by
  have hread := groups_joined .strict hgs (Nat.le_of_eq hlength) (.inl rfl) List.not_mem_nil
  rw [List.append_nil] at hread
  exact colons?_of_whole hread hlength

/-- A gap stands for the zeros that it is written for. -/
theorem colons?_gap (hgs : ∀ g ∈ gs, g < 65536) (hlength : gs.length = 8) {start length : Nat}
    (hfits : start + length ≤ 8) (htwo : 2 ≤ length)
    (hzeros : (gs.drop start).take length = List.replicate length 0) :
    colons? .strict ((joined (gs.take start)).toList ++
      ':' :: ':' :: (joined (gs.drop (start + length))).toList) = some (ofGroups gs, []) := by
  have hfront : (gs.take start).length = start := by
    rw [List.length_take, hlength, Nat.min_eq_left (Nat.le_of_add_right_le hfits)]
  have hback : (gs.drop (start + length)).length = 8 - start - length := by
    rw [List.length_drop, hlength, Nat.sub_sub]
  have hgap : 8 - (gs.take start).length - (gs.drop (start + length)).length = length := by
    omega
  have hpoint : '.' ∉ ':' :: ':' :: (joined (gs.drop (start + length))).toList := by
    simpa using point_notMem_joined (gs.drop (start + length))
  have hhead := groups_joined .strict (fun g hin => hgs g (List.mem_of_mem_take hin))
    (by omega : (gs.take start).length ≤ 8) (.inr ⟨_, rfl⟩) hpoint
  have htail := groups_joined .strict (fun g hin => hgs g (List.mem_of_mem_drop hin))
    (by omega : (gs.drop (start + length)).length ≤ 8 - (gs.take start).length - 1) (.inl rfl)
    List.not_mem_nil
  rw [List.append_nil] at htail
  rw [colons?_of_gap hhead (by omega) htail, hgap, ← hzeros, List.append_assoc, ← List.drop_drop,
    List.take_append_drop, List.take_append_drop]

theorem colons?_colons (bits : BitVec 128) :
    colons? .strict (colons bits).toList = some (bits, []) := by
  have hgs : ∀ g ∈ digits 65536 bits.toNat 8, g < 65536 := fun _ => lt_of_mem_digits (by decide)
  have hlength := length_digits 65536 bits.toNat 8
  unfold colons
  split
  · next hmapped =>
    have hfront : "::ffff:".toList = ':' :: ':' :: (Nat.toDigits 16 0xffff ++ [':']) := by decide
    rw [String.toList_append, hfront, List.cons_append, List.cons_append, List.append_assoc]
    exact colons?_mapped hmapped
  · obtain ⟨hfits, hzeros⟩ := longestZeros_spec (digits 65536 bits.toNat 8)
    dsimp only
    split
    · rw [colons?_joined hgs hlength, ofGroups_digits]
    · next htwo =>
      have hcolons : "::".toList = [':', ':'] := by decide
      have hread := colons?_gap hgs hlength (hlength ▸ hfits) (Nat.le_of_not_lt htwo) hzeros
      rw [ofGroups_digits] at hread
      rw [String.toList_append, String.toList_append, hcolons, List.append_assoc]
      exact hread

theorem dotted?_colons (bits : BitVec 128) : dotted? .strict 0 4 (colons bits).toList = none := by
  unfold colons
  split
  · have hcolon : digitIn? 10 ':' = none := by decide
    have hfront : "::ffff:".toList = [':', ':', 'f', 'f', 'f', 'f', ':'] := by decide
    rw [String.toList_append, hfront]
    exact dotted?_of_ends .strict 0 3 (ends_of_cons hcolon)
  · dsimp only
    refine dotted?_of_notMem .strict 0 2 ?_
    split
    · exact point_notMem_joined _
    · have hcolons : '.' ∉ "::".toList := by decide
      rw [String.toList_append, String.toList_append]
      exact List.not_mem_append (List.not_mem_append (point_notMem_joined _) hcolons)
        (point_notMem_joined _)

theorem parse?_text (a : Address) : parse? a.text = some a := by
  cases a with
  | v4 bits =>
    rw [parse?, text, read?, dotted?_dotted]
    dsimp only
    rw [BitVec.ofNat_toNat, BitVec.setWidth_eq]
  | v6 bits =>
    rw [parse?, text, read?, dotted?_colons, colons?_colons]
    rfl

/-- The text tells the address. -/
theorem text_inj {a a' : Address} : a.text = a'.text ↔ a = a' := by
  refine ⟨fun h => ?_, congrArg text⟩
  have hread := parse?_text a
  rw [h, parse?_text] at hread
  exact (Option.some.inj hread).symm

end Tollgate.Address
