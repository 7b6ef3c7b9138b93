import Tollgate.Proofs.Checks
import Tollgate.Proofs.Text.Plain
import Tollgate.Text.Hex

/-!
# Hexadecimal digits

Bytes are written in lower case and read in either. A text of digits is therefore read as
some bytes exactly if it is in lower case what these are written as.

Results:
1. `value?_of_digit`, `digit_of_value?`: digits and the bytes that have a value.
2. `pairs_eq_ok_iff`, `decode_eq_ok_iff`: what digits are read as.
3. `isDigits_of_values`: bytes that all have values are a text of digits.
4. `isDigits_encode`, `toLower_encode`: what is written is digits in lower case.
5. `decode_octets_eq_ok_iff`: a text is read as some bytes exactly if it is made of digits
   and is in lower case what the bytes are written as.
6. `exists_decode_octets_iff`: a text is read exactly if it has two digits for each byte.
-/

namespace Tollgate.Text.Hex

/-! ## Definitions -/

/-- The digits, those above nine in either case. -/
def digits : List Char :=
  "0123456789abcdefABCDEF".toList

/-- Every character is a digit. -/
def IsDigits (s : String) : Prop :=
  ∀ c ∈ s.toList, c ∈ digits

instance (s : String) : Decidable (IsDigits s) :=
  inferInstanceAs (Decidable (∀ c ∈ s.toList, c ∈ digits))

/-- The values of the two digits of a byte. -/
def halves (byte : UInt8) : List Nat :=
  [byte.toNat / 16, byte.toNat % 16]

variable {bytes out : List UInt8} {byte : UInt8} {value : Nat} {c : Char}

/-! ## Digits -/

theorem digit_mem_digits (h : value < 16) : digit value ∈ digits := by
  have hall : ∀ value < 16, digit value ∈ digits := by decide
  exact hall value h

theorem toLower_digit (h : value < 16) : (digit value).toLower = digit value := by
  have hall : ∀ value < 16, (digit value).toLower = digit value := by decide
  exact hall value h

/-- What can be checked of each digit. -/
theorem forall_mem_digits {p : Char → Prop} [DecidablePred p] (h : digits.all (p ·) = true) :
    ∀ c ∈ digits, p c :=
  fun c hin => of_decide_eq_true (List.all_eq_true.mp h c hin)

theorem ascii_of_digit (h : c ∈ digits) : c.toNat < 128 := by
  have hall : ∀ c ∈ digits, c.toNat < 128 := forall_mem_digits (by decide)
  exact hall c h

/-- A digit has the value of which it is the digit in lower case. -/
theorem value?_of_digit (h : c ∈ digits) :
    ∃ value < 16, value? c.toNat.toUInt8 = some value ∧ digit value = c.toLower := by
  have hall : ∀ c ∈ digits,
      ∃ value < 16, value? c.toNat.toUInt8 = some value ∧ digit value = c.toLower :=
    forall_mem_digits (by decide)
  exact hall c h

theorem digit_inj {value' : Nat} (h : value < 16) (h' : value' < 16)
    (heq : digit value = digit value') : value = value' := by
  have hall : ∀ value < 16, ∀ value' < 16, digit value = digit value' → value = value' := by
    decide
  exact hall value h value' h' heq

/-- Only digits have values. -/
theorem digit_of_value? (h : value? byte = some value) :
    Char.ofNat byte.toNat ∈ digits ∧ (Char.ofNat byte.toNat).toNat.toUInt8 = byte := by
  have hall : ∀ code < 128, (value? code.toUInt8).isSome = true →
      Char.ofNat code ∈ digits ∧ (Char.ofNat code).toNat = code := by
    decide
  have hsmall : byte.toNat < 128 := by
    unfold value? at h
    dsimp only at h
    split at h
    · omega
    split at h
    · omega
    split at h
    · omega
    · cases h
  have hbyte : byte.toNat.toUInt8 = byte := UInt8.ofNat_toNat
  obtain ⟨hdigit, hcode⟩ := hall byte.toNat hsmall (by rw [hbyte, h, Option.isSome_some])
  exact ⟨hdigit, by rw [hcode, hbyte]⟩

theorem lt_of_value? (h : value? byte = some value) : value < 16 := by
  obtain ⟨hdigit, hbyte⟩ := digit_of_value? h
  obtain ⟨own, hown, hread, -⟩ := value?_of_digit hdigit
  rw [hbyte] at hread
  exact Option.some.inj (hread.symm.trans h) ▸ hown

/-! ## Pairs of digits -/

theorem lt_of_mem_halves (h : value ∈ bytes.flatMap halves) : value < 16 := by
  obtain ⟨byte, -, hvalue⟩ := List.mem_flatMap.mp h
  have hlt := byte.toNat_lt
  rcases List.mem_cons.mp hvalue with rfl | hlow
  · omega
  · rw [List.mem_singleton] at hlow
    omega

theorem flatMap_pair (bytes : List UInt8) :
    bytes.flatMap pair = (bytes.flatMap halves).map digit := by
  rw [List.map_flatMap]
  rfl

theorem length_flatMap_halves (bytes : List UInt8) :
    (bytes.flatMap halves).length = 2 * bytes.length := by
  induction bytes with
  | nil => rfl
  | cons byte rest ih =>
    rw [List.flatMap_cons, List.length_append, ih, List.length_cons]
    show 2 + 2 * rest.length = 2 * (rest.length + 1)
    rw [Nat.mul_succ, Nat.add_comm]

theorem ofNat_halves (byte : UInt8) :
    UInt8.ofNat (byte.toNat / 16 * 16 + byte.toNat % 16) = byte := by
  rw [Nat.div_add_mod', UInt8.ofNat_toNat]

theorem halves_ofNat {high low : Nat} (hhigh : high < 16) (hlow : low < 16) :
    halves (UInt8.ofNat (high * 16 + low)) = [high, low] := by
  have hnat : (UInt8.ofNat (high * 16 + low)).toNat = high * 16 + low := by
    rw [UInt8.toNat_ofNat', Nat.mod_eq_of_lt (by omega)]
  rw [halves, hnat]
  congr 1
  · omega
  · congr 1
    omega

/-- Values in pairs are the halves of bytes. -/
theorem exists_halves {values : List Nat} (n : Nat) (hlen : values.length = 2 * n)
    (hvalues : ∀ value ∈ values, value < 16) :
    ∃ bytes : List UInt8, bytes.length = n ∧ bytes.flatMap halves = values := by
  induction n generalizing values with
  | zero =>
    obtain rfl := List.eq_nil_of_length_eq_zero hlen
    exact ⟨[], rfl, rfl⟩
  | succ n ih =>
    obtain ⟨high, values, rfl⟩ := List.exists_cons_of_length_eq_add_one hlen
    obtain ⟨low, rest, rfl⟩ := List.exists_cons_of_length_eq_add_one (Nat.succ.inj hlen)
    obtain ⟨hhigh, hvalues⟩ := List.forall_mem_cons.mp hvalues
    obtain ⟨hlow, hrest⟩ := List.forall_mem_cons.mp hvalues
    obtain ⟨bytes, hbytes, rfl⟩ := ih (Nat.succ.inj (Nat.succ.inj hlen)) hrest
    refine ⟨UInt8.ofNat (high * 16 + low) :: bytes, congrArg Nat.succ hbytes, ?_⟩
    rw [List.flatMap_cons, halves_ofNat hhigh hlow]
    rfl

/-- Two digits are the halves of one byte. -/
theorem values_cons_iff {high low : UInt8} {rest : List UInt8} :
    (high :: low :: rest).map value? = (out.flatMap halves).map some ↔
      ∃ h l more, value? high = some h ∧ value? low = some l ∧
        rest.map value? = (more.flatMap halves).map some ∧ UInt8.ofNat (h * 16 + l) :: more = out := by
  constructor
  · intro hvalues
    cases out with
    | nil => cases hvalues
    | cons byte more =>
      rw [List.flatMap_cons, List.map_append] at hvalues
      obtain ⟨hhigh, hvalues⟩ := List.cons.inj hvalues
      obtain ⟨hlow, hrest⟩ := List.cons.inj hvalues
      exact ⟨_, _, more, hhigh, hlow, hrest, by rw [ofNat_halves]⟩
  · rintro ⟨h, l, more, hhigh, hlow, hrest, rfl⟩
    rw [List.flatMap_cons, halves_ofNat (lt_of_value? hhigh) (lt_of_value? hlow), List.map_append,
      ← hrest, List.map_cons, List.map_cons, hhigh, hlow]
    rfl

/-- Pairs of digits are read as the bytes that they are the halves of. -/
theorem pairs_eq_ok_iff (offset : Nat) :
    pairs offset bytes = .ok out ↔ bytes.map value? = (out.flatMap halves).map some := by
  fun_induction pairs offset bytes generalizing out with
  | case1 offset high low rest hnone =>
    rw [values_cons_iff]
    constructor
    · intro h
      cases h
    · rintro ⟨h, l, more, hhigh, -⟩
      rw [hnone] at hhigh
      cases hhigh
  | case2 offset high low rest value hnone hsome =>
    rw [values_cons_iff]
    constructor
    · intro h
      cases h
    · rintro ⟨h, l, more, -, hlow, -⟩
      rw [hnone] at hlow
      cases hlow
  | case3 offset high low rest h l hlow hhigh ih =>
    rw [values_cons_iff, map_eq_ok_iff]
    constructor
    · rintro ⟨more, hmore, hout⟩
      exact ⟨h, l, more, hhigh, hlow, ih.mp hmore, hout⟩
    · rintro ⟨h', l', more, hhigh', hlow', hmore, hout⟩
      obtain rfl := Option.some.inj (hhigh.symm.trans hhigh')
      obtain rfl := Option.some.inj (hlow.symm.trans hlow')
      exact ⟨more, ih.mpr hmore, hout⟩
  | case4 offset lone =>
    constructor
    · intro h
      cases h
    · intro h
      have hlen := congrArg List.length h
      rw [List.length_map, List.length_map, length_flatMap_halves, List.length_singleton] at hlen
      omega
  | case5 =>
    cases out with
    | nil => exact iff_of_true rfl rfl
    | cons byte more => exact iff_of_false nofun nofun

theorem decode_eq_ok_iff (n : Nat) :
    decode n bytes = .ok out ↔
      out.length = n ∧ bytes.map value? = (out.flatMap halves).map some := by
  rw [decode, ite_error_eq_ok_iff, ite_error_eq_ok_iff, pairs_eq_ok_iff]
  constructor
  · rintro ⟨-, hlen, hvalues⟩
    have hsame := congrArg List.length hvalues
    rw [List.length_map, List.length_map, length_flatMap_halves] at hsame
    exact ⟨by omega, hvalues⟩
  · rintro ⟨rfl, hvalues⟩
    have hsame := congrArg List.length hvalues
    rw [List.length_map, List.length_map, length_flatMap_halves] at hsame
    exact ⟨by omega, by omega, hvalues⟩

/-! ## Texts -/

variable {s : String}

theorem octets_of_isDigits (h : IsDigits s) :
    octets s = s.toList.map fun c => c.toNat.toUInt8 := by
  have hoctets := octets_ofList_of_ascii fun c hin => ascii_of_digit (h c hin)
  rwa [String.ofList_toList] at hoctets

/-- Bytes that all have values are a text of digits. -/
theorem isDigits_of_values {values : List Nat} (h : (octets s).map value? = values.map some) :
    IsDigits s := by
  have hread : ∀ byte ∈ octets s,
      Char.ofNat byte.toNat ∈ digits ∧ (Char.ofNat byte.toNat).toNat.toUInt8 = byte := by
    intro byte hin
    have hvalue : value? byte ∈ values.map some := h ▸ List.mem_map_of_mem hin
    obtain ⟨value, -, hsome⟩ := List.mem_map.mp hvalue
    exact digit_of_value? hsome.symm
  have hcs : ∀ c ∈ (octets s).map fun byte => Char.ofNat byte.toNat, c ∈ digits := by
    intro c hin
    obtain ⟨byte, hbyte, rfl⟩ := List.mem_map.mp hin
    exact (hread byte hbyte).1
  -- Digits are their own bytes, so that the characters with these bytes are the text.
  have hsame : String.ofList ((octets s).map fun byte => Char.ofNat byte.toNat) = s := by
    refine octets_inj ?_
    rw [octets_ofList_of_ascii fun c hin => ascii_of_digit (hcs c hin), List.map_map]
    calc
      (octets s).map _ = (octets s).map id :=
        List.map_congr_left fun byte hin => (hread byte hin).2
      _ = octets s := List.map_id _
  intro c hin
  rw [← hsame, String.toList_ofList] at hin
  exact hcs c hin

/-- The values of digits are the ones whose digits in lower case they are. -/
theorem values_iff_toLower {cs : List Char} {values : List Nat} (hcs : ∀ c ∈ cs, c ∈ digits)
    (hvalues : ∀ value ∈ values, value < 16) :
    (cs.map fun c => value? c.toNat.toUInt8) = values.map some ↔
      cs.map Char.toLower = values.map digit := by
  induction cs generalizing values with
  | nil =>
    cases values with
    | nil => exact iff_of_true rfl rfl
    | cons value rest => exact iff_of_false nofun nofun
  | cons c cs ih =>
    cases values with
    | nil => exact iff_of_false nofun nofun
    | cons value values =>
      obtain ⟨hc, hcs⟩ := List.forall_mem_cons.mp hcs
      obtain ⟨hvalue, hvalues⟩ := List.forall_mem_cons.mp hvalues
      obtain ⟨own, hown, hread, hlower⟩ := value?_of_digit hc
      have hhead : value? c.toNat.toUInt8 = some value ↔ c.toLower = digit value := by
        rw [hread, ← hlower, Option.some.injEq]
        exact ⟨fun h => h ▸ rfl, digit_inj hown hvalue⟩
      rw [List.map_cons, List.map_cons, List.map_cons, List.map_cons, List.cons.injEq,
        List.cons.injEq, hhead, ih hcs hvalues]

/-- Digits have values. -/
theorem exists_values {cs : List Char} (hcs : ∀ c ∈ cs, c ∈ digits) :
    ∃ values : List Nat, (∀ value ∈ values, value < 16) ∧ cs.map Char.toLower = values.map digit := by
  induction cs with
  | nil => exact ⟨[], List.forall_mem_nil _, rfl⟩
  | cons c cs ih =>
    obtain ⟨hc, hcs⟩ := List.forall_mem_cons.mp hcs
    obtain ⟨values, hvalues, hlower⟩ := ih hcs
    obtain ⟨value, hvalue, -, hown⟩ := value?_of_digit hc
    exact ⟨value :: values, List.forall_mem_cons.mpr ⟨hvalue, hvalues⟩,
      List.cons_eq_cons.mpr ⟨hown.symm, hlower⟩⟩

theorem toList_encode (bytes : List UInt8) :
    (encode bytes).toList = (bytes.flatMap halves).map digit := by
  rw [encode, String.toList_ofList, flatMap_pair]

theorem length_encode (bytes : List UInt8) : (encode bytes).length = 2 * bytes.length := by
  rw [← String.length_toList, toList_encode, List.length_map, length_flatMap_halves]

theorem isDigits_encode (bytes : List UInt8) : IsDigits (encode bytes) := by
  intro c hin
  rw [toList_encode] at hin
  obtain ⟨value, hvalue, rfl⟩ := List.mem_map.mp hin
  exact digit_mem_digits (lt_of_mem_halves hvalue)

theorem toList_toLower (s : String) : s.toLower.toList = s.toList.map Char.toLower :=
  String.toList_map

theorem toLower_encode (bytes : List UInt8) : (encode bytes).toLower = encode bytes := by
  refine String.toList_inj.mp ?_
  rw [toList_toLower, toList_encode, List.map_map]
  exact List.map_congr_left fun value hin => toLower_digit (lt_of_mem_halves hin)

/-- A text is read as some bytes exactly if it is made of digits and is in lower case what
the bytes are written as. -/
theorem decode_octets_eq_ok_iff (n : Nat) :
    decode n (octets s) = .ok out ↔ out.length = n ∧ IsDigits s ∧ s.toLower = encode out := by
  have hlower : s.toLower = encode out ↔
      s.toList.map Char.toLower = (out.flatMap halves).map digit := by
    rw [← String.toList_inj, toList_toLower, toList_encode]
  have hhalves : ∀ value ∈ out.flatMap halves, value < 16 := fun _ => lt_of_mem_halves
  rw [decode_eq_ok_iff, hlower]
  constructor
  · rintro ⟨hlen, hvalues⟩
    have hdigits := isDigits_of_values hvalues
    rw [octets_of_isDigits hdigits, List.map_map] at hvalues
    exact ⟨hlen, hdigits, (values_iff_toLower hdigits hhalves).mp hvalues⟩
  · rintro ⟨hlen, hdigits, htext⟩
    rw [octets_of_isDigits hdigits, List.map_map]
    exact ⟨hlen, (values_iff_toLower hdigits hhalves).mpr htext⟩

theorem length_toLower (s : String) : s.toLower.length = s.length := by
  rw [← String.length_toList, toList_toLower, List.length_map, String.length_toList]

/-- Nothing but its length and its characters keeps a text from being read. -/
theorem exists_decode_octets_iff (n : Nat) :
    (∃ out, decode n (octets s) = .ok out) ↔ s.length = 2 * n ∧ IsDigits s := by
  constructor
  · rintro ⟨out, h⟩
    obtain ⟨hlen, hdigits, hlower⟩ := (decode_octets_eq_ok_iff n).mp h
    exact ⟨by rw [← length_toLower, hlower, length_encode, hlen], hdigits⟩
  · rintro ⟨hlen, hdigits⟩
    obtain ⟨values, hvalues, hlower⟩ := exists_values hdigits
    have hcount : values.length = 2 * n := by
      have hsame := congrArg List.length hlower
      rw [List.length_map, List.length_map, String.length_toList] at hsame
      rw [← hsame, hlen]
    obtain ⟨out, hout, rfl⟩ := exists_halves n hcount hvalues
    refine ⟨out, (decode_octets_eq_ok_iff n).mpr ⟨hout, hdigits, String.toList_inj.mp ?_⟩⟩
    rw [toList_toLower, toList_encode, hlower]

end Tollgate.Text.Hex
