import Tollgate.Proofs.Checks
import Tollgate.Proofs.Text.Plain
import Tollgate.Text.Base64

/-!
# Base64

A text is read only in the spelling that writing gives its bytes: symbols have
one value each, a single symbol over is refused, and so are spare bits that are
not zero and any padding but the one that is asked for.

Results:
1. `value?_symbol`, `eq_symbol_of_value?`: values and symbols, one to one.
2. `ofSextets_toSextets`, `toSextets_ofSextets`: bytes and six-bit values.
3. `readTail_eq_ok_iff`: the symbols and the padding of a tail.
4. `decode_eq_ok_iff`: what the reader accepts.
5. `decodeText_eq_ok_iff`: a text is read as some bytes exactly if it is what
   these are written as.
6. `eq_of_encode_eq`: texts of the two alphabets.
7. `length_octets_encode`: how long a text without padding is.
-/

namespace Tollgate.Text.Base64

variable {a : Alphabet} {bytes out : List UInt8} {sextets : List Nat} {value : Nat}

/-! ## Symbols -/

/-- The symbols of the alphabet are single bytes, none of them the padding, and
each is read as the value it stands for. -/
def Alphabet.Proper (a : Alphabet) : Prop :=
  ∀ value < 64, (a.symbol value).toNat < 128 ∧ (a.symbol value).toNat ≠ pad.toNat ∧
    a.value? (a.symbol value).toNat.toUInt8 = some value

instance (a : Alphabet) : Decidable a.Proper :=
  inferInstanceAs (Decidable (∀ value < 64, _))

theorem proper_urlSafe : Alphabet.urlSafe.Proper := by
  decide

theorem proper_standard : Alphabet.standard.Proper := by
  decide

theorem value?_symbol (ha : a.Proper) (h : value < 64) :
    a.value? (a.symbol value).toNat.toUInt8 = some value :=
  (ha value h).2.2

theorem toNat_ofNat_of_lt {n : Nat} (h : n < 128) : (Char.ofNat n).toNat = n := by
  have hvalid : n.isValidChar := .inl (by omega)
  rw [Char.ofNat, dif_pos hvalid]
  rfl

/-- A byte that has a value is the symbol of that value. -/
theorem eq_symbol_of_value? {byte : UInt8} (h : a.value? byte = some value) :
    value < 64 ∧ (a.symbol value).toNat.toUInt8 = byte := by
  -- One case for each range of symbols, in the order in which they are tried.
  have hsame : value < 64 ∧ (a.symbol value).toNat = byte.toNat := by
    unfold Alphabet.value? at h
    simp only at h
    split at h
    · next hupper =>
      obtain rfl := Option.some.inj h
      rw [Alphabet.symbol, if_pos (by omega), toNat_ofNat_of_lt (by omega)]
      omega
    split at h
    · next hlower =>
      obtain rfl := Option.some.inj h
      rw [Alphabet.symbol, if_neg (by omega), if_pos (by omega), toNat_ofNat_of_lt (by omega)]
      omega
    split at h
    · next hdigit =>
      obtain rfl := Option.some.inj h
      rw [Alphabet.symbol, if_neg (by omega), if_neg (by omega), if_pos (by omega),
        toNat_ofNat_of_lt (by omega)]
      omega
    split at h
    · next hsymbol =>
      obtain rfl := Option.some.inj h
      exact ⟨by decide, hsymbol.symm⟩
    split at h
    · next hsymbol =>
      obtain rfl := Option.some.inj h
      exact ⟨by decide, hsymbol.symm⟩
    · cases h
  exact ⟨hsame.1, by rw [hsame.2, Nat.toUInt8, UInt8.ofNat_toNat]⟩

theorem value?_pad (ha : a.Proper) : a.value? pad = none := by
  cases h : a.value? pad with
  | none => rfl
  | some value =>
    obtain ⟨hlt, hsymbol⟩ := eq_symbol_of_value? h
    obtain ⟨hascii, hne, -⟩ := ha value hlt
    have hnat : (a.symbol value).toNat.toUInt8.toNat = pad.toNat := by rw [hsymbol]
    rw [Nat.toUInt8, UInt8.toNat_ofNat', Nat.mod_eq_of_lt (by omega)] at hnat
    exact absurd hnat hne

/-! ## Six-bit values -/

theorem lt_of_mem_toSextets (h : value ∈ toSextets bytes) : value < 64 := by
  fun_induction toSextets bytes with
  | case1 x y z rest ih =>
    have hx := x.toNat_lt
    have hy := y.toNat_lt
    have hz := z.toNat_lt
    simp only [List.mem_cons] at h
    rcases h with rfl | rfl | rfl | rfl | hrest
    · omega
    · omega
    · omega
    · omega
    · exact ih hrest
  | case2 x y =>
    have hx := x.toNat_lt
    have hy := y.toNat_lt
    simp only [List.mem_cons, List.not_mem_nil, or_false] at h
    omega
  | case3 x =>
    have hx := x.toNat_lt
    simp only [List.mem_cons, List.not_mem_nil, or_false] at h
    omega
  | case4 => cases h

theorem length_toSextets (bytes : List UInt8) :
    (toSextets bytes).length = (bytes.length * 4 + 2) / 3 := by
  fun_induction toSextets bytes with
  | case1 x y z rest ih =>
    simp only [List.length_cons, ih]
    omega
  | case2 => simp
  | case3 => simp
  | case4 => rfl

/-- Whole groups have no spare bits. -/
theorem spareBitsAreZero_cons (x y z w : Nat) (sextets : List Nat) :
    spareBitsAreZero (x :: y :: z :: w :: sextets) = spareBitsAreZero sextets := by
  have hlen : (x :: y :: z :: w :: sextets).length % 4 = sextets.length % 4 := by
    simp only [List.length_cons]
    omega
  cases sextets with
  | nil => simp [spareBitsAreZero]
  | cons v rest =>
    have hlast : (x :: y :: z :: w :: v :: rest).getLastD 0 = (v :: rest).getLastD 0 := by
      simp [List.getLastD]
    rw [spareBitsAreZero, hlen, hlast, spareBitsAreZero]

theorem spareBitsAreZero_toSextets (bytes : List UInt8) :
    spareBitsAreZero (toSextets bytes) = true := by
  fun_induction toSextets bytes with
  | case1 x y z rest ih => rw [spareBitsAreZero_cons, ih]
  | case2 x y =>
    simp only [spareBitsAreZero, List.length_cons, List.length_nil, List.getLastD_cons,
      List.getLastD_nil, beq_iff_eq]
    omega
  | case3 x =>
    simp only [spareBitsAreZero, List.length_cons, List.length_nil, List.getLastD_cons,
      List.getLastD_nil, beq_iff_eq]
    omega
  | case4 => rfl

theorem ofNat_eq_of_toNat {n : Nat} (byte : UInt8) (h : n % 256 = byte.toNat) :
    UInt8.ofNat n = byte := by
  rw [← UInt8.toNat_inj, UInt8.toNat_ofNat', h]

theorem ofSextets_toSextets (bytes : List UInt8) : ofSextets (toSextets bytes) = bytes := by
  fun_induction toSextets bytes with
  | case1 x y z rest ih =>
    have hx := x.toNat_lt
    have hy := y.toNat_lt
    have hz := z.toNat_lt
    rw [ofSextets, ih, ofNat_eq_of_toNat x (by omega),
      ofNat_eq_of_toNat y (by omega), ofNat_eq_of_toNat z (by omega)]
  | case2 x y =>
    have hx := x.toNat_lt
    have hy := y.toNat_lt
    rw [ofSextets, ofNat_eq_of_toNat x (by omega),
      ofNat_eq_of_toNat y (by omega)]
  | case3 x =>
    have hx := x.toNat_lt
    rw [ofSextets, ofNat_eq_of_toNat x (by omega)]
  | case4 => rfl

theorem toSextets_ofSextets (hlt : ∀ value ∈ sextets, value < 64)
    (hlen : sextets.length % 4 ≠ 1) (hspare : spareBitsAreZero sextets = true) :
    toSextets (ofSextets sextets) = sextets := by
  fun_induction ofSextets sextets with
  | case1 x y z w rest ih =>
    simp only [List.mem_cons, forall_eq_or_imp] at hlt
    obtain ⟨hx, hy, hz, hw, hrest⟩ := hlt
    rw [spareBitsAreZero_cons] at hspare
    simp only [List.length_cons] at hlen
    rw [toSextets, ih hrest (by omega) hspare]
    simp only [UInt8.toNat_ofNat', List.cons.injEq, and_true]
    omega
  | case2 x y z =>
    simp only [List.mem_cons, List.not_mem_nil, or_false, forall_eq_or_imp, forall_eq] at hlt
    obtain ⟨hx, hy, hz⟩ := hlt
    have hzero : z % 4 = 0 := by simpa [spareBitsAreZero] using hspare
    rw [toSextets]
    simp only [UInt8.toNat_ofNat', List.cons.injEq, and_true]
    omega
  | case3 x y =>
    simp only [List.mem_cons, List.not_mem_nil, or_false, forall_eq_or_imp, forall_eq] at hlt
    obtain ⟨hx, hy⟩ := hlt
    have hzero : y % 16 = 0 := by simpa [spareBitsAreZero] using hspare
    rw [toSextets]
    simp only [UInt8.toNat_ofNat', List.cons.injEq, and_true]
    omega
  | case4 x => exact absurd rfl hlen
  | case5 => rfl

/-! ## Reading -/

/-- The bytes are the symbols of these values. -/
def Spells (a : Alphabet) (bytes : List UInt8) (sextets : List Nat) : Prop :=
  bytes.map a.value? = sextets.map some

theorem Spells.length_eq (h : Spells a bytes sextets) : bytes.length = sextets.length := by
  have hlen := congrArg List.length h
  rwa [List.length_map, List.length_map] at hlen

theorem spells_nil : Spells a [] sextets ↔ sextets = [] := by
  cases sextets <;> simp [Spells]

theorem spells_cons {byte : UInt8} : Spells a (byte :: bytes) sextets ↔
    ∃ value rest, sextets = value :: rest ∧ a.value? byte = some value ∧ Spells a bytes rest := by
  cases sextets with
  | nil => simp [Spells]
  | cons value rest =>
    constructor
    · intro h
      obtain ⟨hvalue, hrest⟩ := List.cons.inj h
      exact ⟨value, rest, rfl, hvalue, hrest⟩
    · rintro ⟨value', rest', hsame, hvalue, hrest⟩
      obtain ⟨rfl, rfl⟩ := List.cons.inj hsame
      exact List.cons_eq_cons.mpr ⟨hvalue, hrest⟩

theorem Spells.append {more : List UInt8} {values : List Nat} (h : Spells a bytes sextets)
    (hmore : Spells a more values) : Spells a (bytes ++ more) (sextets ++ values) := by
  rw [Spells, List.map_append, List.map_append, h, hmore]

theorem Spells.take (h : Spells a bytes sextets) (n : Nat) :
    Spells a (bytes.take n) (sextets.take n) := by
  rw [Spells, List.map_take, List.map_take, h]

theorem Spells.drop (h : Spells a bytes sextets) (n : Nat) :
    Spells a (bytes.drop n) (sextets.drop n) := by
  rw [Spells, List.map_drop, List.map_drop, h]

/-- The values that bytes spell are below sixty-four and spell the bytes. -/
theorem Spells.eq_map_symbol (h : Spells a bytes sextets) :
    (∀ value ∈ sextets, value < 64) ∧
      bytes = sextets.map fun value => (a.symbol value).toNat.toUInt8 := by
  induction bytes generalizing sextets with
  | nil =>
    obtain rfl := spells_nil.mp h
    exact ⟨List.forall_mem_nil _, rfl⟩
  | cons byte rest ih =>
    obtain ⟨value, more, rfl, hvalue, hmore⟩ := spells_cons.mp h
    obtain ⟨hlt, hsymbol⟩ := eq_symbol_of_value? hvalue
    obtain ⟨hall, hrest⟩ := ih hmore
    exact ⟨List.forall_mem_cons.mpr ⟨hlt, hall⟩, by rw [List.map_cons, hsymbol, ← hrest]⟩

theorem spells_map_symbol (ha : a.Proper) (h : ∀ value ∈ sextets, value < 64) :
    Spells a (sextets.map fun value => (a.symbol value).toNat.toUInt8) sextets := by
  rw [Spells, List.map_map]
  exact List.map_congr_left fun value hin => value?_symbol ha (h value hin)

theorem groupValues_eq_ok_iff (offset : Nat) :
    groupValues a offset bytes = .ok sextets ↔ Spells a bytes sextets := by
  induction bytes generalizing offset sextets with
  | nil =>
    rw [spells_nil, groupValues, Except.ok.injEq]
    exact eq_comm
  | cons byte rest ih =>
    rw [spells_cons, groupValues]
    cases hvalue : a.value? byte with
    | none => simp
    | some value =>
      constructor
      · intro h
        cases hrest : groupValues a (offset + 1) rest with
        | error fault => simp [hrest, Except.map] at h
        | ok more =>
          simp only [hrest, Except.map, Except.ok.injEq] at h
          exact ⟨value, more, h.symm, rfl, (ih (offset + 1)).mp hrest⟩
      · rintro ⟨value', more, rfl, hsame, hmore⟩
        obtain rfl := Option.some.inj hsame
        simp only [(ih (offset + 1)).mpr hmore, Except.map]

theorem exists_replicate_pad {byte : UInt8} {count : Nat}
    (h : byte :: bytes = List.replicate count pad) :
    byte = pad ∧ ∃ more, count = more + 1 ∧ bytes = List.replicate more pad := by
  cases count with
  | zero => cases h
  | succ more =>
    obtain ⟨hbyte, hbytes⟩ := List.cons.inj h
    exact ⟨hbyte, more, rfl, hbytes⟩

/-- Once a padding byte is read, nothing but padding follows. -/
theorem readTail_padded_iff {start position padded count from_ : Nat} (hposition : 2 ≤ position)
    (before : List Nat) :
    (∃ paddedFrom, readTail a start position ⟨before, padded + 1, from_⟩ bytes =
        .ok ⟨sextets, count, paddedFrom⟩) ↔
      sextets = before ∧ ∃ more, count = padded + 1 + more ∧ bytes = List.replicate more pad := by
  induction bytes generalizing position padded with
  | nil =>
    constructor
    · rintro ⟨paddedFrom, h⟩
      cases h
      exact ⟨rfl, 0, rfl, rfl⟩
    · rintro ⟨rfl, more, rfl, hnil⟩
      obtain rfl := (List.replicate_eq_nil_iff pad).mp hnil.symm
      exact ⟨from_, rfl⟩
  | cons byte rest ih =>
    rw [readTail]
    by_cases hpad : byte = pad
    · rw [if_pos hpad, if_neg (Nat.not_lt.mpr hposition)]
      dsimp only
      rw [if_neg (Nat.succ_ne_zero padded), ih (Nat.le_succ_of_le hposition)]
      constructor
      · rintro ⟨rfl, more, rfl, rfl⟩
        exact ⟨rfl, more + 1, by omega, by rw [hpad, List.replicate_succ]⟩
      · rintro ⟨rfl, more, rfl, hbytes⟩
        obtain ⟨-, more, rfl, rfl⟩ := exists_replicate_pad hbytes
        exact ⟨rfl, more, by omega, rfl⟩
    · rw [if_neg hpad, if_pos (Nat.succ_ne_zero padded)]
      constructor
      · rintro ⟨paddedFrom, h⟩
        cases h
      · rintro ⟨-, more, -, hbytes⟩
        exact absurd (exists_replicate_pad hbytes).1 hpad

/-- A tail holds the values of its bytes up to the padding, which does not begin before the
third byte. -/
theorem readTail_eq_ok_iff (ha : a.Proper) (start position count : Nat) (before : List Nat) :
    (∃ paddedFrom, readTail a start position ⟨before, 0, 0⟩ bytes =
        .ok ⟨sextets, count, paddedFrom⟩) ↔
      ∃ symbols values, Spells a symbols values ∧ bytes = symbols ++ List.replicate count pad ∧
        sextets = before ++ values ∧ (count = 0 ∨ 2 ≤ position + symbols.length) := by
  induction bytes generalizing position before with
  | nil =>
    constructor
    · rintro ⟨paddedFrom, h⟩
      cases h
      exact ⟨[], [], rfl, rfl, (List.append_nil _).symm, .inl rfl⟩
    · rintro ⟨symbols, values, hspells, hbytes, rfl, -⟩
      obtain ⟨rfl, hnil⟩ := List.append_eq_nil_iff.mp hbytes.symm
      obtain rfl := spells_nil.mp hspells
      obtain rfl := (List.replicate_eq_nil_iff pad).mp hnil
      exact ⟨0, by rw [readTail, List.append_nil]⟩
  | cons byte rest ih =>
    rw [readTail]
    by_cases hpad : byte = pad
    · rw [if_pos hpad]
      constructor
      · rintro ⟨paddedFrom, h⟩
        split at h
        · cases h
        next hposition =>
        obtain ⟨rfl, more, rfl, rfl⟩ :=
          (readTail_padded_iff (Nat.le_succ_of_le (Nat.not_lt.mp hposition)) before).mp
            ⟨paddedFrom, h⟩
        refine ⟨[], [], rfl, ?_, (List.append_nil _).symm, .inr (Nat.not_lt.mp hposition)⟩
        rw [hpad, Nat.zero_add, Nat.add_comm 1 more, List.replicate_succ, List.nil_append]
      · rintro ⟨symbols, values, hspells, hbytes, rfl, hposition⟩
        cases symbols with
        | cons first symbols =>
          -- Padding is no symbol.
          obtain ⟨value, more, -, hvalue, -⟩ := spells_cons.mp hspells
          rw [← (List.cons.inj hbytes).1, hpad, value?_pad ha] at hvalue
          cases hvalue
        | nil =>
          obtain rfl := spells_nil.mp hspells
          obtain ⟨-, more, rfl, rfl⟩ := exists_replicate_pad hbytes
          have hthird : 2 ≤ position := hposition.resolve_left (Nat.succ_ne_zero more)
          rw [if_neg (Nat.not_lt.mpr hthird)]
          exact (readTail_padded_iff (Nat.le_succ_of_le hthird) before).mpr
            ⟨List.append_nil _, more, Nat.add_comm _ _, rfl⟩
    · rw [if_neg hpad, if_neg (by simp)]
      cases hvalue : a.value? byte with
      | none =>
        constructor
        · rintro ⟨paddedFrom, h⟩
          cases h
        · rintro ⟨symbols, values, hspells, hbytes, -, -⟩
          cases symbols with
          | nil => exact absurd (exists_replicate_pad hbytes).1 hpad
          | cons first symbols =>
            obtain ⟨value, more, -, hfirst, -⟩ := spells_cons.mp hspells
            rw [← (List.cons.inj hbytes).1, hvalue] at hfirst
            cases hfirst
      | some value =>
        rw [ih]
        constructor
        · rintro ⟨symbols, values, hspells, rfl, rfl, hposition⟩
          refine ⟨byte :: symbols, value :: values,
            spells_cons.mpr ⟨value, values, rfl, hvalue, hspells⟩, rfl,
            by rw [List.append_assoc, List.singleton_append], ?_⟩
          rw [List.length_cons]
          omega
        · rintro ⟨symbols, values, hspells, hbytes, rfl, hposition⟩
          cases symbols with
          | nil => exact absurd (exists_replicate_pad hbytes).1 hpad
          | cons first symbols =>
            obtain ⟨rfl, hrest⟩ := List.cons.inj hbytes
            obtain ⟨value', more, rfl, hvalue', hmore⟩ := spells_cons.mp hspells
            obtain rfl := Option.some.inj (hvalue.symm.trans hvalue')
            refine ⟨symbols, more, hmore, hrest,
              by rw [List.append_assoc, List.singleton_append], ?_⟩
            rw [List.length_cons] at hposition
            omega

theorem strayByte?_eq_none (h : bytes.length % 4 ≠ 1) : strayByte? a bytes = none := by
  rw [strayByte?]
  split
  · rw [if_neg fun hall => h hall.1]
  · rfl

/-- How much padding follows so many symbols. -/
def Padding.count (padding : Padding) (symbols : Nat) : Nat :=
  match padding with
  | .forbidden => 0
  | .required => (4 - symbols % 4) % 4

/-- With its padding a text that leaves no single symbol over has none over either, and its tail
holds two symbols or more. -/
theorem Padding.count_spec (padding : Padding) {symbols : Nat} (h : symbols % 4 ≠ 1) :
    (symbols + padding.count symbols) % 4 ≠ 1 ∧
      (symbols = 0 ∧ padding.count symbols = 0 ∨
        (symbols + padding.count symbols - 1) / 4 * 4 + 2 ≤ symbols) := by
  cases padding with
  | forbidden =>
    dsimp only [count]
    omega
  | required =>
    dsimp only [count]
    omega

/-- The padding that fits a tail of two symbols or more is the one that fits the whole text. -/
theorem paddingFits_iff {padding : Padding} {values : List Nat} {count from_ : Nat} (start : Nat)
    (hstart : start % 4 = 0) (hshort : values.length + count ≤ 4)
    (hlong : values.length + count = 0 ∨ 2 ≤ values.length) :
    paddingFits padding ⟨values, count, from_⟩ = true ↔
      count = padding.count (start + values.length) := by
  cases padding with
  | forbidden => exact beq_iff_eq
  | required =>
    rw [paddingFits, beq_iff_eq, Padding.count]
    dsimp only
    omega

theorem readTail_nil_eq_ok_iff (ha : a.Proper) (start count : Nat) :
    (∃ paddedFrom, readTail a start 0 ⟨[], 0, 0⟩ bytes = .ok ⟨sextets, count, paddedFrom⟩) ↔
      ∃ symbols, Spells a symbols sextets ∧ bytes = symbols ++ List.replicate count pad ∧
        (count = 0 ∨ 2 ≤ symbols.length) := by
  rw [readTail_eq_ok_iff ha]
  constructor
  · rintro ⟨symbols, values, hspells, hbytes, rfl, hposition⟩
    exact ⟨symbols, hspells, hbytes, Nat.zero_add symbols.length ▸ hposition⟩
  · rintro ⟨symbols, hspells, hbytes, hposition⟩
    exact ⟨symbols, sextets, hspells, hbytes, rfl, (Nat.zero_add symbols.length).symm ▸ hposition⟩

/-- What is accepted is spelled by its groups and its tail, and padded as it should be. -/
theorem exists_spells_of_decode (ha : a.Proper) {padding : Padding}
    (h : decode a padding bytes = .ok out) : ∃ symbols sextets, Spells a symbols sextets ∧
      bytes = symbols ++ List.replicate (padding.count sextets.length) pad ∧
      sextets.length % 4 ≠ 1 ∧ spareBitsAreZero sextets = true ∧ ofSextets sextets = out := by
  simp only [decode, throw_bind] at h
  split at h
  · cases h
  simp only [bind_eq_ok_iff, ite_error_eq_ok_iff, pure_eq_ok_iff] at h
  obtain ⟨groups, hgroups, ⟨values, count, paddedFrom⟩, hread, hlong, hfits, hspare, rfl⟩ := h
  obtain ⟨symbols, hvalues, htail, -⟩ := (readTail_nil_eq_ok_iff ha _ _).mp ⟨paddedFrom, hread⟩
  have hspells := (groupValues_eq_ok_iff 0).mp hgroups
  have hstart : groups.length = (bytes.length - 1) / 4 * 4 := by
    rw [← hspells.length_eq, List.length_take]
    omega
  have hrest : values.length + count = bytes.length - (bytes.length - 1) / 4 * 4 := by
    rw [← List.length_drop, htail, List.length_append, List.length_replicate, hvalues.length_eq]
  rw [List.ne_nil_iff_length_pos] at hlong
  dsimp only at hlong hfits hspare
  rw [Bool.not_eq_true, Bool.not_eq_false',
    paddingFits_iff groups.length (by omega) (by omega) (by omega)] at hfits
  refine ⟨bytes.take ((bytes.length - 1) / 4 * 4) ++ symbols, groups ++ values,
    hspells.append hvalues, ?_, ?_, by simpa using hspare, rfl⟩
  · rw [List.length_append, ← hfits, List.append_assoc, ← htail, List.take_append_drop]
  · rw [List.length_append]
    omega

/-- No padding stands in the groups. -/
theorem take_drop_padded {symbols : List UInt8} {start : Nat} (h : start ≤ symbols.length)
    (count : Nat) :
    (symbols ++ List.replicate count pad).take start = symbols.take start ∧
      (symbols ++ List.replicate count pad).drop start =
        symbols.drop start ++ List.replicate count pad :=
  ⟨List.take_append_of_le_length h, List.drop_append_of_le_length h⟩

theorem decode_of_spells (ha : a.Proper) {padding : Padding} {symbols : List UInt8}
    (hspells : Spells a symbols sextets) (hlen : sextets.length % 4 ≠ 1)
    (hspare : spareBitsAreZero sextets = true) :
    decode a padding (symbols ++ List.replicate (padding.count sextets.length) pad) =
      .ok (ofSextets sextets) := by
  obtain ⟨hover, hlong⟩ := padding.count_spec hlen
  generalize hcount : padding.count sextets.length = count at hover hlong
  have hsymbols := hspells.length_eq
  have hlength : (symbols ++ List.replicate count pad).length = sextets.length + count := by
    rw [List.length_append, List.length_replicate, hsymbols]
  generalize hstart : (sextets.length + count - 1) / 4 * 4 = start at hlong
  obtain ⟨hgroups, htail⟩ := take_drop_padded (by omega : start ≤ symbols.length) count
  have hrest := List.length_drop (i := start) (l := sextets)
  obtain ⟨paddedFrom, hread⟩ := (readTail_nil_eq_ok_iff ha start count).mpr
    ⟨_, hspells.drop start, rfl, by rw [List.length_drop]; omega⟩
  simp only [decode, throw_bind]
  rw [strayByte?_eq_none (hlength.symm ▸ hover)]
  simp only [hlength, hstart, hgroups, htail, bind_eq_ok_iff, ite_error_eq_ok_iff, pure_eq_ok_iff]
  refine ⟨_, (groupValues_eq_ok_iff 0).mpr (hspells.take start), _, hread, ?_, ?_, ?_, ?_⟩
  · rw [List.ne_nil_iff_length_pos, hlength]
    dsimp only
    omega
  · rw [Bool.not_eq_true, Bool.not_eq_false',
      paddingFits_iff start (by omega) (by omega) (by omega), ← hcount]
    congr 1
    omega
  · rw [List.take_append_drop, hspare]
    decide
  · rw [List.take_append_drop]

/-- Accepted are symbols that leave no single one over and whose spare bits are zero, with the
padding that their number asks for. -/
theorem decode_eq_ok_iff (ha : a.Proper) {padding : Padding} :
    decode a padding bytes = .ok out ↔ ∃ symbols sextets, Spells a symbols sextets ∧
      bytes = symbols ++ List.replicate (padding.count sextets.length) pad ∧
      sextets.length % 4 ≠ 1 ∧ spareBitsAreZero sextets = true ∧ ofSextets sextets = out := by
  constructor
  · exact exists_spells_of_decode ha
  · rintro ⟨symbols, sextets, hspells, rfl, hlen, hspare, rfl⟩
    exact decode_of_spells ha hspells hlen hspare

/-! ## Texts -/

theorem encode_eq (a : Alphabet) (padding : Padding) (bytes : List UInt8) :
    encode a padding bytes = String.ofList ((toSextets bytes).map a.symbol ++
      List.replicate (padding.count (toSextets bytes).length) '=') := by
  cases padding with
  | forbidden => rw [encode, Padding.count, List.replicate_zero, List.append_nil]
  | required => rw [encode, List.length_map, Padding.count]

theorem ascii_of_mem_symbols (ha : a.Proper) {c : Char}
    (h : c ∈ (toSextets bytes).map a.symbol) : c.toNat < 128 := by
  obtain ⟨value, hin, rfl⟩ := List.mem_map.mp h
  exact (ha value (lt_of_mem_toSextets hin)).1

theorem octets_encode (ha : a.Proper) (padding : Padding) (bytes : List UInt8) :
    octets (encode a padding bytes) =
      ((toSextets bytes).map fun value => (a.symbol value).toNat.toUInt8) ++
        List.replicate (padding.count (toSextets bytes).length) pad := by
  rw [encode_eq, octets_ofList_of_ascii, List.map_append, List.map_map, List.map_replicate]
  · rfl
  · intro c hin
    rcases List.mem_append.mp hin with hsymbol | hpad
    · exact ascii_of_mem_symbols ha hsymbol
    · rw [List.eq_of_mem_replicate hpad]
      decide

/-- Strictness: a text is read as some bytes only if it is what they are written
as. -/
theorem decodeText_eq_ok_iff (ha : a.Proper) {padding : Padding} {s : String} :
    decodeText a padding s = .ok bytes ↔ s = encode a padding bytes := by
  rw [decodeText, decode_eq_ok_iff ha]
  constructor
  · rintro ⟨symbols, sextets, hspells, hoctets, hlen, hspare, rfl⟩
    obtain ⟨hlt, hsymbols⟩ := hspells.eq_map_symbol
    refine octets_inj ?_
    rw [octets_encode ha, toSextets_ofSextets hlt hlen hspare, hoctets, hsymbols]
  · rintro rfl
    refine ⟨_, toSextets bytes, spells_map_symbol ha fun _ hin => lt_of_mem_toSextets hin,
      octets_encode ha padding bytes, ?_, spareBitsAreZero_toSextets bytes,
      ofSextets_toSextets bytes⟩
    rw [length_toSextets]
    omega

theorem length_octets_encode (ha : a.Proper) (bytes : List UInt8) :
    (octets (encode a .forbidden bytes)).length = (bytes.length * 4 + 2) / 3 := by
  rw [octets_encode ha, Padding.count, List.replicate_zero, List.append_nil, List.length_map,
    length_toSextets]

/-- The alphabets give no symbol to two values. -/
theorem toSextets_eq_of_map_symbol
    (h : (toSextets bytes).map Alphabet.urlSafe.symbol =
      (toSextets out).map Alphabet.standard.symbol) : toSextets bytes = toSextets out := by
  have hcommon : ∀ value < 64, ∀ other < 64,
      Alphabet.urlSafe.symbol value = Alphabet.standard.symbol other → value = other := by
    decide +kernel
  have hlen : (toSextets bytes).length = (toSextets out).length := by
    simpa only [List.length_map] using congrArg List.length h
  refine List.ext_getElem hlen fun i hi hi' => ?_
  have hsymbol := List.getElem_of_eq h (List.length_map _ ▸ hi)
  rw [List.getElem_map, List.getElem_map] at hsymbol
  exact hcommon _ (lt_of_mem_toSextets (List.getElem_mem hi)) _
    (lt_of_mem_toSextets (List.getElem_mem hi')) hsymbol

/-- What is text of both alphabets has the same bytes in both. -/
theorem eq_of_encode_eq
    (h : encode .urlSafe .forbidden bytes = encode .standard .forbidden out) : bytes = out := by
  have hsymbols := toSextets_eq_of_map_symbol (String.ofList_injective h)
  rw [← ofSextets_toSextets bytes, hsymbols, ofSextets_toSextets]

theorem exists_symbol_of_mem {c : Char} (h : c ∈ (encode a .forbidden bytes).toList) :
    ∃ value < 64, a.symbol value = c := by
  rw [encode, String.toList_ofList] at h
  obtain ⟨value, hin, rfl⟩ := List.mem_map.mp h
  exact ⟨value, lt_of_mem_toSextets hin, rfl⟩

/-- No text of the URL-safe alphabet holds a blank or a point. -/
theorem mem_toList_encode_urlSafe {c : Char}
    (h : c ∈ (encode .urlSafe .forbidden bytes).toList) : isBlank c = false ∧ c ≠ '.' := by
  have hsymbol : ∀ value < 64,
      isBlank (Alphabet.urlSafe.symbol value) = false ∧ Alphabet.urlSafe.symbol value ≠ '.' := by
    decide
  obtain ⟨value, hlt, rfl⟩ := exists_symbol_of_mem h
  exact hsymbol value hlt

theorem trim_encode (h : ∀ value < 64, isBlank (a.symbol value) = false) (padding : Padding)
    (bytes : List UInt8) : trim (encode a padding bytes) = encode a padding bytes := by
  refine trim_eq_self fun c hin => ?_
  rw [encode_eq, String.toList_ofList, List.mem_append] at hin
  rcases hin with hsymbol | hpad
  · obtain ⟨value, hvalue, rfl⟩ := List.mem_map.mp hsymbol
    exact h value (lt_of_mem_toSextets hvalue)
  · rw [List.eq_of_mem_replicate hpad]
    decide

theorem trim_encode_urlSafe (padding : Padding) (bytes : List UInt8) :
    trim (encode .urlSafe padding bytes) = encode .urlSafe padding bytes :=
  trim_encode (by decide) padding bytes

theorem trim_encode_standard (padding : Padding) (bytes : List UInt8) :
    trim (encode .standard padding bytes) = encode .standard padding bytes :=
  trim_encode (by decide) padding bytes

end Tollgate.Text.Base64
