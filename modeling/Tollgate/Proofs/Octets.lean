import Mathlib.Algebra.Group.Nat.Defs
import Tollgate.Octets

/-!
# Parts of byte strings

Results:
1. `toNat_toWord`, `ofWord_toWord`: the word that eight bytes make, and the bytes
   that are read back from it.
2. `ofList?_eq_some_iff`, `getElem?_toList`: a list of the right length, and its
   bytes.
3. `slice_append_slice`, `slice_self`: a byte string is put together again from
   its slices.
4. `ofListPadded_append`: the first bytes of more than are asked for.
-/

namespace Tollgate

/-! ## Words -/

theorem toBigEndian_ofBigEndian (bytes : List UInt8) :
    toBigEndian bytes.length (ofBigEndian bytes) = bytes := by
  generalize hlen : bytes.length = n
  induction n generalizing bytes with
  | zero =>
    obtain rfl := List.eq_nil_of_length_eq_zero hlen
    rfl
  | succ n ih =>
    -- The last byte is the lowest digit, so the list is taken apart from its end.
    rcases List.eq_nil_or_concat bytes with rfl | ⟨start, last, rfl⟩
    · cases hlen
    rw [List.length_concat] at hlen
    rw [List.concat_eq_append]
    have hlast := last.toNat_lt
    have hdiv : ofBigEndian (start ++ [last]) / 256 = ofBigEndian start := by
      rw [ofBigEndian_append]
      omega
    have hlow : UInt8.ofNat (ofBigEndian start * 256 + last.toNat) = last := by
      rw [← UInt8.toNat_inj, UInt8.toNat_ofNat']
      omega
    rw [toBigEndian, hdiv, ih start (by omega), ofBigEndian_append, hlow]

namespace Octets

variable {n : Nat}

theorem ofBigEndian_lt (o : Octets n) : ofBigEndian o.toList < 256 ^ n := by
  have hread := ofBigEndian_toBigEndian n (ofBigEndian o.toList)
  have hsame := toBigEndian_ofBigEndian o.toList
  rw [o.length_toList] at hsame
  rw [hsame] at hread
  exact hread ▸ Nat.mod_lt _ (Nat.pow_pos (by decide))

theorem toNat_toWord (o : Octets 8) : o.toWord.toNat = ofBigEndian o.toList := by
  have hlt : ofBigEndian o.toList < 2 ^ 64 := o.ofBigEndian_lt
  rw [toWord, UInt64.toNat_ofNat', Nat.mod_eq_of_lt hlt]

theorem ofWord_toWord (o : Octets 8) : ofWord o.toWord = o := by
  refine ext ?_
  show toBigEndian 8 o.toWord.toNat = o.toList
  have hsame := toBigEndian_ofBigEndian o.toList
  rw [o.length_toList] at hsame
  rw [toNat_toWord, hsame]

/-! ## Bytes of the right number -/

theorem ofList?_eq_some_iff {bytes : List UInt8} {o : Octets n} :
    ofList? n bytes = some o ↔ bytes = o.toList := by
  unfold ofList?
  constructor
  · intro h
    split at h
    · cases h
      rfl
    · cases h
  · rintro rfl
    exact dif_pos o.length_toList

theorem getElem?_toList (o : Octets n) (i : Nat) (h : i < n) : o.toList[i]? = some (o.get i h) :=
  List.getElem?_eq_getElem (o.length_toList.symm ▸ h)

/-! ## Slices -/

theorem slice_append_slice (o : Octets n) (start m k : Nat) (hm : start + m ≤ n)
    (hk : start + m + k ≤ n) :
    (o.slice start m hm).toList ++ (o.slice (start + m) k hk).toList =
      (o.slice start (m + k) (Nat.add_assoc start m k ▸ hk)).toList := by
  simp only [slice]
  rw [← List.drop_drop, List.take_add]

theorem slice_self (o : Octets n) (h : 0 + n ≤ n) : (o.slice 0 n h).toList = o.toList := by
  show (o.toList.drop 0).take n = o.toList
  rw [List.drop_zero, List.take_of_length_le (Nat.le_of_eq o.length_toList)]

theorem slice_one (o : Octets n) (i : Nat) (h : i < n) (h' : i + 1 ≤ n) :
    (o.slice i 1 h').toList = [o.get i h] := by
  have hlt : i < o.toList.length := o.length_toList.symm ▸ h
  simp only [slice, get]
  rw [List.drop_eq_getElem_cons hlt, List.take_succ_cons, List.take_zero]
  rfl

theorem ofListPadded_append (o : Octets n) (more : List UInt8) :
    ofListPadded n (o.toList ++ more) = o := by
  refine ext ?_
  show (o.toList ++ more).take n ++ List.replicate (n - (o.toList ++ more).length) 0 = o.toList
  have hlen : n - (o.toList ++ more).length = 0 := by
    rw [List.length_append, o.length_toList]
    omega
  rw [hlen, List.replicate_zero, List.append_nil, List.take_append_of_le_length
    (Nat.le_of_eq o.length_toList.symm), List.take_of_length_le (Nat.le_of_eq o.length_toList)]

end Octets

end Tollgate
