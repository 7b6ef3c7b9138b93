import Tollgate.Proofs.Text.Digits
import Tollgate.Store

/-!
# Counts in the store

A count is a number in digits under a key. Counting up makes it one more, starting
from nothing, up to the highest number that the store takes, and from then on it
lives for the time that was told.

Results:
1. `lookup_countUp_self`, `lookup_countUp_of_ne`: what counting up does to its own
   key, and to all others.
2. `counts_map_eq_ok`: reading counts tells what the store shows.
-/

namespace Tollgate.Store

/-- The highest count. -/
def highestCount : Nat := 0x7fffffffffffffff

/-- The store shows a count under a key at an instant; it shows zero by having no
record. -/
def Shows (s : Store) (now : Instant) (key : String) : Nat → Prop
  | 0 => s.find? now key = none
  | n + 1 => ∃ expires, s.find? now key = some ⟨toString (n + 1), expires⟩

variable {s : Store} {now : Instant} {key other : String} {r : Record} {n seconds : Nat}

theorem Shows.of_find? {expires : Option Instant} (hpos : 0 < n)
    (h : s.find? now key = some ⟨toString n, expires⟩) : s.Shows now key n := by
  cases n with
  | zero => cases hpos
  | succ n => exact ⟨expires, h⟩

theorem Shows.isSome (h : s.Shows now key n) (hpos : 0 < n) : (s.find? now key).isSome := by
  cases n with
  | zero => cases hpos
  | succ n =>
    obtain ⟨expires, hfind⟩ := h
    exact Option.isSome_of_eq_some hfind

/-! ## Records -/

theorem lookup_put_self (s : Store) (key : String) (r : Record) :
    (s.put key r).records.lookup key = some r :=
  List.lookup_cons_self

theorem lookup_put_of_ne (s : Store) (hne : other ≠ key) (r : Record) :
    (s.put key r).records.lookup other = s.records.lookup other := by
  rw [put, List.lookup_cons, beq_eq_false_iff_ne.mpr hne]
  exact lookup_filter_ne hne s.records

theorem find?_of_lookup (h : s.records.lookup key = some r) (hlive : r.isLive now = true) :
    s.find? now key = some r := by
  rw [find?, h]
  exact Option.filter_some_pos hlive

theorem find?_of_lookup_none (h : s.records.lookup key = none) : s.find? now key = none := by
  rw [find?, h]
  rfl

theorem isLive_of_find? (h : s.find? now key = some r) : r.isLive now = true :=
  (Option.filter_eq_some_iff.mp h).2

theorem find?_put_live (s : Store) (hlive : r.isLive now = true) :
    (s.put key r).find? now key = some r :=
  find?_of_lookup (lookup_put_self s key r) hlive

theorem lookup_expire_self (h : s.find? now key = some r) (seconds : Nat) :
    (s.expire now key seconds).records.lookup key =
      some ⟨r.text, some (now + (seconds * 1000000000 : Nat))⟩ := by
  rw [expire, h]
  exact lookup_put_self _ _ _

theorem lookup_expire_of_ne (hne : other ≠ key) (seconds : Nat) :
    (s.expire now key seconds).records.lookup other = s.records.lookup other := by
  unfold expire
  split
  · rfl
  · exact lookup_put_of_ne s hne _

theorem isDown_expire (s : Store) (now : Instant) (key : String) (seconds : Nat) :
    (s.expire now key seconds).isDown = s.isDown := by
  unfold expire
  split
  · rfl
  · rfl

/-! ## Counting up -/

theorem increment_of_none (h : s.find? now key = none) :
    s.increment now key = .ok (1, s.put key ⟨"1", none⟩) := by
  rw [increment, h]

theorem increment_of_lt {expires : Option Instant}
    (h : s.find? now key = some ⟨toString n, expires⟩) (hlt : n < highestCount) :
    s.increment now key = .ok (n + 1, s.put key ⟨toString (n + 1), expires⟩) := by
  have hread : Text.integer? (toString n) = some (n : Int) :=
    Text.integer?_toString (Nat.lt_succ_of_lt hlt)
  have hfits : ((n : Int) + 1 < 0x8000000000000000) := by
    unfold highestCount at hlt
    omega
  have hkept : (some (n : Int)).filter (· + 1 < 0x8000000000000000) = some (n : Int) :=
    Option.filter_some_pos (decide_eq_true hfits)
  rw [increment, h]
  dsimp only
  rw [hread, hkept]
  rfl

theorem increment_of_highest {expires : Option Instant}
    (h : s.find? now key = some ⟨toString highestCount, expires⟩) :
    s.increment now key = .error .notANumber := by
  rw [increment, h]
  dsimp only
  rw [Text.integer?_toString (by decide)]
  rfl

theorem increment_eq_ok {count : Int} {s' : Store} (h : s.increment now key = .ok (count, s')) :
    ∃ r, s' = s.put key r := by
  unfold increment at h
  split at h
  · exact ⟨_, (Prod.mk.inj (Except.ok.inj h)).2.symm⟩
  · split at h
    · cases h
    · exact ⟨_, (Prod.mk.inj (Except.ok.inj h)).2.symm⟩

theorem lookup_countUp_self (hup : s.isDown = false) (h : s.Shows now key n)
    (hle : n ≤ highestCount) (seconds : Nat) :
    (s.countUp now key seconds).2.records.lookup key =
      some ⟨toString (min (n + 1) highestCount), some (now + (seconds * 1000000000 : Nat))⟩ := by
  rw [countUp, hup, if_neg Bool.false_ne_true]
  cases n with
  | zero =>
    rw [increment_of_none h]
    exact lookup_expire_self (find?_put_live s rfl) seconds
  | succ n =>
    obtain ⟨expires, hfind⟩ := h
    have hfound := isLive_of_find? hfind
    have hlive (text : String) : (Record.mk text expires).isLive now = true := hfound
    rcases Nat.lt_or_eq_of_le hle with hlt | heq
    · rw [increment_of_lt hfind hlt, Nat.min_eq_left hlt]
      exact lookup_expire_self (find?_put_live s (hlive _)) seconds
    · rw [heq] at hfind ⊢
      rw [increment_of_highest hfind, Nat.min_eq_right (Nat.le_succ _)]
      exact lookup_expire_self hfind seconds

/-- Counting up leaves other keys alone, whether or not it succeeds. -/
theorem lookup_countUp_of_ne (s : Store) (now : Instant) (hne : other ≠ key) (seconds : Nat) :
    (s.countUp now key seconds).2.records.lookup other = s.records.lookup other := by
  unfold countUp
  split
  · rfl
  · split
    · next h =>
      obtain ⟨r, rfl⟩ := increment_eq_ok h
      exact (lookup_expire_of_ne hne seconds).trans (lookup_put_of_ne s hne r)
    · exact lookup_expire_of_ne hne seconds

theorem isDown_countUp (s : Store) (now : Instant) (key : String) (seconds : Nat) :
    (s.countUp now key seconds).2.isDown = s.isDown := by
  unfold countUp
  split
  · rfl
  · split
    · next h =>
      obtain ⟨r, rfl⟩ := increment_eq_ok h
      exact isDown_expire _ _ _ _
    · exact isDown_expire _ _ _ _

/-! ## Reading -/

theorem counts_map_eq_ok {α : Type} (hup : s.isDown = false) {keyOf : α → String}
    {count : α → Nat} {xs : List α} (h : ∀ x ∈ xs, s.Shows now (keyOf x) (count x))
    (hle : ∀ x ∈ xs, count x ≤ highestCount) :
    s.counts now (xs.map keyOf) = .ok (xs.map count) := by
  rw [counts, hup, if_neg Bool.false_ne_true, List.mapM_map]
  induction xs with
  | nil => rfl
  | cons x rest ih =>
    obtain ⟨hfirst, hrest⟩ := List.forall_mem_cons.mp h
    obtain ⟨hlefirst, hlerest⟩ := List.forall_mem_cons.mp hle
    rw [List.mapM_cons, ih hrest hlerest, List.map_cons]
    generalize count x = n at hfirst hlefirst
    cases n with
    | zero =>
      rw [Shows] at hfirst
      dsimp only [Function.comp_apply]
      rw [hfirst]
      rfl
    | succ n =>
      obtain ⟨expires, hfind⟩ := hfirst
      dsimp only [Function.comp_apply]
      rw [hfind]
      dsimp only
      rw [Text.word?_toString (Nat.le_trans hlefirst (by decide))]
      rfl

end Tollgate.Store
