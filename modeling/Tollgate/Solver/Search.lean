import Tollgate.Puzzle.Submission
import Tollgate.Puzzle.Work

/-!
Searching all indices of a puzzle for solutions, each by itself and in any order.

A search looks at the nonces of an index in any order and may be told to stop at any time. It leaves out
the last nonce there is. Which solution of an index is found is left open; only a whole list, with one
nonce for each index in order, is a result. Going through the nonces one by one is one way to search.
-/

namespace Tollgate.Solver

/-- The last nonce that is tried. -/
def lastTried : UInt64 := 0xfffffffffffffffe

/-- What a look at a nonce finds: that the search is to stop, that the nonce solves the index, or nothing.
`raised` is what the stop flag shows at that moment. -/
def look (w : Work) (index : UInt8) (raised : Bool) (nonce : UInt64) : Option (Option UInt64) :=
  if raised then some none
  else if w.isSolution index nonce then some (some nonce)
  else none

/-- Where a search through all nonces may end: with anything that a look has found, and with nothing only
if no look has found anything. -/
inductive EndsWith (looks : UInt64 → Option (Option UInt64)) : Option (Option UInt64) → Prop
  | found {nonce : UInt64} {what : Option UInt64} :
      nonce ≤ lastTried → looks nonce = some what → EndsWith looks (some what)
  | nothing : (∀ nonce ≤ lastTried, looks nonce = none) → EndsWith looks none

/-- The nonces that searches of all indices may end with. `flag` is what the stop flag shows when a nonce
of an index is looked at. -/
def Searched (w : Work) (solutions : UInt8) (flag : UInt8 → UInt64 → Bool)
    (nonceOf : UInt8 → Option UInt64) : Prop :=
  ∀ index < solutions, ∃ ending,
    EndsWith (fun nonce => look w index (flag index nonce) nonce) ending ∧
      nonceOf index = ending.join

/-- The nonces of all indices in order, if one was found for each. -/
def assemble (solutions : UInt8) (found : UInt8 → Option UInt64) : Option (List UInt64) :=
  (List.range solutions.toNat).mapM fun index => found index.toUInt8

/-- Tries the nonces up to `last` one by one. -/
def search (w : Work) (solutions : UInt8) (last : UInt64) : Option (List UInt64) :=
  assemble solutions fun index => w.solveUpTo index last 0

/-- How many nonces it takes to find these one by one. -/
def attempts (nonces : List UInt64) : Nat :=
  nonces.foldr (fun nonce tried => nonce.toNat + 1 + tried) 0

/-- How many hashes it takes on average to solve a puzzle, counted in 64 bits. -/
def expectedAttempts (p : Puzzle) : UInt64 :=
  (min (Nat.pow 2 p.difficulty.bits.toNat * p.solutions.toNat) 0xffffffffffffffff).toUInt64

/-- A nonce that is not the last one has a next one. -/
theorem toNat_add_one {nonce last : UInt64} (before : nonce < last) :
    (nonce + 1).toNat = nonce.toNat + 1 := by
  have bound := last.toNat_lt
  have below : nonce.toNat < last.toNat := UInt64.lt_iff_toNat_lt.1 before
  rw [UInt64.toNat_add, UInt64.toNat_one, Nat.mod_eq_of_lt (by omega)]

theorem solveUpTo_some {w : Work} {index : UInt8} {last start nonce : UInt64}
    (found : w.solveUpTo index last start = some nonce) :
    start ≤ nonce ∧ (nonce ≤ last ∨ nonce = start) ∧ w.isSolution index nonce := by
  fun_induction Work.solveUpTo w index last start with
  | case1 start solved =>
    cases found
    exact ⟨UInt64.le_refl _, .inr rfl, solved⟩
  | case2 start unsolved before ih =>
    obtain ⟨after, within, solved⟩ := ih found
    have below : start.toNat < last.toNat := UInt64.lt_iff_toNat_lt.1 before
    have next := toNat_add_one before
    have late : start.toNat + 1 ≤ nonce.toNat := next ▸ UInt64.le_iff_toNat_le.1 after
    refine ⟨UInt64.le_iff_toNat_le.2 (by omega), .inl ?_, solved⟩
    rcases within with below | rfl
    · exact below
    · exact UInt64.le_iff_toNat_le.2 (by omega)
  | case3 start unsolved atEnd => cases found

theorem solveUpTo_none {w : Work} {index : UInt8} {last start : UInt64}
    (found : w.solveUpTo index last start = none) :
    ∀ nonce, start ≤ nonce → nonce ≤ last → w.isSolution index nonce = false := by
  fun_induction Work.solveUpTo w index last start with
  | case1 start solved => cases found
  | case2 start unsolved before ih =>
    intro nonce after within
    have next := toNat_add_one before
    by_cases same : nonce = start
    · simpa [same] using unsolved
    · refine ih found nonce (UInt64.le_iff_toNat_le.2 ?_) within
      have different : nonce.toNat ≠ start.toNat := fun equal => same (UInt64.toNat_inj.1 equal)
      have atLeast := UInt64.le_iff_toNat_le.1 after
      omega
  | case3 start unsolved atEnd =>
    intro nonce after within
    have atLeast := UInt64.le_iff_toNat_le.1 after
    have atMost := UInt64.le_iff_toNat_le.1 within
    have notBefore : last.toNat ≤ start.toNat :=
      Nat.not_lt.1 fun below => atEnd (UInt64.lt_iff_toNat_lt.2 below)
    have same : nonce = start := UInt64.toNat_inj.1 (by omega)
    simpa [same] using unsolved

end Tollgate.Solver
