import Mathlib.Order.Bounds.Defs
import Tollgate.Proofs.Solver.Parallel

/-!
# Least solutions

Going through the nonces of an index one by one ends at its first solution, or at the last
nonce there is. The list for a puzzle has the first solutions of all indices that have one,
and so moves up what comes after an index that has none. Then it is too short to be accepted,
wherever its nonces would fit. Nothing is known here about the hash of an index and a nonce.

Results:
1. `unsolved_of_lt`: what is passed over is no solution.
2. `solveOne_eq_some_iff`, `solveOne_eq_none_iff`: the search of one index.
3. `assemble_solve`: a list that is long enough has its nonces in their places.
4. `accepts_solve_iff`: when the list is accepted.
5. `solve_least`: all of it.
-/

namespace Tollgate.Work

variable {w : Work} {solutions index : UInt8} {start nonce last : UInt64}

/-! ## One index -/

theorem le_lastNonce (nonce : UInt64) : nonce ≤ lastNonce :=
  UInt64.le_iff_toNat_le.mpr (Nat.le_of_lt_succ nonce.toNat_lt)

theorem add_one_le_of_lt (h : start < nonce) : start + 1 ≤ nonce := by
  rw [UInt64.le_iff_toNat_le, Solver.toNat_add_one h]
  exact UInt64.lt_iff_toNat_lt.mp h

/-- The induction is on the search, which goes on from each nonce that is no solution to the
next one. -/
theorem unsolved_of_lt (h : w.solveUpTo index last start = some nonce) :
    ∀ n, start ≤ n → n < nonce → w.isSolution index n = false := by
  fun_induction Work.solveUpTo w index last start with
  | case1 start hsolved =>
    obtain rfl := Option.some.inj h
    exact fun n hfrom hbefore => absurd hfrom (UInt64.not_le.mpr hbefore)
  | case2 start hunsolved _ ih =>
    intro n hfrom hbefore
    rcases UInt64.lt_or_eq_of_le hfrom with hlt | rfl
    · exact ih h n (add_one_le_of_lt hlt) hbefore
    · exact Bool.of_not_eq_true hunsolved
  | case3 => cases h

theorem solveOne_eq_none_iff :
    w.solveOne index start = none ↔ ∀ n, start ≤ n → w.isSolution index n = false := by
  constructor
  · exact fun h n hfrom => Solver.solveUpTo_none h n hfrom (le_lastNonce n)
  · intro h
    cases hfound : w.solveOne index start with
    | none => rfl
    | some nonce =>
      obtain ⟨hfrom, -, hsolved⟩ := Solver.solveUpTo_some hfound
      rw [h nonce hfrom] at hsolved
      cases hsolved

theorem solveOne_eq_some_iff :
    w.solveOne index start = some nonce ↔
      IsLeast {n | start ≤ n ∧ w.isSolution index n = true} nonce := by
  have hleast : ∀ found, w.solveOne index start = some found →
      IsLeast {n | start ≤ n ∧ w.isSolution index n = true} found := by
    intro found hfound
    obtain ⟨hfrom, -, hsolved⟩ := Solver.solveUpTo_some hfound
    refine ⟨⟨hfrom, hsolved⟩, fun n hn => UInt64.not_lt.mp fun hlt => ?_⟩
    exact Bool.false_ne_true ((unsolved_of_lt hfound n hn.1 hlt).symm.trans hn.2)
  refine ⟨hleast nonce, fun h => ?_⟩
  cases hfound : w.solveOne index start with
  | none =>
    have hunsolved := solveOne_eq_none_iff.mp hfound nonce h.1.1
    exact absurd (hunsolved.symm.trans h.1.2) Bool.false_ne_true
  | some found =>
    have hother := hleast found hfound
    exact congrArg some (UInt64.le_antisymm (hother.2 h.1) (h.2 hother.1))

theorem isSome_solveOne_iff :
    (w.solveOne index 0).isSome = true ↔ ∃ n, w.isSolution index n = true := by
  rw [← Option.ne_none_iff_isSome, Ne, solveOne_eq_none_iff]
  simp [UInt64.zero_le]

/-! ## All indices -/

/-- If nothing is left out, then nothing moves up. -/
theorem map_eq_of_length_filterMap {α β : Type} {f : α → Option β} {xs : List α}
    (h : (xs.filterMap f).length = xs.length) : xs.map f = (xs.filterMap f).map some := by
  induction xs with
  | nil => rfl
  | cons x rest ih =>
    cases hx : f x with
    | none =>
      have hle := List.length_filterMap_le f rest
      rw [List.filterMap_cons_none hx, List.length_cons] at h
      omega
    | some y =>
      rw [List.filterMap_cons_some hx] at h ⊢
      rw [List.map_cons, List.map_cons, hx, ih (Nat.succ.inj h)]

theorem length_solve_iff :
    (w.solve solutions).length = solutions.toNat ↔
      ∀ index < solutions, ∃ n, w.isSolution index n = true := by
  have hall := List.filterMap_length_eq_length (f := fun i : Nat => w.solveOne i.toUInt8 0)
    (l := List.range solutions.toNat)
  rw [List.length_range] at hall
  rw [solve, hall]
  constructor
  · intro h index hindex
    have hsome := h index.toNat (List.mem_range.mpr (UInt8.lt_iff_toNat_lt.mp hindex))
    rw [Nat.toUInt8, UInt8.ofNat_toNat] at hsome
    exact isSome_solveOne_iff.mp hsome
  · intro h i hi
    exact isSome_solveOne_iff.mpr (h i.toUInt8 (Solver.toUInt8_lt (List.mem_range.mp hi)))

/-- A list that is long enough has a nonce for each index, in its place. -/
theorem assemble_solve (h : (w.solve solutions).length = solutions.toNat) :
    Solver.assemble solutions (w.solveOne · 0) = some (w.solve solutions) :=
  Solver.mapM_eq_some_iff.mpr
    (map_eq_of_length_filterMap (h.trans List.length_range.symm))

theorem solveOne_of_length (h : (w.solve solutions).length = solutions.toNat) {i : Nat}
    (hi : i < (w.solve solutions).length) :
    w.solveOne i.toUInt8 0 = some (w.solve solutions)[i] :=
  (Solver.assemble_eq_some_iff.mp (assemble_solve h)).2 i hi

theorem accepts_solve_iff_length :
    w.accepts solutions (w.solve solutions) = true ↔
      (w.solve solutions).length = solutions.toNat := by
  rw [accepts, Bool.and_eq_true, beq_iff_eq, solvesFrom_iff, and_iff_left_iff_imp]
  intro h i hi
  rw [Nat.zero_add]
  exact (Solver.solveUpTo_some (solveOne_of_length h hi)).2.2

theorem accepts_solve_iff :
    w.accepts solutions (w.solve solutions) = true ↔
      ∀ index < solutions, ∃ n, w.isSolution index n = true :=
  accepts_solve_iff_length.trans length_solve_iff

/-- Whatever the hash is: the search of an index ends with its least solution from the start
on, the last nonce included, and with none only if there is none. The list of a puzzle is
accepted exactly if all indices have a solution. Then it has the least solution of each, in
order. -/
theorem solve_least (w : Work) (solutions : UInt8) :
    (∀ index start nonce, w.solveOne index start = some nonce ↔
      IsLeast {n | start ≤ n ∧ w.isSolution index n = true} nonce) ∧
    (∀ index start, w.solveOne index start = none ↔
      ∀ n, start ≤ n → w.isSolution index n = false) ∧
    (w.accepts solutions (w.solve solutions) = true ↔
      ∀ index < solutions, ∃ n, w.isSolution index n = true) ∧
    (w.accepts solutions (w.solve solutions) = true →
      (w.solve solutions).length = solutions.toNat ∧
      ∀ i (hi : i < (w.solve solutions).length),
        IsLeast {n | w.isSolution i.toUInt8 n = true} (w.solve solutions)[i]) ∧
    ∀ p : Puzzle, p.isSolvedBy p.solve = true ↔
      ∀ index < p.solutions, ∃ n, (ofPuzzle p).isSolution index n = true := by
  refine ⟨fun _ _ _ => solveOne_eq_some_iff, fun _ _ => solveOne_eq_none_iff, accepts_solve_iff,
    fun haccepted => ?_, fun _ => accepts_solve_iff⟩
  have hlen := accepts_solve_iff_length.mp haccepted
  refine ⟨hlen, fun i hi => ?_⟩
  have hfound := solveOne_eq_some_iff.mp (solveOne_of_length hlen hi)
  exact ⟨hfound.1.2, fun n hn => hfound.2 ⟨UInt64.zero_le, hn⟩⟩

/-- The first index is solved by the last nonce there is, the second one by 3 and by 7, and
no other index by any. -/
def exWork : Work where
  hash index nonce :=
    if (index = 0 ∧ nonce = lastNonce) ∨ (index = 1 ∧ (nonce = 3 ∨ nonce = 7)) then [0] else [255]
  difficulty := 8

theorem isSolution_exWork :
    exWork.isSolution index nonce = true ↔
      (index = 0 ∧ nonce = lastNonce) ∨ (index = 1 ∧ (nonce = 3 ∨ nonce = 7)) := by
  rw [isSolution, exWork]
  dsimp only
  split
  · next h => exact iff_of_true rfl h
  · next h => exact iff_of_false (by decide) h

theorem solve_exWork :
    exWork.solveOne 0 5 = some lastNonce ∧
    exWork.solveOne 1 8 = none ∧
    exWork.accepts 2 (exWork.solve 2) = true ∧
    (exWork.solve 2)[1]? = some 3 ∧
    ¬exWork.accepts 3 (exWork.solve 3) = true := by
  obtain ⟨hsome, hnone, htwo, hleast, -⟩ := solve_least exWork 2
  obtain ⟨-, -, hthree, -⟩ := solve_least exWork 3
  have haccepted : exWork.accepts 2 (exWork.solve 2) = true := by
    refine htwo.mpr fun index hindex => ?_
    by_cases hzero : index = 0
    · exact ⟨lastNonce, isSolution_exWork.mpr (.inl ⟨hzero, rfl⟩)⟩
    · have hone : index = 1 := by
        rw [← UInt8.toNat_inj] at hzero ⊢
        rw [UInt8.lt_iff_toNat_lt] at hindex
        have : index.toNat ≠ 0 := hzero
        have : index.toNat < 2 := hindex
        show index.toNat = 1
        omega
      exact ⟨3, isSolution_exWork.mpr (.inr ⟨hone, .inl rfl⟩)⟩
  obtain ⟨hlen, hplaces⟩ := hleast haccepted
  have hfound : (exWork.solve 2)[1]? = some 3 := by
    have hi : 1 < (exWork.solve 2).length := hlen ▸ by decide
    obtain ⟨hsolved, hlower⟩ := hplaces 1 hi
    have hbound := hlower (isSolution_exWork.mpr (.inr ⟨rfl, .inl rfl⟩))
    rw [List.getElem?_eq_getElem hi]
    rcases isSolution_exWork.mp hsolved with ⟨hzero, -⟩ | ⟨-, heq | heq⟩
    · cases hzero
    · exact congrArg some heq
    · exact absurd (heq ▸ hbound) (by decide)
  refine ⟨(hsome 0 5 lastNonce).mpr ⟨⟨by decide, isSolution_exWork.mpr (.inl ⟨rfl, rfl⟩)⟩, ?_⟩,
    (hnone 1 8).mpr fun n hn => ?_, haccepted, hfound, fun h => ?_⟩
  · rintro n ⟨-, hn⟩
    rcases isSolution_exWork.mp hn with ⟨-, rfl⟩ | ⟨hone, -⟩
    · exact UInt64.le_refl _
    · cases hone
  · refine Bool.of_not_eq_true fun hsolved => ?_
    rcases isSolution_exWork.mp hsolved with ⟨hzero, -⟩ | ⟨-, rfl | rfl⟩
    · cases hzero
    · exact absurd hn (by decide)
    · exact absurd hn (by decide)
  · obtain ⟨n, hn⟩ := hthree.mp h 2 (by decide)
    rcases isSolution_exWork.mp hn with ⟨hzero, -⟩ | ⟨hone, -⟩
    · cases hzero
    · cases hone

end Tollgate.Work
