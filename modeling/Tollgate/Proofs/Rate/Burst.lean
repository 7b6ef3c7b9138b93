import Tollgate.Proofs.Checks
import Tollgate.Proofs.Rate.Polling
import Tollgate.Proofs.Rate.Waiting
import Tollgate.Rate.Interval

/-!
# Bursts

A new bucket holds a whole number of tokens and, where its capacity does not fit below the
cap on credit, a part of another one. Requests at the instant of its creation take the whole
tokens one by one, and are then denied. The part that is left counts for the next token.

Results:
1. `Limits.maxLevel_eq`: whole tokens and the rest of a full bucket.
2. `answers_holding`: what requests at one instant make of whole tokens and a rest.
3. `fst_tryConsume_rest_iff`: when there is a token again.
4. `burst_exact`: the burst of a new bucket, and the first token after it.
5. `exEons_short`: accepted limits whose capacity does not fit.
-/

namespace Tollgate.Rate

/-! ## Full buckets -/

namespace Limits

/-- How many tokens a full bucket holds: its capacity, or as many as fit below the cap on
credit. -/
def burst (l : Limits) : Nat :=
  min l.capacity.toNat (creditLimit / l.unit)

/-- What a full bucket holds beyond its whole tokens. -/
def spare (l : Limits) : Nat :=
  if l.capacity.toNat * l.unit ≤ creditLimit then 0 else creditLimit % l.unit

variable {l : Limits}

theorem burst_of_le (h : l.capacity.toNat * l.unit ≤ creditLimit) :
    l.burst = l.capacity.toNat :=
  Nat.min_eq_left ((Nat.le_div_iff_mul_le l.one_le_unit).mpr h)

theorem burst_of_lt (h : creditLimit < l.capacity.toNat * l.unit) :
    l.burst = creditLimit / l.unit :=
  Nat.min_eq_right (Nat.le_of_lt ((Nat.div_lt_iff_lt_mul l.one_le_unit).mpr h))

theorem spare_lt (l : Limits) : l.spare < l.unit := by
  unfold spare
  split
  · exact l.one_le_unit
  · exact Nat.mod_lt _ l.one_le_unit

theorem maxLevel_eq (l : Limits) : l.maxLevel = l.burst * l.unit + l.spare := by
  rcases Nat.lt_or_ge creditLimit (l.capacity.toNat * l.unit) with hlt | hle
  · rw [burst_of_lt hlt, spare, if_neg (Nat.not_le.mpr hlt), maxLevel,
      Nat.min_eq_right (Nat.le_of_lt hlt)]
    exact (Nat.div_add_mod' creditLimit l.unit).symm
  · rw [burst_of_le hle, spare, if_pos hle, maxLevel, Nat.min_eq_left hle, Nat.add_zero]

/-- An interval is its own unit if as much as one token of it fits below the cap. -/
theorem unit_eq (hpos : l.interval.nanos ≠ 0) (hle : l.interval.nanos ≤ creditLimit) :
    l.unit = l.interval.nanos := by
  rw [unit, Nat.min_eq_left hle, Nat.max_eq_right (Nat.pos_of_ne_zero hpos)]

end Limits

namespace Bucket

variable {l : Limits} {t u : Instant} {rest : Nat}

/-! ## Requests at one instant -/

/-- A bucket with so many tokens and a rest. -/
def holding (l : Limits) (tokens rest : Nat) (t : Instant) : Bucket :=
  ⟨l, tokens * l.unit + rest, t⟩

theorem full_eq_holding (l : Limits) (t : Instant) : full l t = holding l l.burst l.spare t := by
  rw [full, holding, Limits.maxLevel_eq]

theorem tryConsume_holding_succ (l : Limits) (tokens rest : Nat) (t : Instant) :
    (holding l (tokens + 1) rest t).tryConsume t = (true, holding l tokens rest t) := by
  have hrefill : (holding l (tokens + 1) rest t).refill t = holding l (tokens + 1) rest t :=
    refill_of_le (Int.le_refl t)
  have hlevel : (tokens + 1) * l.unit + rest = l.unit + (tokens * l.unit + rest) := by
    rw [Nat.succ_mul, Nat.add_right_comm, Nat.add_comm]
  simp only [tryConsume, hrefill]
  simp only [holding, hlevel, Nat.le_add_right, if_true, Nat.add_sub_cancel_left]

theorem tryConsume_holding_zero (h : rest < l.unit) (t : Instant) :
    (holding l 0 rest t).tryConsume t = (false, holding l 0 rest t) := by
  have hrefill : (holding l 0 rest t).refill t = holding l 0 rest t :=
    refill_of_le (Int.le_refl t)
  have hunit : ¬l.unit ≤ 0 * l.unit + rest := by
    rw [Nat.zero_mul, Nat.zero_add]
    exact Nat.not_le.mpr h
  simp only [tryConsume, hrefill]
  simp only [holding, hunit, if_false]

/-- The induction is on the requests. Each takes a token as long as there is one, and none
of them adds to the rest. -/
theorem answers_holding (h : rest < l.unit) (calls tokens : Nat) (t : Instant) :
    ((holding l tokens rest t).answers (List.replicate calls (.request t))).map Prod.fst =
        List.replicate (min calls tokens) true ++ List.replicate (calls - tokens) false ∧
      (holding l tokens rest t).visitAll (List.replicate calls (.request t)) =
        holding l (tokens - calls) rest t := by
  induction calls generalizing tokens with
  | zero =>
    rw [Nat.zero_min, Nat.zero_sub]
    exact ⟨rfl, rfl⟩
  | succ calls ih =>
    rw [List.replicate_succ, answers, visitAll, List.foldl_cons, List.map_cons, visit, ← visitAll]
    cases tokens with
    | zero =>
      obtain ⟨hanswers, hbucket⟩ := ih 0
      rw [tryConsume_holding_zero h, hanswers, hbucket]
      rw [Nat.min_zero, Nat.min_zero, Nat.zero_sub, Nat.zero_sub]
      exact ⟨rfl, rfl⟩
    | succ tokens =>
      obtain ⟨hanswers, hbucket⟩ := ih tokens
      rw [tryConsume_holding_succ, hanswers, hbucket, Nat.succ_min_succ, Nat.succ_sub_succ,
        Nat.succ_sub_succ]
      exact ⟨rfl, rfl⟩

/-- A rest is a token as soon as what is missing has been refilled. -/
theorem fst_tryConsume_rest_iff (hcapacity : l.capacity ≠ 0) (hrest : rest < l.unit)
    (hu : t ≤ u) :
    ((holding l 0 rest t).tryConsume u).1 = true ↔ t + (l.unit - rest : Nat) ≤ u := by
  have hmax : l.unit ≤ l.maxLevel := Limits.unit_le_maxLevel hcapacity
  have hlevel : (holding l 0 rest t).level = rest := by
    show 0 * l.unit + rest = rest
    rw [Nat.zero_mul, Nat.zero_add]
  have hceiling : (holding l 0 rest t).level ≤ l.maxLevel := by
    rw [hlevel]
    exact Nat.le_trans (Nat.le_of_lt hrest) hmax
  rw [fst_tryConsume_iff, level_refill hceiling, hlevel]
  show l.unit ≤ min (rest + (u - t).toNat) l.maxLevel ↔ _
  lia

/-! ## New buckets -/

/-- At the instant of its creation a bucket gives its burst and nothing more, however often
it is asked. The next token is there when its unit has been refilled, up to the part that was
left of the burst. If the capacity fits below the cap on credit, then it is the burst, a unit
is the interval, and nothing is left. -/
theorem burst_exact {capacity : UInt32} {seconds : Float} {limits : Limits}
    (h : Limits.ofSeconds capacity seconds = .ok limits) (t : Instant) :
    (∀ calls, ((full limits t).answers (List.replicate calls (.request t))).map Prod.fst =
      List.replicate (min calls limits.burst) true ++
        List.replicate (calls - limits.burst) false) ∧
    (capacity ≠ 0 → ∀ calls u, limits.burst ≤ calls → t ≤ u →
      ((((full limits t).visitAll (List.replicate calls (.request t))).tryConsume u).1 = true ↔
        t + (limits.unit - limits.spare : Nat) ≤ u)) ∧
    (capacity.toNat * limits.interval.nanos ≤ creditLimit →
      limits.burst = capacity.toNat ∧
        (capacity ≠ 0 → limits.unit - limits.spare = limits.interval.nanos)) := by
  obtain ⟨-, hpos, rfl⟩ := Limits.ofSeconds_eq_ok_iff.mp h
  rw [full_eq_holding]
  refine ⟨fun calls => (answers_holding limits.spare_lt calls limits.burst t).1,
    fun hcapacity calls u hcalls hu => ?_, fun hfits => ?_⟩
  · rw [(answers_holding limits.spare_lt calls limits.burst t).2, Nat.sub_eq_zero_of_le hcalls]
    exact fst_tryConsume_rest_iff hcapacity limits.spare_lt hu
  · by_cases hcapacity : limits.capacity = 0
    · refine ⟨Limits.burst_of_le ?_, fun hne => absurd hcapacity hne⟩
      rw [hcapacity, UInt32.toNat_zero, Nat.zero_mul]
      exact Nat.zero_le _
    · have hone : 0 < limits.capacity.toNat :=
        Nat.pos_of_ne_zero fun hzero => hcapacity (UInt32.toNat_inj.mp hzero)
      have hunit : limits.unit = limits.interval.nanos :=
        Limits.unit_eq hpos (Nat.le_trans (Nat.le_mul_of_pos_left _ hone) hfits)
      rw [← hunit] at hfits
      refine ⟨Limits.burst_of_le hfits, fun _ => ?_⟩
      rw [Limits.spare, if_pos hfits, Nat.sub_zero, hunit]

/-- Three tokens of seven billion seconds, of which two fit below the cap on credit. -/
def exAges : Limits :=
  ⟨3, .ofSeconds 7000000000⟩

theorem burst_exAges :
    ((full exAges 0).answers (List.replicate 4 (.request 0))).map Prod.fst =
      [true, true, false, false] ∧
    (((full exAges 0).visitAll (List.replicate 2 (.request 0))).tryConsume
      2553255926290448385).1 = true ∧
    ¬(((full exAges 0).visitAll (List.replicate 4 (.request 0))).tryConsume
      2553255926290448384).1 = true := by
  have haccepted : Limits.ofSeconds 3 7e9 = .ok exAges :=
    toOption_eq_some_iff.mp (by decide +kernel)
  obtain ⟨hburst, hnext, -⟩ := burst_exact haccepted 0
  have htwo := hnext (by decide) 2 2553255926290448385 (by decide) (by decide)
  have hfour := hnext (by decide) 4 2553255926290448384 (by decide) (by decide)
  exact ⟨hburst 4, htwo.mpr (by decide), fun hallowed => absurd (hfour.mp hallowed) (by decide)⟩

/-- Two tokens of twenty billion seconds each. A unit is shorter than that. -/
def exEons : Limits :=
  ⟨2, .ofSeconds 20000000000⟩

/-- Of accepted limits a new bucket may give fewer tokens than its capacity, and the next one
before the interval has passed. -/
theorem exEons_short :
    Limits.ofSeconds 2 2e10 = .ok exEons ∧
    ((full exEons 0).answers (List.replicate 3 (.request 0))).map Prod.fst =
      [true, false, false] ∧
    18446744073709551615 < exEons.interval.nanos ∧
    (((full exEons 0).visitAll (List.replicate 3 (.request 0))).tryConsume
      18446744073709551615).1 = true := by
  have haccepted : Limits.ofSeconds 2 2e10 = .ok exEons :=
    toOption_eq_some_iff.mp (by decide +kernel)
  exact ⟨haccepted, by decide, by decide, by decide⟩

end Bucket

end Tollgate.Rate
