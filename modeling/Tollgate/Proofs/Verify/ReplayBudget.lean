import Mathlib.Algebra.Group.Nat.Defs
import Tollgate.Proofs.Verify.Counting

/-!
# How often a puzzle succeeds

A policy tells how many presentations of a puzzle succeed. The verifier keeps to
it but for the very last instant of a puzzle: presentations then come when the
counter of the first has just ended, and start a second count.

Results:
1. `lateOf_cons`: the late calls of a puzzle are those at the end of its counter.
2. `successesOf_eq`: the number of successes in a run, and exactly when it stays
   within the policy.
3. `exDeadline_exceeds`: a puzzle for single use that succeeds twice.
4. `exShared_exceeds`: why puzzles of one owner need ids of their own.
-/

namespace Tollgate

open CountingLemmas

/-! ## Successes of a puzzle -/

/-- Calls of one process: time does not go back, both clocks advance together, and
the wall clock shows a date from 1970 on. -/
structure Steady (calls : List Call) : Prop where
  inOrder : calls.Pairwise fun earlier later => earlier.now.clock ≤ later.now.clock
  inStep : ∀ c ∈ calls, ∀ c' ∈ calls,
    c'.now.wall.nanos - c.now.wall.nanos = c'.now.clock - c.now.clock
  since1970 : ∀ c ∈ calls, 0 ≤ c.now.wall.nanos
  dated : ∀ c ∈ calls, c.now.wall.seconds ≤ Timestamp.lastSecond

theorem Steady.sublist {calls calls' : List Call} (h : Steady calls)
    (hsub : calls'.Sublist calls) : Steady calls' :=
  ⟨h.inOrder.sublist hsub,
    fun _ hin _ hin' => h.inStep _ (hsub.subset hin) _ (hsub.subset hin'),
    fun _ hin => h.since1970 _ (hsub.subset hin), fun _ hin => h.dated _ (hsub.subset hin)⟩

/-- The keys that some calls present to the ledger. -/
def presentedKeys (key : PuzzleKey) (calls : List Call) : List ReplayKey :=
  calls.filterMap fun c => (c.presentation? key).map (·.key)

/-- How many of the calls counted for a puzzle come when the counter of the first
has just ended. -/
def Puzzle.lateOf (p : Puzzle) : List Call → Nat
  | [] => 0
  | first :: later =>
    if first.now.wall.subsecNanos = 0 ∧ first.now.wall.seconds ≤ p.expiresAt.toNat then
      later.countP fun c => c.now.wall.nanos = p.lastNanos
    else 0

namespace ReplayBudgetLemmas

variable {v : Verifier} {keys : List ReplayKey} {l : ReplayLedger} {p : Puzzle} {limit : UInt32}
  {calls : List Call}

/-- The first call is not late itself. -/
theorem lateOf_lt_or_eq_zero (p : Puzzle) (calls : List Call) :
    p.lateOf calls < calls.length ∨ p.lateOf calls = 0 := by
  cases calls with
  | nil => exact .inr rfl
  | cons first later =>
    rw [Puzzle.lateOf]
    split
    · exact .inl (Nat.lt_succ_of_le List.countP_le_length)
    · exact .inr rfl

/-- The calls after the first are late exactly at the end of the first one's
counter, and none comes after that end. -/
theorem lateOf_cons {first : Call} {later : List Call} {expires : Instant}
    (hsteady : Steady (first :: later))
    (hend : expires = first.now.clock + (Verifier.counterTtl p first.now.wall).nanos)
    (hvalid : ∀ c ∈ later, p.isExpired c.now.wall clockSkew = false) :
    (∀ c ∈ later, c.now.clock ≤ expires) ∧
      p.lateOf (first :: later) = later.countP fun c => c.now.clock = expires := by
  have hlater : ∀ c ∈ later, c.now.clock ≤ expires ∧ (c.now.clock = expires ↔
      first.now.wall.subsecNanos = 0 ∧ first.now.wall.seconds ≤ p.expiresAt.toNat ∧
        c.now.wall.nanos = p.lastNanos) := by
    intro c hin
    have hle := (List.pairwise_cons.mp hsteady.inOrder).1 c hin
    have hstep := hsteady.inStep first List.mem_cons_self c (List.mem_cons_of_mem _ hin)
    have hfirst := hsteady.since1970 first List.mem_cons_self
    have hdate := hsteady.dated c (List.mem_cons_of_mem _ hin)
    obtain ⟨hbound, hiff⟩ := later_le_counterEnd (p := p) hfirst
      (by simp only [Instant] at *; omega) hdate (hvalid c hin)
    rw [← hiff, hend]
    simp only [Instant] at *
    omega
  refine ⟨fun c hin => (hlater c hin).1, ?_⟩
  rw [Puzzle.lateOf]
  split
  · next hwhole =>
    refine List.countP_congr fun c hin => ?_
    rw [decide_eq_true_iff, decide_eq_true_iff, (hlater c hin).2]
    exact ⟨fun hlast => ⟨hwhole.1, hwhole.2, hlast⟩, fun hall => hall.2.2⟩
  · next hwhole =>
    refine (List.countP_eq_zero.mpr fun c hin => ?_).symm
    rw [decide_eq_true_iff, (hlater c hin).2]
    exact fun hall => hwhole ⟨hall.1, hall.2.1⟩

theorem length_eq_add_of_until {expires : Instant} (h : ∀ c ∈ calls, c.now.clock ≤ expires) :
    calls.length = (calls.countP fun c => c.now.clock < expires) +
      calls.countP fun c => c.now.clock = expires := by
  rw [List.length_eq_countP_add_countP fun c : Call => c.now.clock < expires]
  congr 1
  refine List.countP_congr fun c hin => ?_
  have hle := h c hin
  simp only [decide_eq_true_iff, Instant] at *
  omega

/-- Without a counter yet, the first counted call makes the one that decides. -/
theorem successesOf_of_counting (hlimit : limit.toNat < Counter.limit) (hone : 1 ≤ limit.toNat)
    (h : Counting v l keys p limit none calls) (hsteady : Steady calls) :
    v.successesOf l p calls =
      min limit.toNat ((v.countedOf l p calls).length - p.lateOf (v.countedOf l p calls)) +
        min limit.toNat (p.lateOf (v.countedOf l p calls)) := by
  induction calls generalizing v l with
  | nil => simp [Verifier.successesOf, Verifier.countedOf, Puzzle.lateOf]
  | cons c rest ih =>
    obtain ⟨counter', hstep, h'⟩ := exists_countStep h
    cases hstep with
    | idle hsuccesses hcounted =>
      rw [hsuccesses, hcounted]
      exact ih h' (hsteady.sublist (List.sublist_cons_self c rest))
    | again hcounter => cases hcounter
    | @first expires hnone hend hsuccesses hcounted =>
      -- The counter made here decides all calls up to its end, where the late ones are.
      have hsub := Verifier.countedOf_sublist (v.perform l c).2.1 (v.perform l c).2.2 p rest
      have hsteady' := hsteady.sublist (hsub.cons_cons c)
      obtain ⟨huntil, hlate⟩ := lateOf_cons hsteady' hend fun c' hin => (mem_countedOf hin).2
      have hrest := successesOf_until (n := 1) hlimit h' huntil
      have hparts := length_eq_add_of_until huntil
      rw [hsuccesses, hcounted, hlate, List.length_cons]
      split <;> omega

/-- A new ledger has no counter of any puzzle. -/
theorem counting_new {capacity : Nat}
    (hinOrder : calls.Pairwise fun earlier later => earlier.now.clock ≤ later.now.clock)
    (hroom : (presentedKeys v.key calls).dedup.length ≤ capacity)
    (hown : ∀ c ∈ calls, ∀ q, c.presentation? v.key = some q → q.key = p.replayKey →
      c.submission.puzzle = p ∧ q.limit = limit) :
    Counting v (.new capacity) (presentedKeys v.key calls) p limit none calls where
  regular := by
    refine ⟨hinOrder, fun c hin q hq => ?_, hown⟩
    exact List.mem_filterMap.mpr ⟨c, hin, by rw [hq]; rfl⟩
  fits := ⟨List.nodup_nil, List.nil_subset _, Nat.le_trans hroom (Nat.le_max_right _ _)⟩
  shown := fun _ _ _ _ => rfl

end ReplayBudgetLemmas

open ReplayBudgetLemmas

theorem ReplayPolicy.one_le_allowedPresentations (policy : ReplayPolicy) :
    1 ≤ policy.allowedPresentations.toNat := by
  unfold allowedPresentations
  split
  · show 1 ≤ (if policy.maxReplayCount ≤ 1 then (1 : UInt32) else policy.maxReplayCount).toNat
    split
    · exact Nat.le_refl _
    · next hmore =>
      rw [UInt32.le_iff_toNat_le, UInt32.toNat_one] at hmore
      omega
  · exact Nat.le_refl _

/-- A puzzle succeeds as often as its policy allows, of the calls that are not
late, and once more as often of the late ones. So the policy is kept exactly if
no call is late or there are few calls at all. Its counter counts no other
puzzle as long as puzzles of one owner have ids of their own. -/
theorem Verifier.successesOf_eq (v : Verifier) (p : Puzzle) (policy : ReplayPolicy)
    (capacity : Nat) (calls : List Call) (hsteady : Steady calls)
    (hroom : (presentedKeys v.key calls).dedup.length ≤ capacity)
    (hpolicy : ∀ c ∈ calls, c.submission.puzzle = p → c.resource.policy = policy)
    (hids : ∀ c ∈ calls, c.presentation? v.key ≠ none →
      c.submission.puzzle.replayKey = p.replayKey → c.submission.puzzle = p)
    (hlimit : policy.allowedPresentations.toNat < 2 ^ 32 - 1) :
    v.successesOf (.new capacity) p calls =
        min policy.allowedPresentations.toNat ((v.countedOf (.new capacity) p calls).length -
          p.lateOf (v.countedOf (.new capacity) p calls)) +
        min policy.allowedPresentations.toNat (p.lateOf (v.countedOf (.new capacity) p calls)) ∧
      (v.successesOf (.new capacity) p calls ≤ policy.allowedPresentations.toNat ↔
        p.lateOf (v.countedOf (.new capacity) p calls) = 0 ∨
          (v.countedOf (.new capacity) p calls).length ≤ policy.allowedPresentations.toNat) := by
  have hone := policy.one_le_allowedPresentations
  have hown : ∀ c ∈ calls, ∀ q, c.presentation? v.key = some q → q.key = p.replayKey →
      c.submission.puzzle = p ∧ q.limit = policy.allowedPresentations := by
    intro c hin q hq hkey
    have hp := hids c hin (by simp [hq]) ((key_of_presentation hq).1 ▸ hkey)
    have hpending := presentation?_eq_some_iff.mp hq
    obtain ⟨-, -, -, -, rfl⟩ := examine_eq_pending_iff.mp hpending
    exact ⟨hp, by rw [hpolicy c hin hp]⟩
  have hcount := successesOf_of_counting hlimit hone
    (counting_new hsteady.inOrder hroom hown) hsteady
  have hlate := lateOf_lt_or_eq_zero p (v.countedOf (.new capacity) p calls)
  refine ⟨hcount, ?_⟩
  rw [hcount]
  omega

/-! ## Puzzles that succeed too often -/

namespace Verifier

variable {v : Verifier} {l : ReplayLedger} {policy : ReplayPolicy} {calls : List Call}

/-- What the call presents if it passes the other checks. -/
def presented (c : Call) : Presentation :=
  ⟨c.submission.puzzle.replayKey, c.resource.policy.allowedPresentations,
    counterTtl c.submission.puzzle c.now.wall⟩

/-- The outcomes of calls that all present their puzzle. -/
def outcomesOfPresented : ReplayLedger → List Call → List (Option Outcome)
  | _, [] => []
  | l, c :: rest =>
    outcomeOf (ReplayLedger.present c.now.clock (presented c) l).1 ::
      outcomesOfPresented (ReplayLedger.present c.now.clock (presented c) l).2 rest

theorem outcomes_eq_of_presented
    (h : ∀ c ∈ calls, c.presentation? v.key = some (presented c)) :
    v.outcomes l calls = outcomesOfPresented l calls := by
  induction calls generalizing v l with
  | nil => rfl
  | cons c rest ih =>
    obtain ⟨hout, hkey, hledger⟩ := perform_of_presented (l := l) (h c List.mem_cons_self)
    rw [outcomes, outcomesOfPresented, hout, hledger,
      ih fun c' hin => hkey ▸ h c' (List.mem_cons_of_mem _ hin)]

/-- A key of thirty-two bytes. -/
def exKey : PuzzleKey :=
  .ofSecret (List.replicate 32 7)

/-- A puzzle that any nonce solves, issued at the second 1000. -/
def exPuzzle (expiresAt : UInt64) : Puzzle :=
  ⟨7, .replicate 16 0xab, .lowest, 1, 1000, expiresAt, .replicate 16 0⟩

/-- Submits the puzzle at some second, with its token under the key. -/
def exCall (policy : ReplayPolicy) (expiresAt : UInt64) (second : Nat) : Call :=
  let body := Token.encodeBody (exPuzzle expiresAt)
  ⟨⟨exPuzzle expiresAt, body, exKey.sign body.toList, [0]⟩,
    { owner := .ok (exPuzzle expiresAt).owner, policy },
    ⟨second * 1000000000, .ofSeconds second⟩⟩

/-- Submits puzzles, told by their expiry, at some seconds. -/
def exRun (policy : ReplayPolicy) (visits : List (UInt64 × Nat)) : List Call :=
  visits.map fun visit => exCall policy visit.1 visit.2

variable {visits : List (UInt64 × Nat)}

theorem presentation?_exRun (h : ∀ visit ∈ visits,
    (exPuzzle visit.1).isExpired (.ofSeconds visit.2) clockSkew = false) :
    ∀ c ∈ exRun policy visits, c.presentation? exKey = some (presented c) := by
  intro c hin
  obtain ⟨visit, hvisit, rfl⟩ := List.mem_map.mp hin
  refine presentation?_eq_some_iff.mpr (examine_eq_pending_iff.mpr ?_)
  exact ⟨by simp [exCall, PuzzleKey.verify], h visit hvisit, rfl, rfl, rfl⟩

theorem policy_exRun : ∀ c ∈ exRun policy visits, c.resource.policy = policy := by
  intro c hin
  obtain ⟨visit, -, rfl⟩ := List.mem_map.mp hin
  rfl

theorem length_presentedKeys_exRun (policy : ReplayPolicy) (visits : List (UInt64 × Nat)) :
    (presentedKeys exKey (exRun policy visits)).dedup.length ≤ 1 := by
  have hsub : (presentedKeys exKey (exRun policy visits)).dedup ⊆ [⟨.replicate 16 0xab, 7⟩] := by
    intro key hin
    obtain ⟨c, hc, hkey⟩ := List.mem_filterMap.mp (List.mem_dedup.mp hin)
    obtain ⟨q, hq, rfl⟩ := Option.map_eq_some_iff.mp hkey
    obtain ⟨visit, -, rfl⟩ := List.mem_map.mp hc
    rw [(key_of_presentation hq).1]
    exact List.mem_singleton_self _
  exact ((List.nodup_dedup _).subperm hsub).length_le

/-- The second call comes in the last instant of the puzzle, when its counter has
just ended. -/
def exDeadline : List Call :=
  exRun .singleUse [(1300, 1000), (1300, 1305)]

theorem puzzle_exDeadline : ∀ c ∈ exDeadline, c.submission.puzzle = exPuzzle 1300 := by
  intro c hin
  simp only [exDeadline, exRun, List.map_cons, List.map_nil, List.mem_cons, List.not_mem_nil,
    or_false] at hin
  rcases hin with rfl | rfl <;> rfl

theorem steady_exDeadline : Steady exDeadline :=
  ⟨by decide, by decide, by decide, by decide⟩

theorem outcomes_exDeadline :
    (new exKey).outcomes (.new 4) exDeadline = [some .success, some .success] := by
  have hall : ∀ c ∈ exDeadline, c.presentation? exKey = some (presented c) :=
    presentation?_exRun (by decide)
  rw [outcomes_eq_of_presented (v := new exKey) hall]
  decide

theorem exDeadline_exceeds : Steady exDeadline ∧
    (presentedKeys exKey exDeadline).dedup.length ≤ 4 ∧
    (∀ c ∈ exDeadline, c.submission.puzzle = exPuzzle 1300) ∧
    (∀ c ∈ exDeadline, c.resource.policy = .singleUse) ∧
    ReplayPolicy.singleUse.allowedPresentations.toNat = 1 ∧
    (new exKey).successesOf (.new 4) (exPuzzle 1300) exDeadline = 2 := by
  refine ⟨steady_exDeadline, ?_, puzzle_exDeadline, policy_exRun, rfl, ?_⟩
  · exact Nat.le_trans (length_presentedKeys_exRun ..) (by decide)
  · rw [successesOf, outcomes_exDeadline]
    decide

/-- Both calls are counted, and the second is late. -/
theorem successesOf_exDeadline : (new exKey).countedOf (.new 4) (exPuzzle 1300) exDeadline =
      exDeadline ∧ (exPuzzle 1300).lateOf exDeadline = 1 ∧
    (new exKey).successesOf (.new 4) (exPuzzle 1300) exDeadline = min 1 (2 - 1) + min 1 1 ∧
      ((new exKey).successesOf (.new 4) (exPuzzle 1300) exDeadline ≤ 1 ↔ 1 = 0 ∨ 2 ≤ 1) := by
  have hcounted : (new exKey).countedOf (.new 4) (exPuzzle 1300) exDeadline = exDeadline := by
    rw [countedOf, outcomes_exDeadline]
    rfl
  have hlate : (exPuzzle 1300).lateOf exDeadline = 1 := by decide
  have h := successesOf_eq (new exKey) (exPuzzle 1300) .singleUse 4 exDeadline steady_exDeadline
    (Nat.le_trans (length_presentedKeys_exRun ..) (by decide))
    (fun c hin _ => policy_exRun c hin) (fun c hin _ _ => puzzle_exDeadline c hin) (by decide)
  rw [hcounted, hlate] at h
  exact ⟨hcounted, hlate, h⟩

/-- Two puzzles of one owner with the same id, each of which may be presented
twice. The counter that both share ends with the first of them. -/
def exShared : List Call :=
  exRun ⟨true, 2⟩ [(1100, 1000), (1300, 1001), (1300, 1200), (1300, 1201)]

theorem exShared_exceeds : Steady exShared ∧
    (presentedKeys exKey exShared).dedup.length ≤ 4 ∧
    (∀ c ∈ exShared, c.resource.policy = ⟨true, 2⟩) ∧
    (exPuzzle 1300).lateOf ((new exKey).countedOf (.new 4) (exPuzzle 1300) exShared) = 0 ∧
    (new exKey).successesOf (.new 4) (exPuzzle 1300) exShared = 3 := by
  have hall : ∀ c ∈ exShared, c.presentation? exKey = some (presented c) :=
    presentation?_exRun (by decide)
  have hout : (new exKey).outcomes (.new 4) exShared =
      [some .success, some .success, some .success, some .success] := by
    rw [outcomes_eq_of_presented (v := new exKey) hall]
    decide
  refine ⟨⟨by decide, by decide, by decide, by decide⟩, ?_, policy_exRun, ?_, ?_⟩
  · exact Nat.le_trans (length_presentedKeys_exRun ..) (by decide)
  · rw [countedOf, hout]
    decide
  · rw [successesOf, hout]
    decide

end Verifier

end Tollgate
