import Tollgate.Proofs.Puzzle.Expiry
import Tollgate.Proofs.Verify.Calls

/-!
# The counter of one puzzle

In a run of presentations one puzzle is counted by a counter of its own, which
its first presentation makes. The counter is to outlive every instant at which
the puzzle is still accepted. It does, with one exception: a puzzle is accepted
up to and including its last instant, while a counter made at a whole second
ends exactly there.

Results:
1. `later_le_counterEnd`: where the end of a counter lies, beside a later
   instant at which the puzzle is still accepted.
2. `exists_countStep`: what one call does to the counter and to the counts.
3. `successesOf_of_live`, `successesOf_until`: a counter lets through as many
   presentations as its limit leaves; at its end the count starts anew.
-/

namespace Tollgate

/-! ## The end of a counter -/

namespace CountingLemmas

variable {p : Puzzle} {now first later : Timestamp}

theorem nanos_counterTtl (p : Puzzle) (now : Timestamp) : (Verifier.counterTtl p now).nanos =
    max 1 (min (p.remainingSeconds now + 5) 0xffffffffffffffff) * 1000000000 := by
  have hskew : clockSkew.toNat = 5 := rfl
  have hfits : max 1 (min (p.remainingSeconds now + 5) 0xffffffffffffffff) < 2 ^ 64 := by omega
  simp only [Verifier.counterTtl, Duration.ofSeconds, hskew]
  rw [Nat.toUInt64, UInt64.toNat_ofNat', Nat.mod_eq_of_lt hfits]

/-- A later point at which the puzzle is still accepted is not beyond the end of
a counter made at the first point. It is at that end only if the first point is
a whole second up to the expiry, and then it is the puzzle's last. -/
theorem later_le_counterEnd (hfirst : 0 ≤ first.nanos) (hle : first.nanos ≤ later.nanos)
    (hdate : later.seconds ≤ Timestamp.lastSecond)
    (hlater : p.isExpired later clockSkew = false) :
    later.nanos ≤ first.nanos + (Verifier.counterTtl p first).nanos ∧
      (later.nanos = first.nanos + (Verifier.counterTtl p first).nanos ↔
        first.subsecNanos = 0 ∧ first.seconds ≤ p.expiresAt.toNat ∧
          later.nanos = p.lastNanos) := by
  have hbound := Puzzle.nanos_le_lastNanos hdate hlater
  have hskew : clockSkew.toNat = 5 := rfl
  have hlast : Timestamp.lastSecond = 8210266876799 := rfl
  rw [nanos_counterTtl]
  simp only [Puzzle.lastNanos, Puzzle.remainingSeconds, Timestamp.seconds, Timestamp.subsecNanos,
    hskew] at *
  omega

end CountingLemmas

/-! ## Runs that count one puzzle -/

/-- What a run keeps to: the clock does not go back, there is room for the keys
of all presentations, and the counter of the puzzle `p` counts presentations of
`p` only, all under one limit. -/
structure Regular (key : PuzzleKey) (keys : List ReplayKey) (p : Puzzle) (limit : UInt32)
    (calls : List Call) : Prop where
  inOrder : calls.Pairwise fun earlier later => earlier.now.clock ≤ later.now.clock
  known : ∀ c ∈ calls, ∀ q, c.presentation? key = some q → q.key ∈ keys
  own : ∀ c ∈ calls, ∀ q, c.presentation? key = some q → q.key = p.replayKey →
    c.submission.puzzle = p ∧ q.limit = limit

theorem Regular.tail {key : PuzzleKey} {keys : List ReplayKey} {p : Puzzle} {limit : UInt32}
    {c : Call} {calls : List Call} (h : Regular key keys p limit (c :: calls)) :
    Regular key keys p limit calls :=
  ⟨(List.pairwise_cons.mp h.inOrder).2, fun _ hin => h.known _ (List.mem_cons_of_mem _ hin),
    fun _ hin => h.own _ (List.mem_cons_of_mem _ hin)⟩

/-- Where a run of a puzzle's count stands: what is to come is regular, and will be
answered by this counter. -/
structure Counting (v : Verifier) (l : ReplayLedger) (keys : List ReplayKey) (p : Puzzle)
    (limit : UInt32) (counter : Option Counter) (calls : List Call) : Prop where
  regular : Regular v.key keys p limit calls
  fits : l.Fits keys
  shown : ∀ c ∈ calls, l.Shows p.replayKey counter c.now.clock

/-- What one call does to the count of the puzzle, and to its counter: nothing,
or it is counted by the live counter, or it starts a new one. -/
inductive CountStep (v : Verifier) (l : ReplayLedger) (p : Puzzle) (limit : UInt32)
    (counter : Option Counter) (c : Call) (calls : List Call) : Option Counter → Prop
  | idle
      (hsuccesses : v.successesOf l p (c :: calls) =
        (v.perform l c).2.1.successesOf (v.perform l c).2.2 p calls)
      (hcounted : v.countedOf l p (c :: calls) =
        (v.perform l c).2.1.countedOf (v.perform l c).2.2 p calls) :
      CountStep v l p limit counter c calls counter
  | again {live : Counter} (hlive : counter = some live) (hin : c.now.clock < live.expires)
      (hsuccesses : v.successesOf l p (c :: calls) =
        (v.perform l c).2.1.successesOf (v.perform l c).2.2 p calls +
          if live.next.count ≤ limit.toNat then 1 else 0)
      (hcounted : v.countedOf l p (c :: calls) =
        c :: (v.perform l c).2.1.countedOf (v.perform l c).2.2 p calls) :
      CountStep v l p limit counter c calls (some live.next)
  | first {expires : Instant} (hnone : counter.filter (·.isLive c.now.clock) = none)
      (hend : expires = c.now.clock + (Verifier.counterTtl p c.now.wall).nanos)
      (hsuccesses : v.successesOf l p (c :: calls) =
        (v.perform l c).2.1.successesOf (v.perform l c).2.2 p calls +
          if 1 ≤ limit.toNat then 1 else 0)
      (hcounted : v.countedOf l p (c :: calls) =
        c :: (v.perform l c).2.1.countedOf (v.perform l c).2.2 p calls) :
      CountStep v l p limit counter c calls (some ⟨1, expires⟩)

namespace CountingLemmas

variable {v : Verifier} {keys : List ReplayKey} {l : ReplayLedger} {p : Puzzle} {limit : UInt32}
  {counter : Option Counter} {since : Instant} {c : Call} {calls : List Call}

/-- A counted call has presented the puzzle before it expired. -/
theorem mem_countedOf (h : c ∈ v.countedOf l p calls) :
    c ∈ calls ∧ p.isExpired c.now.wall clockSkew = false := by
  induction calls generalizing v l with
  | nil => cases h
  | cons head rest ih =>
    by_cases hcounted : head.submission.puzzle = p ∧
        Verifier.isCounted ((v.perform l head).1.toOption.map Verdict.outcome) = true
    · obtain ⟨hp, hout⟩ := hcounted
      rw [Verifier.countedOf_cons hp hout] at h
      rcases List.mem_cons.mp h with rfl | hrest
      · refine ⟨List.mem_cons_self, ?_⟩
        cases hq : c.presentation? v.key with
        | none => simp [(Verifier.perform_of_decided hq).1] at hout
        | some q =>
          have hpending := Verifier.presentation?_eq_some_iff.mp hq
          exact hp ▸ (Verifier.examine_eq_pending_iff.mp hpending).2.1
      · obtain ⟨hin, hrest⟩ := ih hrest
        exact ⟨List.mem_cons_of_mem _ hin, hrest⟩
    · have hsame := Verifier.counts_cons_of_not rest fun hp =>
        Bool.eq_false_iff.mpr fun hout => hcounted ⟨hp, hout⟩
      rw [hsame.2] at h
      obtain ⟨hin, hrest⟩ := ih h
      exact ⟨List.mem_cons_of_mem _ hin, hrest⟩

/-! ### One call -/

theorem key_of_presentation {q : Presentation} {key : PuzzleKey}
    (h : c.presentation? key = some q) : q.key = c.submission.puzzle.replayKey ∧
      q.ttl = Verifier.counterTtl c.submission.puzzle c.now.wall := by
  have hpending := Verifier.presentation?_eq_some_iff.mp h
  obtain ⟨-, -, -, -, rfl⟩ := Verifier.examine_eq_pending_iff.mp hpending
  exact ⟨rfl, rfl⟩

/-- A presentation of the puzzle, by the answer and the counter it leads to. -/
theorem counts_of_presented {q : Presentation} {accepted : Bool} {l' : ReplayLedger}
    (calls : List Call) (hq : c.presentation? v.key = some q) (hp : c.submission.puzzle = p)
    (hanswer : ReplayLedger.present c.now.clock q l = (.ok (.ok accepted), l')) :
    v.successesOf l p (c :: calls) =
        (v.perform l c).2.1.successesOf (v.perform l c).2.2 p calls +
          (if accepted then 1 else 0) ∧
      v.countedOf l p (c :: calls) =
        c :: (v.perform l c).2.1.countedOf (v.perform l c).2.2 p calls := by
  have hout := (Verifier.perform_of_presented (l := l) hq).1
  rw [hanswer] at hout
  refine ⟨?_, Verifier.countedOf_cons hp ?_⟩
  · rw [Verifier.successesOf_cons hp, hout]
    cases accepted <;> rfl
  · rw [hout]
    cases accepted <;> rfl

theorem exists_countStep_of_shows (hreg : Regular v.key keys p limit (c :: calls))
    (hfits : l.Fits keys) (hshows : l.Shows p.replayKey counter c.now.clock) :
    ∃ counter', CountStep v l p limit counter c calls counter' ∧ (v.perform l c).2.2.Fits keys ∧
      (v.perform l c).2.2.Shows p.replayKey counter' c.now.clock := by
  cases hq : c.presentation? v.key with
  | none =>
    obtain ⟨hout, -, hledger⟩ := Verifier.perform_of_decided (l := l) hq
    obtain ⟨hsuccesses, hcounted⟩ := Verifier.counts_cons_of_not calls fun _ => hout
    refine ⟨counter, .idle hsuccesses hcounted, ?_, ?_⟩
    · rwa [hledger]
    · rwa [hledger]
  | some q =>
    obtain ⟨hout, -, hledger⟩ := Verifier.perform_of_presented (l := l) hq
    obtain ⟨hkey, httl⟩ := key_of_presentation hq
    have hknown := hreg.known c List.mem_cons_self q hq
    have hfits' : (v.perform l c).2.2.Fits keys := hledger ▸ hfits.present hknown c.now.clock
    by_cases hown : q.key = p.replayKey
    · obtain ⟨hp, hlimit⟩ := hreg.own c List.mem_cons_self q hq hown
      have hnow := hshows c.now.clock (Int.le_refl _)
      rw [← hown] at hnow
      cases hlive : counter.filter (·.isLive c.now.clock) with
      | some live =>
        obtain ⟨hsome, hin⟩ := Option.filter_eq_some_iff.mp hlive
        have hpresent := ReplayLedger.present_of_live (hnow.trans hlive)
        obtain ⟨hsuccesses, hcounted⟩ := counts_of_presented calls hq hp hpresent
        refine ⟨some live.next, .again hsome (of_decide_eq_true hin) ?_ hcounted, hfits', ?_⟩
        · simpa [hlimit] using hsuccesses
        · intro t _
          rw [hledger, hpresent, ← hown, ReplayLedger.live?_put_self]
      | none =>
        cases hend : c.now.clock.after? q.ttl with
        | none =>
          -- The clock cannot show the end of the counter: the call crashes, uncounted.
          have hpresent := ReplayLedger.present_of_overflow (hnow.trans hlive) hend
          rw [hpresent] at hout hledger
          obtain ⟨hsuccesses, hcounted⟩ := Verifier.counts_cons_of_not (v := v) (l := l) (c := c)
            (p := p) calls fun _ => by rw [hout]; rfl
          refine ⟨counter, .idle hsuccesses hcounted, hfits', fun t ht => ?_⟩
          rw [hledger, ReplayLedger.live?_touch]
          exact hshows t ht
        | some expires =>
          have hpresent := ReplayLedger.present_of_fresh hfits hknown (hnow.trans hlive) hend
          obtain ⟨hsuccesses, hcounted⟩ := counts_of_presented calls hq hp hpresent
          refine ⟨some ⟨1, expires⟩, .first hlive ?_ ?_ hcounted, hfits', ?_⟩
          · rw [httl, hp] at hend
            simp only [Instant.after?] at hend
            split at hend
            · exact (Option.some.inj hend).symm
            · cases hend
          · simpa [hlimit] using hsuccesses
          · intro t _
            rw [hledger, hpresent, ← hown, ReplayLedger.live?_put_self]
    · -- Another puzzle's presentation leaves the counter as it is.
      have hother : c.submission.puzzle ≠ p := fun hp => hown (hp ▸ hkey)
      obtain ⟨hsuccesses, hcounted⟩ := Verifier.counts_cons_of_not (v := v) (l := l) (c := c)
        calls fun hp => absurd hp hother
      refine ⟨counter, .idle hsuccesses hcounted, hfits', fun t ht => ?_⟩
      rw [hledger, ReplayLedger.live?_present_of_ne hfits hknown (Ne.symm hown) ht]
      exact hshows t ht

/-- Every call of a run makes one of the steps. -/
theorem exists_countStep (h : Counting v l keys p limit counter (c :: calls)) :
    ∃ counter', CountStep v l p limit counter c calls counter' ∧
      Counting (v.perform l c).2.1 (v.perform l c).2.2 keys p limit counter' calls := by
  obtain ⟨hreg, hfits, hshown⟩ := h
  obtain ⟨hle, -⟩ := List.pairwise_cons.mp hreg.inOrder
  obtain ⟨counter', hstep, hfits', hshows'⟩ :=
    exists_countStep_of_shows hreg hfits (hshown c List.mem_cons_self)
  refine ⟨counter', hstep, ?_, hfits', fun c' hin => hshows'.later (hle c' hin)⟩
  rw [Verifier.key_perform]
  exact hreg.tail

/-! ### One counter -/

/-- How many presentations a limit lets through, one by one. -/
theorem min_succ_eq {L : Nat} (hlimit : L < Counter.limit) (n : Nat) (expires : Instant) :
    min L n + (if (Counter.next ⟨min n Counter.limit, expires⟩).count ≤ L then 1 else 0) =
      min L (n + 1) := by
  rw [Counter.next_min]
  split
  · next hle =>
    simp only at hle
    omega
  · next hgt =>
    simp only at hgt
    omega

/-- As long as it lives, a counter lets through what its limit leaves. -/
theorem successesOf_of_live {n : Nat} {expires : Instant} (hlimit : limit.toNat < Counter.limit)
    (h : Counting v l keys p limit (some ⟨min n Counter.limit, expires⟩) calls)
    (hlive : ∀ c ∈ v.countedOf l p calls, c.now.clock < expires) :
    v.successesOf l p calls + min limit.toNat n =
      min limit.toNat (n + (v.countedOf l p calls).length) := by
  induction calls generalizing v l n with
  | nil => simp [Verifier.successesOf, Verifier.countedOf]
  | cons c rest ih =>
    obtain ⟨counter', hstep, h'⟩ := exists_countStep h
    cases hstep with
    | idle hsuccesses hcounted =>
      rw [hcounted] at hlive
      rw [hsuccesses, hcounted]
      exact ih h' hlive
    | again hcounter hin hsuccesses hcounted =>
      cases hcounter
      rw [Counter.next_min] at h'
      rw [hcounted] at hlive
      have hrest := ih h' fun c' hin => hlive c' (List.mem_cons_of_mem _ hin)
      have hone := min_succ_eq hlimit n expires
      rw [hsuccesses, hcounted, List.length_cons]
      omega
    | first hnone hend hsuccesses hcounted =>
      -- A counter that is live at every counted call leaves none to start anew.
      have hin := hlive c (hcounted ▸ List.mem_cons_self)
      simp [Option.filter, Counter.isLive, hin] at hnone

theorem nanos_counterTtl_pos (p : Puzzle) (now : Timestamp) :
    0 < (Verifier.counterTtl p now).nanos := by
  rw [nanos_counterTtl]
  omega

/-- A counter's end is no part of its life: what comes at that instant starts a
count of its own. -/
theorem successesOf_until {n : Nat} {expires : Instant} (hlimit : limit.toNat < Counter.limit)
    (h : Counting v l keys p limit (some ⟨min n Counter.limit, expires⟩) calls)
    (huntil : ∀ c ∈ v.countedOf l p calls, c.now.clock ≤ expires) :
    v.successesOf l p calls + min limit.toNat n =
      min limit.toNat (n + (v.countedOf l p calls).countP fun c => c.now.clock < expires) +
        min limit.toNat ((v.countedOf l p calls).countP fun c => c.now.clock = expires) := by
  induction calls generalizing v l n with
  | nil => simp [Verifier.successesOf, Verifier.countedOf]
  | cons c rest ih =>
    obtain ⟨hle, -⟩ := List.pairwise_cons.mp h.regular.inOrder
    obtain ⟨counter', hstep, h'⟩ := exists_countStep h
    cases hstep with
    | idle hsuccesses hcounted =>
      rw [hcounted] at huntil
      rw [hsuccesses, hcounted]
      exact ih h' huntil
    | again hcounter hin hsuccesses hcounted =>
      cases hcounter
      rw [Counter.next_min] at h'
      rw [hcounted] at huntil
      have hrest := ih h' fun c' hin => huntil c' (List.mem_cons_of_mem _ hin)
      have hone := min_succ_eq hlimit n expires
      have hne : c.now.clock ≠ expires := Int.ne_of_lt hin
      rw [hsuccesses, hcounted, List.countP_cons_of_pos (by simpa using hin),
        List.countP_cons_of_neg (by simpa using hne)]
      omega
    | @first expires' hnone hend hsuccesses hcounted =>
      rw [hcounted] at huntil
      have hge : expires ≤ c.now.clock := by
        simpa [Option.filter, Counter.isLive] using hnone
      have hsame : c.now.clock = expires := Int.le_antisymm (huntil c List.mem_cons_self) hge
      have hafter : expires < expires' := by
        have hpos := nanos_counterTtl_pos p c.now.wall
        simp only [Instant] at *
        omega
      -- From here on the clock stands still: all others are counted by the second counter.
      have hstill : ∀ c' ∈ (v.perform l c).2.1.countedOf (v.perform l c).2.2 p rest,
          c'.now.clock = expires := fun c' hin =>
        Int.le_antisymm (huntil c' (List.mem_cons_of_mem _ hin))
          (hsame ▸ hle c' (mem_countedOf hin).1)
      have hrest := successesOf_of_live (n := 1) hlimit h' fun c' hin =>
        (hstill c' hin).symm ▸ hafter
      have hnever : ((v.perform l c).2.1.countedOf (v.perform l c).2.2 p rest).countP
          (fun c' => c'.now.clock < expires) = 0 :=
        List.countP_eq_zero.mpr fun c' hin => by simp [hstill c' hin]
      have hall := List.countP_eq_length.mpr fun c' hin => decide_eq_true (hstill c' hin)
      rw [hsuccesses, hcounted, List.countP_cons_of_neg (by simp [hsame]), hnever,
        List.countP_cons_of_pos (by simp [hsame]), hall]
      split <;> omega

end CountingLemmas

end Tollgate
