import Mathlib.Order.Bounds.Defs
import Tollgate.Proofs.Rate.Credit
import Tollgate.Proofs.Words

/-!
# Buckets in machine words

The credit of a bucket is a natural number, and is capped only where that is a rule of the
bucket. A machine keeps it in a word of 64 bits, and has 128 for lengths of time and for
the product that converts credit to other limits. This module does all calls of a bucket in
such words. Where a rule caps a number, the largest word stands for what does not fit. Every
other sum, difference, product and quotient is checked, and without its result there is no
bucket. It turns out that there always is one, after any calls and in any order of their
instants, and that it shows the numbers it stands for.

Results:
1. `refill?_ofBucket`, `tryConsume?_ofBucket`, `updateLimits?_ofBucket`: one call in words.
2. `limits_callAll`, `isGreatest_lastRefill_callAll`: the limits and the instant that calls
   leave.
3. `callAll?_ofBucket`: any calls in words.
4. `representation_kept`: what is true of a bucket after any calls.
-/

namespace Tollgate

open Words

/-! ## Lengths of time -/

/-- Seconds of the monotonic clock are signed numbers of 64 bits. -/
def Instant.Shown (t : Instant) : Prop :=
  -Instant.lastSecond - 1 ≤ t / 1000000000 ∧ t / 1000000000 ≤ Instant.lastSecond

instance (t : Instant) : Decidable t.Shown :=
  inferInstanceAs (Decidable (_ ∧ _))

/-- The length of time from an earlier instant to this one, if it is one. -/
def Instant.lengthSince? (now earlier : Instant) : Option Duration :=
  if h : now.since earlier ≤ Duration.limit then some ⟨now.since earlier, h⟩ else none

/-- Its nanoseconds, of the whole seconds and of what is beyond them. -/
def Duration.nanosWord? (d : Duration) : Option (BitVec 128) := do
  let whole ← mul? (BitVec.ofNat 128 d.seconds) 1000000000#128
  add? whole (BitVec.ofNat 128 d.subsecNanos)

theorem Instant.lengthSince?_eq {now earlier : Instant} (hnow : now.Shown)
    (hearlier : earlier.Shown) :
    ∃ d, now.lengthSince? earlier = some d ∧ d.nanos = now.since earlier := by
  have hfits : now.since earlier ≤ Duration.limit := by
    simp only [Shown, lastSecond] at hnow hearlier
    simp only [since, Duration.limit]
    lia
  exact ⟨⟨_, hfits⟩, dif_pos hfits, rfl⟩

theorem Duration.nanos_lt (d : Duration) : d.nanos < 2 ^ 128 :=
  Nat.lt_of_le_of_lt d.nanos_le (by decide)

theorem Duration.nanosWord?_eq (d : Duration) :
    d.nanosWord? = some (BitVec.ofNat 128 d.nanos) := by
  have hseconds := d.seconds_lt
  have hnanos := d.nanos_lt
  have hsum : d.seconds * 1000000000 + d.subsecNanos = d.nanos := Nat.div_add_mod' _ _
  rw [nanosWord?, mul?_ofNat (by omega) (by decide), if_pos (by omega), Option.bind_eq_bind,
    Option.bind_some, add?_ofNat (by omega) (by omega), hsum, if_pos hnanos]

namespace Rate

/-! ## Limits -/

namespace Limits

def unitWord? (l : Limits) : Option (BitVec 64) := do
  let nanos ← l.interval.nanosWord?
  return greatest 1#64 (saturated (narrow? nanos))

def maxLevelWord? (l : Limits) : Option (BitVec 64) := do
  let unit ← l.unitWord?
  return saturated (mul? (BitVec.ofNat 64 l.capacity.toNat) unit)

theorem unit_lt (l : Limits) : l.unit < 2 ^ 64 :=
  Nat.lt_of_le_of_lt l.unit_le (by decide)

theorem maxLevel_lt (l : Limits) : l.maxLevel < 2 ^ 64 :=
  Nat.lt_of_le_of_lt (Nat.min_le_right _ _) (by decide)

theorem unitWord?_eq (l : Limits) : l.unitWord? = some (BitVec.ofNat 64 l.unit) := by
  have hcapped : min l.interval.nanos (2 ^ 64 - 1) < 2 ^ 64 :=
    Nat.lt_of_le_of_lt (Nat.min_le_right _ _) (by decide)
  rw [unitWord?, Duration.nanosWord?_eq, Option.bind_eq_bind, Option.bind_some,
    saturated_narrow?_ofNat l.interval.nanos_lt, greatest_ofNat (by decide) hcapped]
  rfl

theorem maxLevelWord?_eq (l : Limits) :
    l.maxLevelWord? = some (BitVec.ofNat 64 l.maxLevel) := by
  have hcapacity : l.capacity.toNat < 2 ^ 64 := Nat.lt_trans l.capacity.toNat_lt (by decide)
  rw [maxLevelWord?, unitWord?_eq, Option.bind_eq_bind, Option.bind_some,
    saturated_mul?_ofNat hcapacity l.unit_lt]
  rfl

end Limits

/-! ## Calls in words -/

/-- The credit of one caller, in a word. -/
structure WordBucket where
  limits : Limits
  level : BitVec 64
  lastRefill : Instant
deriving DecidableEq

namespace WordBucket

def toBucket (w : WordBucket) : Bucket :=
  ⟨w.limits, w.level.toNat, w.lastRefill⟩

def ofBucket (b : Bucket) : WordBucket :=
  ⟨b.limits, BitVec.ofNat 64 b.level, b.lastRefill⟩

def full? (limits : Limits) (now : Instant) : Option WordBucket := do
  let level ← limits.maxLevelWord?
  return ⟨limits, level, now⟩

def refill? (w : WordBucket) (now : Instant) : Option WordBucket :=
  if now ≤ w.lastRefill then some w
  else do
    let length ← now.lengthSince? w.lastRefill
    let elapsed ← length.nanosWord?
    let maxLevel ← w.limits.maxLevelWord?
    let raised := saturated (add? w.level (saturated (narrow? elapsed)))
    return { w with level := least raised maxLevel, lastRefill := now }

def tryConsume? (w : WordBucket) (now : Instant) : Option (Bool × WordBucket) := do
  let w ← w.refill? now
  let unit ← w.limits.unitWord?
  if unit ≤ w.level then
    let level ← sub? w.level unit
    return (true, { w with level })
  else
    return (false, w)

def updateLimits? (w : WordBucket) (limits : Limits) : Option WordBucket := do
  let oldUnit ← w.limits.unitWord?
  let newUnit ← limits.unitWord?
  let product ← mul? (widen w.level) (widen newUnit)
  let rescaled ← div? product (widen oldUnit)
  let maxLevel ← limits.maxLevelWord?
  return { w with limits, level := least (saturated (narrow? rescaled)) maxLevel }

def call? (w : WordBucket) : Bucket.Call → Option WordBucket
  | .refill now => w.refill? now
  | .tryConsume now => (w.tryConsume? now).map Prod.snd
  | .updateLimits limits => w.updateLimits? limits

def callAll? (w : WordBucket) (calls : List Bucket.Call) : Option WordBucket :=
  calls.foldlM call? w

variable {b : Bucket} {now : Instant}

theorem level_lt (h : b.level ≤ b.limits.maxLevel) : b.level < 2 ^ 64 :=
  Nat.lt_of_le_of_lt h b.limits.maxLevel_lt

theorem toBucket_ofBucket (h : b.level ≤ b.limits.maxLevel) : (ofBucket b).toBucket = b := by
  simp only [toBucket, ofBucket, toNat_ofNat_of_lt (level_lt h)]

theorem full?_eq (limits : Limits) (now : Instant) :
    full? limits now = some (ofBucket (.full limits now)) := by
  rw [full?, Limits.maxLevelWord?_eq]
  rfl

theorem refill?_ofBucket (h : b.level ≤ b.limits.maxLevel) (hlast : b.lastRefill.Shown)
    (hnow : now.Shown) : (ofBucket b).refill? now = some (ofBucket (b.refill now)) := by
  by_cases hle : now ≤ b.lastRefill
  · rw [Bucket.refill_of_le hle]
    exact if_pos hle
  · -- Instants that the clock can show are never further apart than the longest length of time.
    obtain ⟨d, hd, hnanos⟩ := Instant.lengthSince?_eq hnow hlast
    have helapsed : min d.nanos (2 ^ 64 - 1) < 2 ^ 64 :=
      Nat.lt_of_le_of_lt (Nat.min_le_right _ _) (by decide)
    have hraised : min (b.level + min d.nanos (2 ^ 64 - 1)) (2 ^ 64 - 1) < 2 ^ 64 :=
      Nat.lt_of_le_of_lt (Nat.min_le_right _ _) (by decide)
    have hword : (ofBucket b).refill? now = some ⟨b.limits, BitVec.ofNat 64
        (min (min (b.level + min d.nanos (2 ^ 64 - 1)) (2 ^ 64 - 1)) b.limits.maxLevel), now⟩ := by
      simp only [refill?, ofBucket, if_neg hle, hd, Duration.nanosWord?_eq,
        Limits.maxLevelWord?_eq, Option.bind_eq_bind, Option.bind_some,
        saturated_narrow?_ofNat d.nanos_lt, saturated_add?_ofNat (level_lt h) helapsed,
        least_ofNat hraised b.limits.maxLevel_lt]
      rfl
    rw [hword, hnanos, Bucket.refill, if_neg hle]
    rfl

theorem tryConsume?_ofBucket (h : b.level ≤ b.limits.maxLevel) (hlast : b.lastRefill.Shown)
    (hnow : now.Shown) :
    (ofBucket b).tryConsume? now =
      some ((b.tryConsume now).1, ofBucket (b.tryConsume now).2) := by
  have hceiling : (b.refill now).level ≤ (b.refill now).limits.maxLevel := by
    rw [Bucket.limits_refill]
    exact Bucket.level_refill_le now h
  have hlevel := level_lt hceiling
  rw [tryConsume?, refill?_ofBucket h hlast hnow, Bucket.tryConsume]
  simp only [ofBucket, Limits.unitWord?_eq, Option.bind_eq_bind, Option.bind_some,
    ofNat_le_ofNat_iff (Limits.unit_lt _) hlevel]
  split
  · next hunit =>
    rw [sub?_ofNat hlevel hunit]
    rfl
  · rfl

theorem updateLimits?_ofBucket (h : b.level ≤ b.limits.maxLevel) (limits : Limits) :
    (ofBucket b).updateLimits? limits = some (ofBucket (b.updateLimits limits)) := by
  have hlevel := level_lt h
  have hold := b.limits.unit_lt
  have hnew := limits.unit_lt
  -- A product of two words of 64 bits fits into 128, and a quotient is not larger than that.
  have hproduct : b.level * limits.unit < 2 ^ 128 :=
    calc
      b.level * limits.unit < 2 ^ 64 * 2 ^ 64 := Nat.mul_lt_mul'' hlevel hnew
      _ = 2 ^ 128 := rfl
  have hquotient : b.level * limits.unit / b.limits.unit < 2 ^ 128 :=
    Nat.lt_of_le_of_lt (Nat.div_le_self _ _) hproduct
  have hrescaled : min (b.level * limits.unit / b.limits.unit) (2 ^ 64 - 1) < 2 ^ 64 :=
    Nat.lt_of_le_of_lt (Nat.min_le_right _ _) (by decide)
  simp only [updateLimits?, ofBucket, Limits.unitWord?_eq, Limits.maxLevelWord?_eq,
    Option.bind_eq_bind, Option.bind_some, widen_ofNat hlevel, widen_ofNat hold,
    widen_ofNat hnew]
  rw [mul?_ofNat (by omega) (by omega), if_pos hproduct, Option.bind_some,
    div?_ofNat hproduct (by omega) b.limits.one_le_unit, Option.bind_some,
    saturated_narrow?_ofNat hquotient, least_ofNat hrescaled limits.maxLevel_lt]
  rfl

end WordBucket

/-! ## What calls leave -/

namespace Bucket

/-- The instant that a call is given. -/
def Call.now? : Call → Option Instant
  | .refill now | .tryConsume now => some now
  | .updateLimits _ => none

/-- The limits that a call is given. -/
def Call.limits? : Call → Option Limits
  | .updateLimits limits => some limits
  | _ => none

variable {b : Bucket} {calls : List Call}

/-- A bucket has the limits that it was given last. -/
theorem limits_callAll (b : Bucket) (calls : List Call) :
    (b.callAll calls).limits = (calls.filterMap Call.limits?).getLastD b.limits := by
  induction calls generalizing b with
  | nil => rfl
  | cons c rest ih =>
    cases c with
    | refill now => exact (ih (b.refill now)).trans (congrArg _ (limits_refill b now))
    | tryConsume now =>
      exact (ih (b.tryConsume now).2).trans (congrArg _ (limits_tryConsume b now))
    | updateLimits limits => exact (ih (b.updateLimits limits)).trans List.getLastD_cons.symm

theorem mem_of_mem_max {s t u : Instant} {rest : List Instant} (h : u ∈ max s t :: rest) :
    u ∈ s :: t :: rest := by
  rcases List.mem_cons.mp h with rfl | hrest
  · rcases Int.le_total s t with hle | hle
    · simp [Int.max_eq_right hle]
    · simp [Int.max_eq_left hle]
  · exact List.mem_cons_of_mem _ (List.mem_cons_of_mem _ hrest)

theorem isGreatest_of_max {s t u : Instant} {rest : List Instant}
    (h : IsGreatest {v | v ∈ max s t :: rest} u) : IsGreatest {v | v ∈ s :: t :: rest} u := by
  have hmax : max s t ≤ u := h.2 List.mem_cons_self
  refine ⟨mem_of_mem_max h.1, fun v hv => ?_⟩
  rcases List.mem_cons.mp hv with rfl | hv
  · exact Int.le_trans (Int.le_max_left _ _) hmax
  · rcases List.mem_cons.mp hv with rfl | hv
    · exact Int.le_trans (Int.le_max_right _ _) hmax
    · exact h.2 (List.mem_cons_of_mem _ hv)

/-- A call leaves an instant that the bucket had or was given. -/
theorem mem_instants_of_call {c : Call} {t : Instant}
    (h : t ∈ (b.call c).lastRefill :: calls.filterMap Call.now?) :
    t ∈ b.lastRefill :: (c :: calls).filterMap Call.now? := by
  cases c with
  | refill now =>
    rw [call, lastRefill_refill] at h
    exact mem_of_mem_max h
  | tryConsume now =>
    rw [call, lastRefill_tryConsume] at h
    exact mem_of_mem_max h
  | updateLimits limits => exact h

/-- A bucket's clock shows the latest of all instants that it was given, its creation
among them. -/
theorem isGreatest_lastRefill_callAll (b : Bucket) (calls : List Call) :
    IsGreatest {t | t ∈ b.lastRefill :: calls.filterMap Call.now?} (b.callAll calls).lastRefill := by
  induction calls generalizing b with
  | nil => exact ⟨List.mem_singleton_self _, fun t ht => Int.le_of_eq (List.mem_singleton.mp ht)⟩
  | cons c rest ih =>
    cases c with
    | refill now => exact isGreatest_of_max (lastRefill_refill b now ▸ ih (b.refill now))
    | tryConsume now =>
      exact isGreatest_of_max (lastRefill_tryConsume b now ▸ ih (b.tryConsume now).2)
    | updateLimits limits => exact ih (b.updateLimits limits)

end Bucket

namespace WordBucket

open Bucket (Call)

variable {b : Bucket} {c : Call} {calls : List Call}

theorem call?_ofBucket (h : b.level ≤ b.limits.maxLevel) (hlast : b.lastRefill.Shown)
    (hc : ∀ t, c.now? = some t → t.Shown) :
    (ofBucket b).call? c = some (ofBucket (b.call c)) := by
  cases c with
  | refill now => exact refill?_ofBucket h hlast (hc now rfl)
  | tryConsume now =>
    rw [call?, tryConsume?_ofBucket h hlast (hc now rfl)]
    rfl
  | updateLimits limits => exact updateLimits?_ofBucket h limits

/-- The induction is on the calls. Each keeps the level below its ceiling and leaves an
instant that the clock can show, which is all that the next one needs. -/
theorem callAll?_ofBucket (h : b.level ≤ b.limits.maxLevel)
    (hshown : ∀ t ∈ b.lastRefill :: calls.filterMap Call.now?, t.Shown) :
    (ofBucket b).callAll? calls = some (ofBucket (b.callAll calls)) := by
  induction calls generalizing b with
  | nil => rfl
  | cons c rest ih =>
    have hlast : b.lastRefill.Shown := hshown _ List.mem_cons_self
    have hc : ∀ t, c.now? = some t → t.Shown := fun t ht =>
      hshown t (List.mem_cons_of_mem _ (List.mem_filterMap.mpr ⟨c, List.mem_cons_self, ht⟩))
    rw [callAll?, List.foldlM_cons, call?_ofBucket h hlast hc]
    exact ih (Bucket.level_call_le c h) fun t ht => hshown t (Bucket.mem_instants_of_call ht)

end WordBucket

open Bucket in
/-- After any calls, and so after each of them, a bucket has the limits that it was given
last, no more credit than they allow, and the latest of all instants that it was given. A
request takes exactly one unit from what is there after refilling, or nothing. In words
nothing that is not capped exceeds its word or falls below zero: if the clock can show the
instants, then the calls have a result, and it is the same bucket. -/
theorem representation_kept (limits : Limits) (start : Instant) (calls : List Call) :
    let b := (full limits start).callAll calls
    b.limits = (calls.filterMap Call.limits?).getLastD limits ∧
    b.level ≤ min (b.limits.capacity.toNat * max 1 (min b.limits.interval.nanos (2 ^ 64 - 1)))
      (2 ^ 64 - 1) ∧
    IsGreatest {t | t ∈ start :: calls.filterMap Call.now?} b.lastRefill ∧
    (∀ now, ((b.tryConsume now).1 = true ↔ b.limits.unit ≤ (b.refill now).level) ∧
      (b.tryConsume now).2.level + (if (b.tryConsume now).1 then b.limits.unit else 0) =
        (b.refill now).level) ∧
    ((∀ t ∈ start :: calls.filterMap Call.now?, t.Shown) →
      ∃ w, (WordBucket.full? limits start).bind (·.callAll? calls) = some w ∧ w.toBucket = b ∧
        ∀ now, now.Shown → ∃ w', w.tryConsume? now = some ((b.tryConsume now).1, w') ∧
          w'.toBucket = (b.tryConsume now).2) := by
  intro b
  have hlevel : b.level ≤ b.limits.maxLevel := level_le_of_reachable ⟨limits, start, calls, rfl⟩
  have hgreatest := isGreatest_lastRefill_callAll (full limits start) calls
  refine ⟨limits_callAll _ _, hlevel, hgreatest,
    fun now => ⟨fst_tryConsume_iff, level_tryConsume b now⟩, fun hshown => ?_⟩
  refine ⟨.ofBucket b, ?_, WordBucket.toBucket_ofBucket hlevel, fun now hnow => ?_⟩
  · rw [WordBucket.full?_eq, Option.bind_some]
    exact WordBucket.callAll?_ofBucket (Nat.le_refl _) hshown
  · have hlast : b.lastRefill.Shown := hshown _ hgreatest.1
    have hceiling : (b.tryConsume now).2.level ≤ (b.tryConsume now).2.limits.maxLevel := by
      rw [limits_tryConsume]
      exact level_tryConsume_le now hlevel
    exact ⟨_, WordBucket.tryConsume?_ofBucket hlevel hlast hnow,
      WordBucket.toBucket_ofBucket hceiling⟩

/-- Three tokens of ten nanoseconds, one of them taken at once, and then as many tokens as
there can be of the longest interval there is. The clock goes back on the way. -/
def exCalls : List Bucket.Call :=
  [.tryConsume 5, .refill (-2), .updateLimits ⟨4294967295, .never⟩, .tryConsume 30]

theorem representation_exCalls :
    (Bucket.full ⟨3, .ofNanos 10⟩ 5).callAll exCalls = ⟨⟨4294967295, .never⟩, 0, 30⟩ ∧
    IsGreatest {t | t ∈ 5 :: exCalls.filterMap Bucket.Call.now?} 30 ∧
    ∃ w, (WordBucket.full? ⟨3, .ofNanos 10⟩ 5).bind (·.callAll? exCalls) = some w ∧
      w.toBucket = ⟨⟨4294967295, .never⟩, 0, 30⟩ := by
  have hbucket : (Bucket.full ⟨3, .ofNanos 10⟩ 5).callAll exCalls =
      ⟨⟨4294967295, .never⟩, 0, 30⟩ := by decide
  obtain ⟨-, -, hlast, -, hwords⟩ := representation_kept ⟨3, .ofNanos 10⟩ 5 exCalls
  obtain ⟨w, hrun, hw, -⟩ := hwords (by decide)
  rw [hbucket] at hlast
  exact ⟨hbucket, hlast, w, hrun, hw.trans hbucket⟩

end Rate

end Tollgate
