import Tollgate.Proofs.Rate.Purging
import Tollgate.Proofs.Rate.Updates

/-!
# How callers come to their tiers

A bucket is made in the ordinary tier by a request and in a higher one by a promotion.
From then on only a promotion of its caller puts it into another tier: whatever else
happens, the bucket stays in its tier or is dropped.

Results:
1. `promoted_perform`, `promoted_run`: the promotions alone are counted as such.
2. `exists_tier_of_perform`, `exists_tier_of_run`: who is in a higher tier without having
   been promoted was in it before.
3. `exists_setTier`: what a promotion leaves of a caller's bucket.
-/

namespace Tollgate.Rate

/-! ## Definitions -/

/-- The tier of promoted callers, who may have limits of their own. -/
def Tier.raised : Option Limits → Tier
  | none => .promoted
  | some limits => .custom limits

namespace Action

variable {K : Type}

/-- The promotion of a caller, to limits of its own if there are any. -/
def raise (k : K) (own : Option Limits) (now : Instant) : Action K :=
  match own with
  | none => .promote k now
  | some limits => .promoteCaller k limits now

/-- The key that the action promotes. -/
def promoted? : Action K → Option K
  | .promote k _ | .promoteCaller k _ _ => some k
  | _ => none

theorem promoted?_raise (k : K) (own : Option Limits) (now : Instant) :
    (raise k own now).promoted? = some k := by
  cases own with
  | none => rfl
  | some limits => rfl

end Action

namespace Limiter

variable {K : Type} [DecidableEq K] {l : Limiter K} {k : K} {a : Action K} {e : Entry}

theorem perform_raise (l : Limiter K) (k : K) (own : Option Limits) (now : Instant) :
    (l.perform (.raise k own now)).2 = l.setTier k (.raised own) now := by
  cases own with
  | none => rfl
  | some limits => rfl

/-! ## Counts -/

theorem promoted_seat (l : Limiter K) (k : K) :
    (l.seat k).counts.promoted = l.counts.promoted := by
  unfold seat reserveSlot
  split
  · rfl
  split
  · rfl
  split
  · rfl
  · rfl

theorem promoted_admitAt (l : Limiter K) (k : K) (now : Instant) :
    (l.admitAt k now).2.counts.promoted = l.counts.promoted := by
  simp only [admitAt, snd_entryFor]
  split
  · exact promoted_seat l k
  · exact promoted_seat l k

theorem promoted_setTier (l : Limiter K) (k : K) (tier : Tier) (now : Instant) :
    (l.setTier k tier now).counts.promoted = l.counts.promoted + 1 := by
  simp only [setTier, snd_entryFor]
  exact congrArg (· + 1) (promoted_seat l k)

/-- Each promotion is counted, and nothing else is. -/
theorem promoted_perform (l : Limiter K) (a : Action K) :
    (l.perform a).2.counts.promoted =
      l.counts.promoted + if a.promoted?.isSome = true then 1 else 0 := by
  cases a with
  | request k now => exact promoted_admitAt l k now
  | promote k now => exact promoted_setTier l k .promoted now
  | promoteCaller k limits now => exact promoted_setTier l k (.custom limits) now
  | updatePolicy | purgeIdle | shutDown | retryAfter | isPromoted | contains | tokens => rfl

theorem promoted_run (l : Limiter K) (actions : List (Action K)) :
    (l.run actions).counts.promoted =
      l.counts.promoted + actions.countP (·.promoted?.isSome) := by
  induction actions generalizing l with
  | nil => rfl
  | cons a rest ih =>
    have hrest := ih (l.perform a).2
    rw [promoted_perform] at hrest
    rw [List.countP_cons, Nat.add_comm (rest.countP _), ← Nat.add_assoc]
    exact hrest

/-! ## Tiers -/

theorem isPromoted_eq (l : Limiter K) (k : K) :
    l.isPromoted k = !(l.find? k).all (·.tier = .default) := by
  unfold isPromoted
  cases l.find? k with
  | none => rfl
  | some e => simp only [Option.any_some, Option.all_some, ne_eq, decide_not]

theorem tierOf_promote (h : l.Sound) (k : K) (now : Instant) :
    (l.promote k now).tierOf k = .promoted :=
  tierOf_touched h k now .promote

/-- A tier that no promotion gives is kept from before. -/
theorem exists_tier_of_perform (h : l.Sound) (ha : a.promoted? ≠ some k)
    (he : (l.perform a).2.find? k = some e) (htier : e.tier ≠ .default) :
    ∃ old, l.find? k = some old ∧ old.tier = e.tier := by
  by_cases htouched : a.touched? = some k
  · obtain ⟨touch, now, rfl⟩ := Touch.exists_touch htouched
    cases touch with
    | promote | promoteCaller => exact absurd rfl ha
    | request =>
      rw [find?_touched h] at he
      obtain rfl := Option.some.inj he
      rw [tier_touched] at htier ⊢
      -- Without an entry the request would have made one of the ordinary tier.
      cases hold : l.find? k with
      | none =>
        rw [tierOf, hold] at htier
        exact absurd rfl htier
      | some old =>
        refine ⟨old, rfl, ?_⟩
        rw [tierOf, hold]
        rfl
  · rcases find?_of_untouched h htouched with hsame | hnone
    · exact ⟨e, hsame ▸ he, rfl⟩
    · rw [hnone] at he
      cases he

theorem exists_tier_of_run (h : l.Sound) {actions : List (Action K)}
    (hactions : ∀ a ∈ actions, a.promoted? ≠ some k) (he : (l.run actions).find? k = some e)
    (htier : e.tier ≠ .default) : ∃ old, l.find? k = some old ∧ old.tier = e.tier := by
  induction actions generalizing l with
  | nil => exact ⟨e, he, rfl⟩
  | cons a rest ih =>
    obtain ⟨next, hnext, hsame⟩ :=
      ih (h.perform a) (fun a' hin => hactions a' (List.mem_cons_of_mem _ hin)) he
    obtain ⟨old, hold, hbefore⟩ := exists_tier_of_perform h (hactions a List.mem_cons_self) hnext
      (hsame ▸ htier)
    exact ⟨old, hold, hbefore.trans hsame⟩

/-- A promotion leaves a bucket under the limits of its tier. It has the whole tokens that
there were, as far as they fit, or it is full if it is new. -/
theorem exists_setTier (h : l.Sound) (k : K) (tier : Tier) (now : Instant) :
    ∃ e, (l.setTier k tier now).find? k = some e ∧ e.tier = tier ∧
      e.bucket.limits = tier.limits l.policy ∧
      (∀ old, l.find? k = some old → e.bucket.wholeTokens =
        min (old.bucket.refill now).wholeTokens
          (e.bucket.limits.maxLevel / e.bucket.limits.unit)) ∧
      (l.find? k = none → e.bucket = .full (tier.limits l.policy) now) := by
  refine ⟨_, find?_setTier_self h k tier now, rfl, rfl, ?_, ?_⟩
  · intro old hold
    rw [hold]
    exact Bucket.wholeTokens_updateLimits _ _
  · intro hnone
    rw [hnone]
    show (((Bucket.full _ now).refill now).updateLimits _) = _
    rw [Bucket.refill_full]
    exact Bucket.updateLimits_self (Nat.le_refl _)

end Limiter

end Tollgate.Rate
