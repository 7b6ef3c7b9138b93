import Tollgate.Proofs.Rate.Adoption

/-!
# Several policies between two touches

Of the policies that are published while a bucket is not touched, only the last one counts.
The next touch keeps the whole tokens that the bucket has come to by then under its old
limits, as far as they fit the new ones. If the limits of its tier are the same as before,
then no policy counts at all, for as long as the tier of the bucket remains such a one.

Results:
1. `exists_touched_of_behind`: what the first touch after a new policy leaves.
2. `unaffected_of_custom`: limits of a caller's own are no matter of policy.
3. `akin_once`, `akin_unchanged`: which policies may be left out.
4. `updates_adopted`: what policies between two touches come to.
5. `exRaised_shows`: what shows later, if the policy changes the limits of another tier.
-/

namespace Tollgate.Rate

/-! ## Buckets -/

namespace Bucket

/-- The token that a request takes is a whole one. -/
theorem wholeTokens_tryConsume (b : Bucket) (now : Instant) :
    (b.tryConsume now).2.wholeTokens + (if (b.tryConsume now).1 then 1 else 0) =
      (b.refill now).wholeTokens := by
  unfold tryConsume
  simp only [limits_refill]
  split
  · next hunit =>
    have hone : 1 ≤ (b.refill now).level / b.limits.unit :=
      (Nat.one_le_div_iff b.limits.one_le_unit).mpr hunit
    have hdiv := Nat.sub_mul_div (b.refill now).level b.limits.unit 1
    rw [Nat.mul_one] at hdiv
    simp only [wholeTokens, limits_refill, if_true]
    rw [hdiv, Nat.sub_add_cancel hone]
  · rfl

end Bucket

namespace Limiter

variable {K : Type} [DecidableEq K] {l : Limiter K} {k : K} {e : Entry}
  {before after rest : List (Action K)}

/-! ## The touch that adopts a policy -/

theorem generation_touched (l : Limiter K) (k : K) (now : Instant) (touch : Touch) :
    (l.touched k now touch).generation = l.edition.generation := by
  cases touch with
  | request => exact Entry.generation_sync _ l.edition now
  | promote | promoteCaller => rfl

theorem limits_touched (h : l.Sound) (k : K) (now : Instant) (touch : Touch) :
    (l.touched k now touch).bucket.limits = (touch.tier (l.tierOf k)).limits l.policy := by
  have hsound := (h.perform (touch.action k now)).of_find? (find?_touched h k now touch)
  rw [edition_of_not_updates (touch.updates_action k now)] at hsound
  rw [hsound.limits_eq (generation_touched l k now touch), tier_touched]
  rfl

/-- The whole tokens before the touch takes one, if it does. -/
theorem wholeTokens_touched (he : l.find? k = some e)
    (hbehind : e.generation ≠ l.edition.generation) (now : Instant) (touch : Touch) :
    (l.touched k now touch).bucket.wholeTokens +
        (if (l.perform (touch.action k now)).1.isAllowed then 1 else 0) =
      min (e.bucket.refill now).wholeTokens
        (((touch.tier e.tier).limits l.policy).maxLevel /
          ((touch.tier e.tier).limits l.policy).unit) := by
  cases touch with
  | request =>
    have hdeciding : (l.deciding k now).bucket =
        (e.bucket.refill now).updateLimits (e.tier.limits l.policy) := by
      rw [deciding, he, Option.getD_some, Entry.sync, if_neg hbehind]
      rfl
    have hlast : now ≤ ((e.bucket.refill now).updateLimits (e.tier.limits l.policy)).lastRefill :=
      Bucket.le_lastRefill_refill e.bucket now
    have htokens := Bucket.wholeTokens_tryConsume (l.deciding k now).bucket now
    rw [← isAllowed_admitAt, hdeciding, Bucket.refill_of_le hlast,
      Bucket.wholeTokens_updateLimits, ← hdeciding] at htokens
    exact htokens
  | promote | promoteCaller =>
    have hfound (tier : Tier) : (l.find? k).getD (.fresh tier l.edition now) = e := by
      rw [he, Option.getD_some]
    rw [touched, touched.promotedTo, hfound]
    exact Bucket.wholeTokens_updateLimits _ _

/-- What the first touch after a new policy leaves of a bucket. -/
theorem exists_touched_of_behind (h : l.Sound) (he : l.find? k = some e)
    (hbehind : e.generation ≠ l.edition.generation) (touch : Touch) (now : Instant) :
    ∃ e', (l.perform (touch.action k now)).2.find? k = some e' ∧ e'.tier = touch.tier e.tier ∧
      e'.bucket.limits = e'.tier.limits l.policy ∧
      e'.bucket.wholeTokens + (if (l.perform (touch.action k now)).1.isAllowed then 1 else 0) =
        min (e.bucket.refill now).wholeTokens
          (e'.bucket.limits.maxLevel / e'.bucket.limits.unit) := by
  have htier : l.tierOf k = e.tier := by
    rw [tierOf, he]
    rfl
  have hlimits := limits_touched h k now touch
  have htokens := wholeTokens_touched he hbehind now touch
  rw [htier] at hlimits
  rw [← hlimits] at htokens
  refine ⟨l.touched k now touch, find?_touched h k now touch, ?_, ?_, htokens⟩
  · rw [tier_touched, htier]
  · rw [hlimits, tier_touched, htier]

/-! ## Callers with limits of their own -/

/-- Limits of a caller's own are the same in all policies. It has such limits until its
bucket is dropped or follows the limits of promoted callers. -/
theorem unaffected_of_custom (h : l.Sound) {limits : Limits} (htier : l.tierOf k = .custom limits)
    (hkept : l.Keeps k rest) (hown : ∀ now, .promote k now ∉ rest) (policy policy' : Policy) :
    Unaffected k policy policy' l rest := by
  induction rest generalizing l limits with
  | nil => trivial
  | cons a rest ih =>
    have hcontains : l.contains k = true := by
      refine Option.isSome_iff_ne_none.mpr fun hnone => ?_
      rw [tierOf, hnone] at htier
      cases htier
    have hcustom : ∃ limits, (l.perform a).2.tierOf k = .custom limits := by
      by_cases ha : a.touched? = some k
      · obtain ⟨touch, now, rfl⟩ := Touch.exists_touch ha
        rw [tierOf_touched h, htier]
        cases touch with
        | request => exact ⟨limits, rfl⟩
        | promote => exact absurd List.mem_cons_self (hown now)
        | promoteCaller own => exact ⟨own, rfl⟩
      · rcases find?_of_untouched h ha with hsame | hnone
        · exact ⟨limits, by rw [tierOf, hsame, ← tierOf, htier]⟩
        · have hafter := hkept.1 hcontains
          rw [contains, hnone] at hafter
          cases hafter
    obtain ⟨own, hown'⟩ := hcustom
    refine ⟨fun _ => by rw [hown']; rfl, fun _ => ?_⟩
    exact ih (h.perform a) hown' hkept.2 fun now hin => hown now (List.mem_cons_of_mem _ hin)

/-! ## Between two touches -/

theorem run_append (l : Limiter K) (before after : List (Action K)) :
    l.run (before ++ after) = (l.run before).run after :=
  List.foldl_append

theorem Reachable.run (h : l.Reachable) (actions : List (Action K)) : (l.run actions).Reachable := by
  obtain ⟨settings, place, before, rfl⟩ := h
  exact ⟨settings, place, before ++ actions, (run_append _ before actions).symm⟩

theorem edition_run (hsilent : ∀ a ∈ after, a.updates = false) :
    (l.run after).edition = l.edition := by
  induction after generalizing l with
  | nil => rfl
  | cons a rest ih =>
    exact (ih fun a ha => hsilent a (List.mem_cons_of_mem _ ha)).trans
      (edition_of_not_updates (hsilent a List.mem_cons_self))

theorem edition_run_filter (l : Limiter K) (actions : List (Action K)) :
    (l.run (actions.filter (!·.updates))).edition = l.edition :=
  edition_run fun _ ha => Bool.not_eq_eq_eq_not.mp (List.mem_filter.mp ha).2

theorem find?_run_of_untouched (h : l.Sound) (huntouched : ∀ a ∈ rest, a.touched? ≠ some k)
    (he : (l.run rest).find? k = some e) : l.find? k = some e := by
  induction rest generalizing l with
  | nil => exact he
  | cons a rest ih =>
    have hnext := ih (h.perform a) (fun a ha => huntouched a (List.mem_cons_of_mem _ ha)) he
    rcases find?_of_untouched h (huntouched a List.mem_cons_self) with hsame | hnone
    · exact hsame ▸ hnext
    · rw [hnone] at hnext
      cases hnext

/-- Policies before the last one may be left out. -/
theorem akin_once (h : l.Sound) (policy : Policy) (hbefore : ∀ a ∈ before, a.touched? ≠ some k)
    (after : List (Action K)) :
    Akin k (l.run (before ++ .updatePolicy policy :: after))
        (l.run (before.filter (!·.updates) ++ .updatePolicy policy :: after)) ∧
      (l.run (before ++ .updatePolicy policy :: after)).policy =
        (l.run (before.filter (!·.updates) ++ .updatePolicy policy :: after)).policy := by
  have hbeside := (Beside.refl k l).run_filter h h hbefore
  have hsound := h.run before
  have hsound' := h.run (before.filter (!·.updates))
  have hakin := akin_updatePolicy hbeside.layout hsound hsound'
    (congrArg (Option.map Entry.standing) hbeside.find?_eq) policy
  rw [run_append, run_append]
  exact hakin.run (hsound.updatePolicy policy) (hsound'.updatePolicy policy) rfl after

theorem edition_between (l : Limiter K) (before : List (Action K)) (policy : Policy)
    (hafter : ∀ a ∈ after, a.updates = false) :
    (l.run (before ++ .updatePolicy policy :: after)).edition =
      ⟨(l.run before).edition.generation + 1, policy⟩ := by
  rw [run_append]
  exact edition_run hafter

/-- After a policy, the bucket that was not touched since is behind it. -/
theorem behind_between (h : l.Sound) (policy : Policy)
    (huntouched : ∀ a ∈ before ++ .updatePolicy policy :: after, a.touched? ≠ some k)
    (hafter : ∀ a ∈ after, a.updates = false)
    (he : (l.run (before ++ .updatePolicy policy :: after)).find? k = some e) :
    e.generation ≠ (l.run (before ++ .updatePolicy policy :: after)).edition.generation := by
  have hsound := h.run before
  rw [run_append] at he
  have hfind : (l.run before).find? k = some e :=
    find?_run_of_untouched hsound (fun a ha => huntouched a (List.mem_append_right _ ha)) he
  rw [edition_between l before policy hafter]
  exact Nat.ne_of_lt (Nat.lt_succ_of_le (hsound.of_find? hfind).generation_le)

/-- A policy may be left out if the limits of the tier are as before. -/
theorem akin_unchanged (h : l.Sound) (policy : Policy)
    (huntouched : ∀ a ∈ before ++ .updatePolicy policy :: after, a.touched? ≠ some k)
    (hafter : ∀ a ∈ after, a.updates = false) (he : l.find? k = some e)
    (hlimits : e.tier.limits l.policy = e.tier.limits policy) :
    Akin k (l.run (before ++ .updatePolicy policy :: after))
      (l.run ((before ++ .updatePolicy policy :: after).filter (!·.updates))) := by
  have hbeside := (Beside.refl k l).run_filter h h huntouched
  refine ⟨hbeside.layout, ?_⟩
  rw [← hbeside.find?_eq]
  cases hfind : (l.run (before ++ .updatePolicy policy :: after)).find? k with
  | none => exact .none
  | some found =>
    obtain rfl : found = e :=
      Option.some.inj ((find?_run_of_untouched h huntouched hfind).symm.trans he)
    refine .some ⟨rfl, rfl, ?_⟩
    rw [edition_run_filter]
    by_cases hcurrent : found.generation = l.edition.generation
    · refine .inr ?_
      rw [(h.of_find? he).limits_eq hcurrent, edition_between l before policy hafter]
      exact hlimits
    · exact .inl (iff_of_false (behind_between h policy huntouched hafter hfind) hcurrent)

theorem answersAbout_unchanged (h : l.Sound) (policy : Policy)
    (huntouched : ∀ a ∈ before ++ .updatePolicy policy :: after, a.touched? ≠ some k)
    (hafter : ∀ a ∈ after, a.updates = false) (he : l.find? k = some e)
    (hlimits : e.tier.limits l.policy = e.tier.limits policy)
    (hunaffected :
      Unaffected k policy l.policy (l.run (before ++ .updatePolicy policy :: after)) rest) :
    (l.run (before ++ .updatePolicy policy :: after)).answersAbout k rest =
      (l.run ((before ++ .updatePolicy policy :: after).filter (!·.updates))).answersAbout k
        rest := by
  refine (akin_unchanged h policy huntouched hafter he hlimits).answersAbout_congr (h.run _)
    (h.run _) ?_
  rw [Limiter.policy, Limiter.policy, edition_between l before policy hafter, edition_run_filter]
  exact hunaffected

/-- Let the actions between two touches of `k` publish policies, the last one of them being
`policy`. The next touch leaves the bucket as if that were the only one, and from then on
`k` is told the same. The touch finds as many whole tokens as the bucket has come to under
its old limits, as far as they fit. If the limits of its tier are as before, and as long as
every touch leaves `k` in such a tier, then `k` is told the same as if there were no policy,
and so is a caller with limits of its own as long as it keeps some. -/
theorem updates_adopted (h : l.Reachable) (k : K) (policy : Policy)
    (before after : List (Action K))
    (huntouched : ∀ a ∈ before ++ .updatePolicy policy :: after, a.touched? ≠ some k)
    (hafter : ∀ a ∈ after, a.updates = false) (touch : Touch) (now : Instant)
    (rest : List (Action K)) :
    let all := l.run (before ++ .updatePolicy policy :: after)
    let once := l.run (before.filter (!·.updates) ++ .updatePolicy policy :: after)
    let unchanged := l.run ((before ++ .updatePolicy policy :: after).filter (!·.updates))
    let next := all.perform (touch.action k now)
    ((next.2.find? k).map Entry.standing =
        ((once.perform (touch.action k now)).2.find? k).map Entry.standing ∧
      all.answersAbout k rest = once.answersAbout k rest) ∧
    (∀ e, all.find? k = some e → l.find? k = some e ∧
      ∃ e', next.2.find? k = some e' ∧ e'.tier = touch.tier e.tier ∧
        e'.bucket.limits = e'.tier.limits policy ∧
        e'.bucket.wholeTokens + (if next.1.isAllowed then 1 else 0) =
          min (e.bucket.refill now).wholeTokens
            (e'.bucket.limits.maxLevel / e'.bucket.limits.unit)) ∧
    (∀ e, l.find? k = some e → e.tier.limits l.policy = e.tier.limits policy →
      Unaffected k policy l.policy all rest →
        all.answersAbout k rest = unchanged.answersAbout k rest) ∧
    ∀ e limits, all.find? k = some e → e.tier = .custom limits → all.Keeps k rest →
      (∀ now, .promote k now ∉ rest) →
        all.answersAbout k rest = unchanged.answersAbout k rest := by
  intro all once unchanged next
  have hl := sound_of_reachable h
  have hall : all.Sound := hl.run _
  have honce : once.Sound := hl.run _
  have hpolicy : all.policy = policy :=
    congrArg Edition.policy (edition_between l before policy hafter)
  obtain ⟨hakin, hsame⟩ : Akin k all once ∧ all.policy = once.policy :=
    akin_once hl policy (fun a ha => huntouched a (List.mem_append_left _ ha)) after
  have hlast (e : Entry) (he : all.find? k = some e) : l.find? k = some e :=
    find?_run_of_untouched hl huntouched he
  refine ⟨⟨?_, ?_⟩, fun e he => ⟨hlast e he, ?_⟩, fun e he hlimits hunaffected => ?_,
    fun e limits he htier hkept hown => ?_⟩
  · exact (hakin.perform hall honce fun _ => congrArg (Tier.limits · _) hsame).standing_eq
  · refine hakin.answersAbout_congr hall honce ?_
    rw [← hsame]
    exact unaffected_self k _ all rest
  · rw [← hpolicy]
    exact exists_touched_of_behind hall he (behind_between hl policy huntouched hafter he) touch now
  · exact answersAbout_unchanged hl policy huntouched hafter he hlimits hunaffected
  · have hcustom : all.tierOf k = .custom limits := by
      rw [tierOf, he, ← htier]
      rfl
    have hlimits : e.tier.limits l.policy = e.tier.limits policy := by
      rw [htier]
      rfl
    exact answersAbout_unchanged hl policy huntouched hafter (hlast e he) hlimits
      (unaffected_of_custom hall hcustom hkept hown policy l.policy)

/-- Caller `1` is left with two of its three tokens, and caller `3` has limits of its own. -/
def exTouched : Limiter Nat :=
  (new { maxBuckets := 3, shards := 2, policy := ⟨⟨3, .ofNanos 10⟩, ⟨4, .ofNanos 5⟩⟩ } id).run
    [.request 1 0, .request 2 1, .promoteCaller 3 ⟨2, .ofNanos 4⟩ 2]

/-- Caller `2` is seen under one of two policies. -/
def exPassing : List (Action Nat) :=
  [.updatePolicy ⟨⟨1, .ofNanos 1000⟩, ⟨1, .ofNanos 1000⟩⟩, .request 2 3, .updatePolicy .standard]

/-- Callers `1` and `3` come back, and caller `4` takes the room of caller `2`. -/
def exReturns : List (Action Nat) :=
  [.request 1 5, .request 3 5, .request 3 6, .request 3 6, .request 1 9, .request 4 10, .tokens 1,
    .request 1 12, .request 3 13]

theorem updates_exReturns :
    let policy : Policy := ⟨⟨1, .ofNanos 7⟩, ⟨4, .ofNanos 5⟩⟩
    let actions := exPassing ++ [.updatePolicy policy, .retryAfter 1 4]
    ((exTouched.run actions).answersAbout 1 exReturns).map Answer.isAllowed =
      [true, false, false, true] ∧
    (exTouched.run actions).answersAbout 1 exReturns =
      (exTouched.run [.request 2 3, .updatePolicy policy, .retryAfter 1 4]).answersAbout 1
        exReturns ∧
    (((exTouched.run actions).perform (.request 1 5)).2.find? 1).map Entry.standing =
      some (⟨⟨1, .ofNanos 7⟩, 0, 5⟩, .default) ∧
    (exTouched.run actions).answersAbout 3 exReturns =
      (exTouched.run [.request 2 3, .retryAfter 1 4]).answersAbout 3 exReturns := by
  have hreachable : exTouched.Reachable := ⟨_, _, _, rfl⟩
  intro policy actions
  have hone := updates_adopted hreachable 1 policy exPassing [.retryAfter 1 4] (by decide)
    (by decide) .request 5 exReturns
  have hthree := updates_adopted hreachable 3 policy exPassing [.retryAfter 1 4] (by decide)
    (by decide) .request 5 exReturns
  exact ⟨by decide, hone.1.2, by decide, hthree.2.2.2
    ⟨⟨⟨2, .ofNanos 4⟩, 8, 2⟩, .custom ⟨2, .ofNanos 4⟩, 0⟩ ⟨2, .ofNanos 4⟩ (by decide) rfl
    (by decide) (by simp [exReturns])⟩

/-- A caller that is promoted later sees the limits of the new policy, also if the policy
changes nothing for the tier that the caller is in. -/
theorem exRaised_shows :
    ¬ ∀ (l : Limiter Nat) (k : Nat) (e : Entry) (policy : Policy) (rest : List (Action Nat)),
      l.Reachable → l.find? k = some e → e.generation = l.edition.generation →
        e.tier.limits l.policy = e.tier.limits policy →
          ((l.run [.updatePolicy policy]).answersAbout k rest).map Answer.isAllowed =
            (l.answersAbout k rest).map Answer.isAllowed := by
  intro hclaim
  have hsame := hclaim exTouched 1 _ ⟨⟨3, .ofNanos 10⟩, ⟨4, .ofNanos 50⟩⟩
    [.promote 1 5, .request 1 5, .request 1 5, .request 1 8] ⟨_, _, _, rfl⟩ rfl rfl rfl
  exact absurd hsame (by decide)

end Limiter

end Tollgate.Rate
