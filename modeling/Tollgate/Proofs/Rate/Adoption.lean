import Tollgate.Proofs.Rate.Bound
import Tollgate.Proofs.Rate.Layout
import Tollgate.Proofs.Rate.Polling
import Tollgate.Proofs.Rate.Rescaling

/-!
# Policies that are adopted late

A new policy is only noted. A bucket adopts the policy in force when it is next touched:
it is refilled under its old limits up to then and converted once. Policies that came and
went before that leave no trace in it, since it was not touched under them, and where they
reach other buckets they change what these hold and not where they are. A policy that
leaves the limits of a bucket's tier as they are does not show at all, since conversion to
the limits in force changes nothing.

Results:
1. `Beside.run_filter`: policies show neither in the layout nor in a bucket that is not
   touched.
2. `Entry.Akin.tryConsume_eq`, `Entry.Akin.retier`: entries that the next touch makes equal.
3. `Akin.perform`: actions keep entries akin.
4. `Akin.answersAbout_congr`: a key whose entries are akin is told the same.
-/

namespace Tollgate.Rate

/-! ## Definitions -/

namespace Action

variable {K : Type}

/-- Whether the action publishes a policy. -/
def updates : Action K → Bool
  | .updatePolicy _ => true
  | _ => false

end Action

/-- What an entry holds apart from the generation it is of. -/
def Entry.standing (e : Entry) : Bucket × Tier :=
  (e.bucket, e.tier)

/-- The entries differ in their generations at most. Either both are up to date or none is,
or that does not matter, because the bucket has the limits of its tier already. -/
structure Entry.Akin (edition edition' : Edition) (e e' : Entry) : Prop where
  bucket_eq : e.bucket = e'.bucket
  tier_eq : e.tier = e'.tier
  ready : (e.generation = edition.generation ↔ e'.generation = edition'.generation) ∨
    e.bucket.limits = e.tier.limits edition.policy

namespace Limiter

variable {K : Type} [DecidableEq K]

/-- The limiters have one layout and the same entry of `k`, if any. -/
structure Beside (k : K) (l l' : Limiter K) : Prop where
  layout : SameLayout l l'
  find?_eq : l.find? k = l'.find? k

/-- The limiters have one layout and akin entries of `k`, if any. -/
structure Akin (k : K) (l l' : Limiter K) : Prop where
  layout : SameLayout l l'
  entries : Option.Rel (Entry.Akin l.edition l'.edition) (l.find? k) (l'.find? k)

/-- Each touch of `k` leaves it in a tier that has the same limits in both policies, until
another policy is published. -/
def Unaffected (k : K) (policy policy' : Policy) : Limiter K → List (Action K) → Prop
  | _, [] => True
  | l, a :: rest =>
    (a.touched? = some k →
      ((l.perform a).2.tierOf k).limits policy = ((l.perform a).2.tierOf k).limits policy') ∧
      (a.updates = false → Unaffected k policy policy' (l.perform a).2 rest)

instance Unaffected.decidable (k : K) (policy policy' : Policy) : (l : Limiter K) →
    (actions : List (Action K)) → Decidable (Unaffected k policy policy' l actions)
  | _, [] => isTrue trivial
  | l, a :: rest =>
    have := Unaffected.decidable k policy policy' (l.perform a).2 rest
    inferInstanceAs (Decidable ((_ → _) ∧ (_ → _)))

end Limiter

/-! ## Entries -/

theorem Touch.updates_action {K : Type} (touch : Touch) (k : K) (now : Instant) :
    (touch.action k now).updates = false := by
  cases touch <;> rfl

namespace Entry

variable {edition edition' : Edition} {e e' : Entry} {tier : Tier} {now : Instant}

/-- A bucket that has the limits of its tier already adopts a policy without a trace. -/
theorem refill_sync_of_limits (hlevel : e.bucket.level ≤ e.bucket.limits.maxLevel)
    (hlimits : e.bucket.limits = e.tier.limits edition.policy) (now : Instant) :
    (e.sync edition now).bucket.refill now = e.bucket.refill now := by
  unfold sync
  split
  · rfl
  · have hself := Bucket.updateLimits_self
      ((Bucket.limits_refill e.bucket now).symm ▸ Bucket.level_refill_le now hlevel)
    rw [Bucket.limits_refill, hlimits] at hself
    rw [retier, hself, Bucket.refill_refill e.bucket (Int.le_refl now)]

namespace Akin

theorem refill_sync (h : Akin edition edition' e e')
    (hlevel : e.bucket.level ≤ e.bucket.limits.maxLevel)
    (hlimits : e.tier.limits edition.policy = e.tier.limits edition'.policy) (now : Instant) :
    (e.sync edition now).bucket.refill now = (e'.sync edition' now).bucket.refill now := by
  rcases h.ready with hiff | hready
  · by_cases hcurrent : e.generation = edition.generation
    · rw [sync, sync, if_pos hcurrent, if_pos (hiff.mp hcurrent), h.bucket_eq]
    · rw [sync, sync, if_neg hcurrent, if_neg (fun heq => hcurrent (hiff.mpr heq)), retier, retier,
        hlimits, h.bucket_eq, h.tier_eq]
  · have hlevel' : e'.bucket.level ≤ e'.bucket.limits.maxLevel := h.bucket_eq ▸ hlevel
    have hready' : e'.bucket.limits = e'.tier.limits edition'.policy := by
      rw [← h.bucket_eq, ← h.tier_eq, hready, hlimits]
    rw [refill_sync_of_limits hlevel hready, refill_sync_of_limits hlevel' hready', h.bucket_eq]

theorem tryConsume_eq (h : Akin edition edition' e e')
    (hlevel : e.bucket.level ≤ e.bucket.limits.maxLevel)
    (hlimits : e.tier.limits edition.policy = e.tier.limits edition'.policy) (now : Instant) :
    (e.sync edition now).bucket.tryConsume now = (e'.sync edition' now).bucket.tryConsume now := by
  unfold Bucket.tryConsume
  rw [h.refill_sync hlevel hlimits]

theorem consume (h : Akin edition edition' e e')
    (hlevel : e.bucket.level ≤ e.bucket.limits.maxLevel)
    (hlimits : e.tier.limits edition.policy = e.tier.limits edition'.policy) (now : Instant) :
    Akin edition edition' ((e.sync edition now).consume now)
      ((e'.sync edition' now).consume now) where
  bucket_eq := congrArg Prod.snd (h.tryConsume_eq hlevel hlimits now)
  tier_eq := (tier_sync e edition now).trans (h.tier_eq.trans (tier_sync e' edition' now).symm)
  ready := .inl (iff_of_true (generation_sync e edition now) (generation_sync e' edition' now))

theorem retier (h : Akin edition edition' e e')
    (hlimits : tier.limits edition.policy = tier.limits edition'.policy) (now : Instant) :
    Akin edition edition' (e.retier tier edition now) (e'.retier tier edition' now) where
  bucket_eq := by rw [Entry.retier, Entry.retier, h.bucket_eq, hlimits]
  tier_eq := rfl
  ready := .inl (iff_of_true rfl rfl)

/-- A new policy finds neither entry up to date. -/
theorem of_behind (hstanding : e.standing = e'.standing) (he : e.Sound edition)
    (he' : e'.Sound edition') (policy : Policy) :
    Akin ⟨edition.generation + 1, policy⟩ ⟨edition'.generation + 1, policy⟩ e e' where
  bucket_eq := congrArg Prod.fst hstanding
  tier_eq := congrArg Prod.snd hstanding
  ready := .inl (iff_of_false (Nat.ne_of_lt (Nat.lt_succ_of_le he.generation_le))
    (Nat.ne_of_lt (Nat.lt_succ_of_le he'.generation_le)))

theorem fresh (hlimits : tier.limits edition.policy = tier.limits edition'.policy) (now : Instant) :
    Akin edition edition' (.fresh tier edition now) (.fresh tier edition' now) where
  bucket_eq := by rw [Entry.fresh, Entry.fresh, hlimits]
  tier_eq := rfl
  ready := .inl (iff_of_true rfl rfl)

end Akin

end Entry

namespace Limiter

variable {K : Type} [DecidableEq K] {l l' : Limiter K} {k : K} {e : Entry} {a : Action K}
  {actions : List (Action K)} {now : Instant}

/-! ## Policies in force -/

theorem edition_of_not_updates (ha : a.updates = false) : (l.perform a).2.edition = l.edition := by
  cases a with
  | updatePolicy => cases ha
  | request k now => exact edition_perform (k := k) rfl
  | promote k now => exact edition_setTier l k .promoted now
  | promoteCaller k limits now => exact edition_setTier l k (.custom limits) now
  | purgeIdle | shutDown | retryAfter | isPromoted | contains | tokens => rfl

theorem policy_of_not_updates (ha : a.updates = false) : (l.perform a).2.policy = l.policy :=
  congrArg Edition.policy (edition_of_not_updates ha)

theorem policy_eq_of_updates (ha : a.updates = true) (l l' : Limiter K) :
    (l.perform a).2.policy = (l'.perform a).2.policy := by
  cases a with
  | updatePolicy policy => rfl
  | _ => cases ha

theorem policy_perform_eq (h : l.policy = l'.policy) (a : Action K) :
    (l.perform a).2.policy = (l'.perform a).2.policy := by
  cases ha : a.updates with
  | true => exact policy_eq_of_updates ha l l'
  | false => rw [policy_of_not_updates ha, policy_of_not_updates ha, h]

/-- Nothing is affected by a policy that stays as it is. -/
theorem unaffected_self (k : K) (policy : Policy) (l : Limiter K) (actions : List (Action K)) :
    Unaffected k policy policy l actions := by
  induction actions generalizing l with
  | nil => trivial
  | cons a rest ih => exact ⟨fun _ => rfl, fun _ => ih _⟩

/-! ## Tiers -/

theorem tier_touched (l : Limiter K) (k : K) (now : Instant) (touch : Touch) :
    (l.touched k now touch).tier = touch.tier (l.tierOf k) := by
  cases touch with
  | request =>
    rw [touched, Entry.consume, deciding, Entry.tier_sync, tierOf]
    cases l.find? k <;> rfl
  | promote | promoteCaller => rfl

theorem tierOf_touched (h : l.Sound) (k : K) (now : Instant) (touch : Touch) :
    (l.perform (touch.action k now)).2.tierOf k = touch.tier (l.tierOf k) := by
  rw [tierOf, find?_touched h, ← tier_touched l k now]
  rfl

/-! ## Entries that a touch finds or makes -/

theorem level_found_le (h : l.Sound) (k : K) (tier : Tier) (now : Instant) :
    ((l.find? k).getD (.fresh tier l.edition now)).bucket.level ≤
      ((l.find? k).getD (.fresh tier l.edition now)).bucket.limits.maxLevel := by
  rw [← fst_entryFor]
  exact (h.fst_entryFor k tier now).level_le

theorem tier_found_default (l : Limiter K) (k : K) (now : Instant) :
    ((l.find? k).getD (.fresh .default l.edition now)).tier = l.tierOf k := by
  rw [tierOf]
  cases l.find? k <;> rfl

/-! ## Up to a touch -/

/-- An action that does not touch `k` leaves its entries or drops them, on both sides. -/
theorem SameLayout.find?_of_untouched (h : SameLayout l l') (hl : l.Sound) (hl' : l'.Sound)
    (ha : a.touched? ≠ some k) :
    ((l.perform a).2.find? k = l.find? k ∧ (l'.perform a).2.find? k = l'.find? k) ∨
      ((l.perform a).2.find? k = none ∧ (l'.perform a).2.find? k = none) := by
  have hcontains := (h.perform hl hl' a).contains_eq k
  have hkept {l : Limiter K} (hl : l.Sound) (hin : (l.perform a).2.contains k = true) :
      (l.perform a).2.find? k = l.find? k := by
    rcases Limiter.find?_of_untouched hl ha with hsame | hnone
    · exact hsame
    · rw [contains, hnone] at hin
      cases hin
  by_cases hin : (l.perform a).2.contains k = true
  · exact .inl ⟨hkept hl hin, hkept hl' (hcontains.symm.trans hin)⟩
  · exact .inr ⟨Option.not_isSome_iff_eq_none.mp hin,
      Option.not_isSome_iff_eq_none.mp fun hin' => hin (hcontains.trans hin')⟩

theorem Beside.perform (h : Beside k l l') (hl : l.Sound) (hl' : l'.Sound)
    (ha : a.touched? ≠ some k) : Beside k (l.perform a).2 (l'.perform a).2 := by
  refine ⟨h.layout.perform hl hl' a, ?_⟩
  rcases h.layout.find?_of_untouched hl hl' ha with ⟨hfind, hfind'⟩ | ⟨hnone, hnone'⟩
  · rw [hfind, hfind', h.find?_eq]
  · rw [hnone, hnone']

theorem Beside.refl (k : K) (l : Limiter K) : Beside k l l :=
  ⟨.refl l, rfl⟩

/-- Policies may be left out as long as `k` is not touched. -/
theorem Beside.run_filter (h : Beside k l l') (hl : l.Sound) (hl' : l'.Sound)
    (hactions : ∀ a ∈ actions, a.touched? ≠ some k) :
    Beside k (l.run actions) (l'.run (actions.filter (!·.updates))) := by
  induction actions generalizing l l' with
  | nil => exact h
  | cons a rest ih =>
    have hrest : ∀ a ∈ rest, a.touched? ≠ some k :=
      fun a ha => hactions a (List.mem_cons_of_mem _ ha)
    cases ha : a.updates with
    | true =>
      rw [List.filter_cons_of_neg (by simp [ha])]
      cases a with
      | updatePolicy policy =>
        exact ih ⟨h.layout.updatePolicy_left policy, h.find?_eq⟩ (hl.updatePolicy policy) hl' hrest
      | _ => cases ha
    | false =>
      rw [List.filter_cons_of_pos (by simp [ha])]
      exact ih (h.perform hl hl' (hactions a List.mem_cons_self)) (hl.perform a) (hl'.perform a)
        hrest

/-- A new policy finds no entry up to date. -/
theorem akin_updatePolicy (h : SameLayout l l') (hl : l.Sound) (hl' : l'.Sound)
    (hstanding : (l.find? k).map Entry.standing = (l'.find? k).map Entry.standing)
    (policy : Policy) : Akin k (l.updatePolicy policy) (l'.updatePolicy policy) := by
  refine ⟨h.perform hl hl' (.updatePolicy policy), ?_⟩
  show Option.Rel _ (l.find? k) (l'.find? k)
  cases hfind : l.find? k with
  | none =>
    rw [hfind] at hstanding
    rw [Option.map_eq_none_iff.mp hstanding.symm]
    exact .none
  | some e =>
    rw [hfind] at hstanding
    obtain ⟨e', hfind', heq⟩ := Option.map_eq_some_iff.mp hstanding.symm
    rw [hfind']
    exact .some (.of_behind heq.symm (hl.of_find? hfind) (hl'.of_find? hfind') policy)

/-! ## Akin entries -/

namespace Akin

theorem standing_eq (h : Akin k l l') :
    (l.find? k).map Entry.standing = (l'.find? k).map Entry.standing := by
  have hentries := h.entries
  generalize l.find? k = found, l'.find? k = found' at hentries
  cases hentries with
  | none => rfl
  | some hakin => exact congrArg some (Prod.ext hakin.bucket_eq hakin.tier_eq)

/-- The entry that a touch finds or makes. -/
theorem found (h : Akin k l l') {tier : Tier}
    (htier : l.find? k = none → tier.limits l.policy = tier.limits l'.policy) (now : Instant) :
    Entry.Akin l.edition l'.edition ((l.find? k).getD (.fresh tier l.edition now))
      ((l'.find? k).getD (.fresh tier l'.edition now)) := by
  have hentries := h.entries
  generalize l.find? k = found, l'.find? k = found' at hentries htier
  cases hentries with
  | none => exact .fresh (htier rfl) now
  | some hakin => exact hakin

theorem found_default (h : Akin k l l')
    (hlimits : (l.tierOf k).limits l.policy = (l.tierOf k).limits l'.policy) (now : Instant) :
    Entry.Akin l.edition l'.edition ((l.find? k).getD (.fresh .default l.edition now))
      ((l'.find? k).getD (.fresh .default l'.edition now)) := by
  refine h.found (fun hnone => ?_) now
  rw [tierOf, hnone] at hlimits
  exact hlimits

theorem tryConsume_eq (h : Akin k l l') (hl : l.Sound)
    (hlimits : (l.tierOf k).limits l.policy = (l.tierOf k).limits l'.policy) (now : Instant) :
    (l.deciding k now).bucket.tryConsume now = (l'.deciding k now).bucket.tryConsume now :=
  (h.found_default hlimits now).tryConsume_eq (level_found_le hl k .default now)
    ((tier_found_default l k now).symm ▸ hlimits) now

theorem touched (h : Akin k l l') (hl : l.Sound) {touch : Touch}
    (hlimits : (touch.tier (l.tierOf k)).limits l.policy =
      (touch.tier (l.tierOf k)).limits l'.policy) (now : Instant) :
    Entry.Akin l.edition l'.edition (l.touched k now touch) (l'.touched k now touch) := by
  cases touch with
  | request =>
    exact (h.found_default hlimits now).consume (level_found_le hl k .default now)
      ((tier_found_default l k now).symm ▸ hlimits) now
  | promote | promoteCaller => exact (h.found (fun _ => hlimits) now).retier hlimits now

/-- An action keeps entries akin if it does not touch `k`, or leaves it in a tier that has
the same limits on both sides. -/
theorem perform (h : Akin k l l') (hl : l.Sound) (hl' : l'.Sound)
    (hlimits : a.touched? = some k → ((l.perform a).2.tierOf k).limits l.policy =
      ((l.perform a).2.tierOf k).limits l'.policy) :
    Akin k (l.perform a).2 (l'.perform a).2 := by
  have hlayout := h.layout.perform hl hl' a
  by_cases ha : a.touched? = some k
  · obtain ⟨touch, now, rfl⟩ := Touch.exists_touch ha
    have hupdates := touch.updates_action k now
    have hlimits := hlimits ha
    rw [tierOf_touched hl] at hlimits
    refine ⟨hlayout, ?_⟩
    rw [find?_touched hl, find?_touched hl', edition_of_not_updates hupdates,
      edition_of_not_updates hupdates]
    exact .some (h.touched hl hlimits now)
  · cases a with
    | updatePolicy policy => exact akin_updatePolicy h.layout hl hl' h.standing_eq policy
    | _ =>
      refine ⟨hlayout, ?_⟩
      rw [edition_of_not_updates rfl, edition_of_not_updates rfl]
      rcases h.layout.find?_of_untouched hl hl' ha with ⟨hfind, hfind'⟩ | ⟨hnone, hnone'⟩
      · rw [hfind, hfind']
        exact h.entries
      · rw [hnone, hnone']
        exact .none

theorem answer_eq (h : Akin k l l') (hl : l.Sound) (habout : a.isAbout k = true)
    (hlimits : a.touched? = some k → ((l.perform a).2.tierOf k).limits l.policy =
      ((l.perform a).2.tierOf k).limits l'.policy) :
    (l.perform a).1 = (l'.perform a).1 := by
  cases a with
  | request k' now =>
    obtain rfl : k' = k := of_decide_eq_true habout
    have hlimits := hlimits rfl
    have htier := tierOf_touched hl k' now .request
    rw [Touch.action, Touch.tier] at htier
    rw [htier] at hlimits
    refine congrArg Answer.admission (Admission.eq_of_isAllowed_eq ?_)
    rw [isAllowed_admitAt, isAllowed_admitAt, h.tryConsume_eq hl hlimits now]
  | promote | promoteCaller => rfl
  | retryAfter k' now | isPromoted k' | contains k' | tokens k' =>
    obtain rfl : k' = k := of_decide_eq_true habout
    have hentries := h.entries
    simp only [Limiter.perform, retryAfter, isPromoted, Limiter.contains, tokens?]
    generalize l.find? k' = found, l'.find? k' = found' at hentries
    cases hentries with
    | none => rfl
    | some hakin => simp [hakin.bucket_eq, hakin.tier_eq]
  | updatePolicy | purgeIdle | shutDown => cases habout

/-- A key that its policies do not tell apart is told the same. The induction is on the
run: a policy that is published in it is common to both sides from then on. -/
theorem answersAbout_congr (h : Akin k l l') (hl : l.Sound) (hl' : l'.Sound)
    (hunaffected : Unaffected k l.policy l'.policy l actions) :
    l.answersAbout k actions = l'.answersAbout k actions := by
  induction actions generalizing l l' with
  | nil => rfl
  | cons a rest ih =>
    have hakin := h.perform hl hl' hunaffected.1
    have hrest : Unaffected k (l.perform a).2.policy (l'.perform a).2.policy (l.perform a).2
        rest := by
      cases ha : a.updates with
      | true =>
        rw [policy_eq_of_updates ha l l']
        exact unaffected_self k _ _ rest
      | false =>
        rw [policy_of_not_updates ha, policy_of_not_updates ha]
        exact hunaffected.2 ha
    rw [answersAbout_cons, answersAbout_cons, ih hakin (hl.perform a) (hl'.perform a) hrest]
    cases habout : a.isAbout k with
    | false => rw [if_neg Bool.false_ne_true, if_neg Bool.false_ne_true]
    | true => rw [h.answer_eq hl habout hunaffected.1]

/-- Under one policy, entries stay akin. -/
theorem run (h : Akin k l l') (hl : l.Sound) (hl' : l'.Sound) (hpolicy : l.policy = l'.policy)
    (actions : List (Action K)) :
    Akin k (l.run actions) (l'.run actions) ∧ (l.run actions).policy = (l'.run actions).policy := by
  induction actions generalizing l l' with
  | nil => exact ⟨h, hpolicy⟩
  | cons a rest ih =>
    exact ih (h.perform hl hl' fun _ => congrArg (Tier.limits · _) hpolicy) (hl.perform a)
      (hl'.perform a) (policy_perform_eq hpolicy a)

end Akin

end Limiter

end Tollgate.Rate
