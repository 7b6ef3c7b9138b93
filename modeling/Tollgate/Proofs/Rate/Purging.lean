import Tollgate.Proofs.Rate.Waiting

/-!
# Buckets that are purged

A bucket that has been left alone for as long as it takes to fill it is full at its next
request. So is the fresh one that a caller gets whose bucket was purged. If the idle time is
no shorter than that, a purge changes nothing for a default caller that is up to date, from
its next request on.

A purge goes by a clock that may stand before the last refill of a bucket. That matters
where nothing is asked of the idle time, which is where the bucket holds nothing: it is
purged although it is ahead of the clock, and the fresh one is not ahead of it.

Results:
1. `Bucket.refill_eq_full`: when a bucket that is left alone is as good as new.
2. `Agree.run_of_spares`, `Agree.answers_eq`: runs that spare a caller in limiters that
   agree on it.
3. `Agree.request_of_refilled`, `Agree.answers_of_refilled`: a request finds a full bucket,
   or makes one.
4. `purge_invisible`: a purge does not show from the next request on.
5. `exAhead_shows`: it does where a bucket that holds nothing is ahead of the clock.
-/

namespace Tollgate.Rate

/-! ## Definitions -/

namespace Limiter

/-- Drops idle buckets of chosen keys only. -/
def purgeOnly {K : Type} (l : Limiter K) (chosen : K → Bool) (now : Instant) : Limiter K :=
  let kept := l.shards.map (·.filter fun k e => !(chosen k && l.isIdle now e))
  let purged := l.size - held kept
  { l with
    shards := kept
    tracked := l.tracked - purged
    counts := { l.counts with purged := l.counts.purged + purged } }

/-- The purge that leaves the bucket of `k` in place, idle or not. -/
def purgeOthers {K : Type} [DecidableEq K] (l : Limiter K) (k : K) (now : Instant) : Limiter K :=
  l.purgeOnly (· ≠ k) now

end Limiter

/-! ## Full buckets -/

namespace Bucket

variable {b : Bucket} {now t : Instant}

/-- After a time that is worth its ceiling, a bucket is as good as new. -/
theorem refill_eq_full (hlevel : b.level ≤ b.limits.maxLevel) (hlast : b.lastRefill ≤ t)
    (htime : b.limits.maxLevel ≤ t.since b.lastRefill) : b.refill t = full b.limits t := by
  rcases Int.lt_or_eq_of_le hlast with hlt | rfl
  · have hfull : min (b.level + t.since b.lastRefill) b.limits.maxLevel = b.limits.maxLevel :=
      Nat.min_eq_right (Nat.le_trans htime (Nat.le_add_left _ _))
    rw [refill_of_lt hlt, hfull, full]
  · -- No time has passed, so the ceiling is zero.
    have hzero : b.limits.maxLevel = 0 := by
      rw [Instant.since, Int.sub_self] at htime
      exact Nat.le_zero.mp htime
    rw [refill_of_le (Int.le_refl _), full, hzero, ← Nat.le_zero.mp (hzero ▸ hlevel)]

theorem refill_full (limits : Limits) (t : Instant) : (full limits t).refill t = full limits t :=
  refill_of_le (Int.le_refl t)

end Bucket

namespace Limiter

/-! ## Purges of some keys -/

section

variable {K : Type} {l : Limiter K}

/-- A purge drops idle buckets of all keys. -/
theorem purgeOnly_all (l : Limiter K) (now : Instant) :
    l.purgeOnly (fun _ => true) now = (l.purgeIdle now).2 :=
  rfl

theorem home_purgeOnly (l : Limiter K) (chosen : K → Bool) (now : Instant) (k : K) :
    (l.purgeOnly chosen now).home k = l.home k := by
  simp only [home, purgeOnly, List.length_map]

theorem shardAt_purgeOnly (l : Limiter K) (chosen : K → Bool) (now : Instant) (i : Nat) :
    (l.purgeOnly chosen now).shardAt i =
      (l.shardAt i).filter fun k e => !(chosen k && l.isIdle now e) := by
  simp only [purgeOnly, shardAt, List.getD_eq_getElem?_getD, List.getElem?_map]
  cases l.shards[i]? <;> rfl

theorem Sound.purgeOnly (h : l.Sound) (chosen : K → Bool) (now : Instant) :
    (l.purgeOnly chosen now).Sound := by
  refine ⟨by simpa [Limiter.purgeOnly] using h.shards_pos, fun i => ?_, fun i entry hin => ?_⟩
  · rw [shardAt_purgeOnly]
    exact Recency.nodup_keys_filter _ (h.keys_nodup i)
  · rw [shardAt_purgeOnly, Recency.mem_entries_filter] at hin
    exact h.entries_sound i entry hin.1

end

variable {K : Type} [DecidableEq K] {l l' : Limiter K} {k : K} {e : Entry} {now t : Instant}
  {before after actions : List (Action K)}

theorem find?_purgeOnly (h : l.Sound) (chosen : K → Bool) (now : Instant) (k : K) :
    (l.purgeOnly chosen now).find? k =
      (l.find? k).filter fun e => !(chosen k && l.isIdle now e) := by
  rw [find?, home_purgeOnly, shardAt_purgeOnly, Recency.find?_filter _ (h.keys_nodup _)]
  rfl

theorem find?_purgeOthers (h : l.Sound) (k : K) (now : Instant) :
    (l.purgeOthers k now).find? k = l.find? k := by
  rw [purgeOthers, find?_purgeOnly h]
  cases l.find? k with
  | none => rfl
  | some e => simp

theorem isIdle_of_dropped (h : l.Sound) (he : l.find? k = some e)
    (hdropped : (l.purgeIdle now).2.contains k = false) : l.isIdle now e = true := by
  rw [contains, find?_purgeIdle h, he, Option.filter_some] at hdropped
  split at hdropped
  · cases hdropped
  · next hidle => simpa using hidle

/-! ## Runs of two limiters -/

theorem Agree.symm (h : Agree k l l') : Agree k l' l :=
  ⟨h.edition_eq.symm, h.idleTtl_eq.symm, h.find?_eq.symm⟩

theorem spares_append (l : Limiter K) (k : K) (before after : List (Action K)) :
    l.Spares k (before ++ after) ↔ l.Spares k before ∧ (l.run before).Spares k after := by
  induction before generalizing l with
  | nil => exact (and_iff_right trivial).symm
  | cons a rest ih =>
    show _ ∧ Spares k _ (rest ++ after) ↔ (_ ∧ Spares k _ rest) ∧ Spares k (run _ rest) after
    rw [ih, and_assoc]

/-- Limiters that agree on a key stay so while both spare it. -/
theorem Agree.run_of_spares (h : Agree k l l') (hl : l.Sound) (hl' : l'.Sound)
    (hspared : l.Spares k actions) (hspared' : l'.Spares k actions) :
    Agree k (l.run actions) (l'.run actions) := by
  induction actions generalizing l l' with
  | nil => exact h
  | cons a rest ih =>
    refine ih ?_ (hl.perform a) (hl'.perform a) hspared.2 hspared'.2
    cases hconcerns : a.concerns k with
    | true => exact h.perform hl hl' hconcerns
    | false =>
      have hpurge := purges_of_unconcerned hconcerns
      have hleft := Agree.of_unconcerned hl hconcerns (hspared.1 hpurge)
      have hright := Agree.of_unconcerned hl' hconcerns (hspared'.1 hpurge)
      exact hleft.trans (h.trans hright.symm)

theorem Agree.answers_eq (h : Agree k l l') (hl : l.Sound) (hl' : l'.Sound)
    (hspared : l.Spares k actions) (hspared' : l'.Spares k actions) :
    l.answersAbout k actions = l'.answersAbout k actions := by
  rw [answersAbout_filter hl hl' h hspared, ← answersAbout_filter hl' hl' (Agree.refl k l') hspared']

/-! ## Up to the next request -/

/-- The bucket of a key that is left alone stays as it is, or is dropped. -/
theorem run_of_leaves (h : l.Sound) (hleft : ∀ a ∈ before, a.leaves k = true)
    (hfound : l.find? k = none ∨ l.find? k = some e) :
    (l.run before).edition = l.edition ∧ (l.run before).idleTtl = l.idleTtl ∧
      ((l.run before).find? k = none ∨ (l.run before).find? k = some e) := by
  induction before generalizing l with
  | nil => exact ⟨rfl, rfl, hfound⟩
  | cons a rest ih =>
    obtain ⟨hreq, hlim⟩ : a.requests k = false ∧ a.relimits k = false := by
      simpa [Action.leaves] using hleft a List.mem_cons_self
    have hfound' : (l.perform a).2.find? k = none ∨ (l.perform a).2.find? k = some e := by
      rcases find?_perform h hreq hlim with hkept | hdropped
      · rw [hkept]
        exact hfound
      · exact .inl hdropped
    obtain ⟨hedition, hidle, hfind⟩ :=
      ih (h.perform a) (fun a ha => hleft a (List.mem_cons_of_mem _ ha)) hfound'
    exact ⟨hedition.trans (edition_perform hlim), hidle.trans (idleTtl_perform l a), hfind⟩

/-! ## The next request -/

/-- The entry of a default caller that decides a request finds a full bucket: the one there
is has been refilled, or a fresh one is made. -/
theorem deciding_of_refilled (hfound : l.find? k = none ∨ l.find? k = some e)
    (htier : e.tier = .default) (hcurrent : e.generation = l.edition.generation)
    (hrefill : e.bucket.refill t = .full l.policy.default t) :
    (l.deciding k t).bucket.refill t = .full l.policy.default t ∧
      (l.deciding k t).tier = .default ∧
      (l.deciding k t).generation = l.edition.generation := by
  rcases hfound with hnone | hsome
  · have hfresh : l.deciding k t = .fresh .default l.edition t := by
      rw [deciding, hnone, Option.getD_none]
      exact if_pos rfl
    rw [hfresh]
    exact ⟨Bucket.refill_full _ t, rfl, rfl⟩
  · rw [deciding, hsome, Option.getD_some, Entry.sync, if_pos hcurrent]
    exact ⟨hrefill, htier, hcurrent⟩

/-- Two limiters that differ in the bucket of a default caller at most, which is dropped or
left alone until it would be full, answer its request alike and agree on it afterwards. -/
theorem Agree.request_of_refilled (hl : l.Sound) (hl' : l'.Sound)
    (hedition : l.edition = l'.edition) (hidle : l.idleTtl = l'.idleTtl)
    (hfound : l.find? k = none ∨ l.find? k = some e)
    (hfound' : l'.find? k = none ∨ l'.find? k = some e)
    (htier : e.tier = .default) (hcurrent : e.generation = l.edition.generation)
    (hrefill : e.bucket.refill t = .full l.policy.default t) :
    (l.perform (.request k t)).1 = (l'.perform (.request k t)).1 ∧
      Agree k (l.perform (.request k t)).2 (l'.perform (.request k t)).2 := by
  have hpolicy : l.policy = l'.policy := congrArg Edition.policy hedition
  obtain ⟨hbucket, htier₁, hgeneration₁⟩ := deciding_of_refilled hfound htier hcurrent hrefill
  obtain ⟨hbucket', htier₂, hgeneration₂⟩ :=
    deciding_of_refilled hfound' htier (hedition ▸ hcurrent) (hpolicy ▸ hrefill)
  have hconsume : (l.deciding k t).bucket.tryConsume t = (l'.deciding k t).bucket.tryConsume t := by
    unfold Bucket.tryConsume
    rw [hbucket, hbucket', hpolicy]
  constructor
  · refine congrArg Answer.admission (Admission.eq_of_isAllowed_eq ?_)
    rw [isAllowed_admitAt, isAllowed_admitAt, hconsume]
  · refine ⟨?_, ?_, ?_⟩
    · rw [edition_perform (k := k) rfl, edition_perform (k := k) rfl, hedition]
    · rw [idleTtl_perform, idleTtl_perform, hidle]
    · rw [find?_request_self hl, find?_request_self hl', Entry.consume, Entry.consume, hconsume,
        htier₁, htier₂, hgeneration₁, hgeneration₂, hedition]

/-- From that request on they answer the caller alike, as long as both spare it. -/
theorem Agree.answers_of_refilled (hl : l.Sound) (hl' : l'.Sound)
    (hedition : l.edition = l'.edition) (hidle : l.idleTtl = l'.idleTtl)
    (hfound : l.find? k = none ∨ l.find? k = some e)
    (hfound' : l'.find? k = none ∨ l'.find? k = some e)
    (htier : e.tier = .default) (hcurrent : e.generation = l.edition.generation)
    (hrefill : e.bucket.refill t = .full l.policy.default t)
    (hspared : l.Spares k (.request k t :: after))
    (hspared' : l'.Spares k (.request k t :: after)) :
    l.answersAbout k (.request k t :: after) = l'.answersAbout k (.request k t :: after) ∧
    ∀ done todo, after = done ++ todo →
      (l.run (.request k t :: done)).find? k = (l'.run (.request k t :: done)).find? k := by
  obtain ⟨hanswer, hagree⟩ :=
    Agree.request_of_refilled hl hl' hedition hidle hfound hfound' htier hcurrent hrefill
  have hnext := hl.perform (.request k t)
  have hnext' := hl'.perform (.request k t)
  constructor
  · rw [answersAbout_cons, answersAbout_cons, hanswer,
      hagree.answers_eq hnext hnext' hspared.2 hspared'.2]
  · rintro done todo rfl
    have hdone := ((spares_append _ k done todo).mp hspared.2).1
    have hdone' := ((spares_append _ k done todo).mp hspared'.2).1
    exact (hagree.run_of_spares hnext hnext' hdone hdone').find?_eq

/-! ## Purges -/

/-- A bucket that is purged has been left alone for as long as it takes to fill it. -/
theorem refill_of_dropped (h : l.Sound) (he : l.find? k = some e)
    (hidle : e.bucket.limits.maxLevel ≤ l.idleTtl.nanos)
    (hdropped : (l.purgeIdle now).2.contains k = false)
    (hclock : e.bucket.limits.capacity = 0 → e.bucket.lastRefill ≤ now) (ht : now ≤ t) :
    e.bucket.refill t = .full e.bucket.limits t := by
  have hlong : l.idleTtl.nanos ≤ now.since e.bucket.lastRefill :=
    of_decide_eq_true (isIdle_of_dropped h he hdropped)
  have hlast : e.bucket.lastRefill ≤ now := by
    by_cases hcapacity : e.bucket.limits.capacity = 0
    · exact hclock hcapacity
    · have hpos : 0 < now.since e.bucket.lastRefill := calc
        0 < e.bucket.limits.unit := e.bucket.limits.one_le_unit
        _ ≤ e.bucket.limits.maxLevel := Limits.unit_le_maxLevel hcapacity
        _ ≤ l.idleTtl.nanos := hidle
        _ ≤ now.since e.bucket.lastRefill := hlong
      exact Int.le_of_lt (Int.sub_pos.mp (Int.lt_toNat.mp hpos))
  refine Bucket.refill_eq_full (h.of_find? he).level_le (Int.le_trans hlast ht) ?_
  calc
    e.bucket.limits.maxLevel ≤ l.idleTtl.nanos := hidle
    _ ≤ now.since e.bucket.lastRefill := hlong
    _ ≤ t.since e.bucket.lastRefill := Int.toNat_le_toNat (Int.sub_le_sub_right ht _)

/-- A purge that drops the bucket of a default caller is not noticed by it, as long as the
idle time is worth a full bucket, from its next request on. That request may come any time
after the purge, as long as no policy is published and the caller is not promoted before. The
answers to it and all later ones are the same as if the purge had left the bucket in place,
and so is the bucket after each of them, unless the bucket is evicted. -/
theorem purge_invisible (h : l.Reachable) (he : l.find? k = some e) (htier : e.tier = .default)
    (hcurrent : e.generation = l.edition.generation)
    (hidle : e.bucket.limits.maxLevel ≤ l.idleTtl.nanos)
    (hdropped : (l.purgeIdle now).2.contains k = false)
    (hclock : e.bucket.limits.capacity = 0 → e.bucket.lastRefill ≤ now)
    (hleft : ∀ a ∈ before, a.leaves k = true) (ht : now ≤ t)
    (hspared : (l.purgeIdle now).2.Spares k (before ++ .request k t :: after))
    (hspared' : (l.purgeOthers k now).Spares k (before ++ .request k t :: after)) :
    let purged := (l.purgeIdle now).2.run before
    let kept := (l.purgeOthers k now).run before
    purged.answersAbout k (.request k t :: after) = kept.answersAbout k (.request k t :: after) ∧
    ∀ done todo, after = done ++ todo →
      (purged.run (.request k t :: done)).find? k = (kept.run (.request k t :: done)).find? k := by
  intro purged kept
  have hsound := sound_of_reachable h
  have hl : (l.purgeIdle now).2.Sound := hsound.purgeIdle now
  have hl' : (l.purgeOthers k now).Sound := hsound.purgeOnly _ now
  have hrefill : e.bucket.refill t = .full l.policy.default t := by
    rw [refill_of_dropped hsound he hidle hdropped hclock ht,
      (hsound.of_find? he).limits_eq hcurrent, htier]
    rfl
  have hnone : (l.purgeIdle now).2.find? k = none :=
    Option.not_isSome_iff_eq_none.mp (Bool.eq_false_iff.mp hdropped)
  obtain ⟨hedition, hidleTtl, hfound⟩ := run_of_leaves hl hleft (.inl hnone)
  obtain ⟨hedition', hidleTtl', hfound'⟩ :=
    run_of_leaves hl' hleft (.inr ((find?_purgeOthers hsound k now).trans he))
  have hpolicy : purged.policy = l.policy := congrArg Edition.policy hedition
  exact Agree.answers_of_refilled (hl.run before) (hl'.run before)
    (hedition.trans hedition'.symm) (hidleTtl.trans hidleTtl'.symm) hfound hfound' htier
    (hcurrent.trans (congrArg Edition.generation hedition).symm) (hpolicy ▸ hrefill)
    ((spares_append _ k before _).mp hspared).2 ((spares_append _ k before _).mp hspared').2

/-- Caller `1` has spent its three tokens of ten nanoseconds, and was then denied at the
instant `5`. The idle time is just long enough for the three to be refilled. -/
def exSpent : Limiter Nat :=
  (new { maxBuckets := 4, shards := 2, idleTtl := .ofNanos 30,
         policy := ⟨⟨3, .ofNanos 10⟩, ⟨4, .ofNanos 5⟩⟩ } id).run
    [.request 1 0, .request 1 0, .request 1 0, .request 2 1, .request 1 5]

/-- Others come and go while caller `1` is away. -/
def exAway : List (Action Nat) :=
  [.request 3 36, .purgeIdle 37, .retryAfter 1 37, .promote 2 38]

/-- What happens after caller `1` has come back. -/
def exBack : List (Action Nat) :=
  [.request 1 40, .request 1 41, .tokens 1, .request 1 42, .updatePolicy .standard, .promote 1 50,
    .request 1 1000000042]

theorem purge_exSpent :
    (exSpent.purgeIdle 35).2.contains 1 = false ∧
    (((exSpent.purgeIdle 35).2.run exAway).answersAbout 1 (.request 1 40 :: exBack)).map
      Answer.isAllowed = [true, true, true, false, false, false, true] ∧
    ((exSpent.purgeIdle 35).2.run exAway).answersAbout 1 (.request 1 40 :: exBack) =
      ((exSpent.purgeOthers 1 35).run exAway).answersAbout 1 (.request 1 40 :: exBack) ∧
    (((exSpent.purgeIdle 35).2.run exAway).run [.request 1 40, .request 1 40]).find? 1 =
      (((exSpent.purgeOthers 1 35).run exAway).run [.request 1 40, .request 1 40]).find? 1 := by
  have hreachable : exSpent.Reachable := ⟨_, _, _, rfl⟩
  have he : exSpent.find? 1 = some ⟨⟨⟨3, .ofNanos 10⟩, 5, 5⟩, .default, 0⟩ := by decide
  have hdropped : (exSpent.purgeIdle 35).2.contains 1 = false := by decide
  obtain ⟨hanswers, hentries⟩ := purge_invisible hreachable he rfl rfl (by decide) hdropped
    (by decide) (by decide : ∀ a ∈ exAway, a.leaves 1 = true) (by decide : (35 : Int) ≤ 40)
    (by decide : Spares 1 _ (exAway ++ .request 1 40 :: exBack)) (by decide)
  exact ⟨hdropped, by decide, hanswers, hentries [.request 1 40] _ rfl⟩

/-! ## A bucket that is ahead of the clock -/

/-- Default callers are allowed nothing, and their buckets may be purged at any time. Caller
`1` was denied at the instant `10`. -/
def exAhead : Limiter Nat :=
  (new { maxBuckets := 3, shards := 1, idleTtl := .zero,
         policy := ⟨⟨0, .ofNanos 10⟩, ⟨4, .ofNanos 5⟩⟩ } id).run [.request 1 10]

/-- A policy that allows default callers one token of ten nanoseconds. -/
def exOpened : List (Action Nat) :=
  [.updatePolicy ⟨⟨1, .ofNanos 10⟩, ⟨4, .ofNanos 5⟩⟩, .request 1 8, .request 1 18]

/-- The purge is made at the instant `5`, and the caller comes back at the instant `7`. Its
bucket would have stood at the instant `10`. -/
theorem exAhead_shows :
    exAhead.Reachable ∧
    exAhead.find? 1 = some ⟨⟨⟨0, .ofNanos 10⟩, 0, 10⟩, .default, exAhead.edition.generation⟩ ∧
    (⟨0, .ofNanos 10⟩ : Limits).maxLevel ≤ exAhead.idleTtl.nanos ∧
    (exAhead.purgeIdle 5).2.contains 1 = false ∧
    (exAhead.purgeIdle 5).2.Spares 1 (.request 1 7 :: exOpened) ∧
    (exAhead.purgeOthers 1 5).Spares 1 (.request 1 7 :: exOpened) ∧
    ((exAhead.purgeIdle 5).2.run [.request 1 7]).find? 1 =
      some ⟨⟨⟨0, .ofNanos 10⟩, 0, 7⟩, .default, 0⟩ ∧
    ((exAhead.purgeOthers 1 5).run [.request 1 7]).find? 1 =
      some ⟨⟨⟨0, .ofNanos 10⟩, 0, 10⟩, .default, 0⟩ ∧
    ((exAhead.purgeIdle 5).2.answersAbout 1 (.request 1 7 :: exOpened)).map Answer.isAllowed =
      [false, false, true] ∧
    ((exAhead.purgeOthers 1 5).answersAbout 1 (.request 1 7 :: exOpened)).map Answer.isAllowed =
      [false, false, false] :=
  ⟨⟨_, _, _, rfl⟩, by decide, by decide, by decide, by decide, by decide, by decide, by decide,
    by decide, by decide⟩

end Limiter

end Tollgate.Rate
