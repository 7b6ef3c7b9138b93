import Tollgate.Proofs.Rate.Seats

/-!
# Occupancy of a limiter

In every run the buckets of a limiter stay within its cap, and none is lost
without being counted.

Results:
1. `evicts_of_full`, `keeps_of_not_full`: a bucket is evicted exactly when a new
   key comes while the cap is reached; `evicts_iff_dropped`: no bucket is lost
   otherwise, unless it is purged.
2. `balance_perform`, `balance_run`: every bucket that was ever made is there,
   was evicted or was purged.
3. `decided_perform`, `decided_run`: every request is counted as allowed or as
   denied.
4. `occupancy`: all of it after any run.
-/

namespace Tollgate.Rate.Limiter

variable {K : Type} {l : Limiter K} {settings : LimiterSettings}

/-! ## Order -/

/-- The limiter of some settings is in order: its slots are counted right and
within the cap, every key has one bucket at most, in its own shard, and wherever
the search for a bucket to evict starts, there is one unless a slot is free. -/
structure InOrder (settings : LimiterSettings) (l : Limiter K) : Prop where
  tracked_eq : l.tracked = l.size
  tracked_le : l.tracked ≤ max 1 settings.maxBuckets
  shards_eq : l.shards.length = max 1 settings.shards
  keys_nodup : l.keys.Nodup
  homed : ∀ i, ∀ k ∈ (l.shardAt i).keys, l.home k = i
  room_or_occupied : ∀ start, l.tracked < l.maxBuckets ∨ ∃ i, l.occupied? start = some i

theorem Occupied.inOrder (h : l.Occupied)
    (hshards : l.shards.length = max 1 settings.shards)
    (hmax : l.maxBuckets = max 1 settings.maxBuckets) : l.InOrder settings where
  tracked_eq := h.tracked_eq
  tracked_le := by
    rw [h.tracked_eq, ← hmax]
    exact h.size_le
  shards_eq := hshards
  keys_nodup := nodup_keys h.sound.keys_nodup h.homed
  homed := h.homed
  room_or_occupied := h.room_or_occupied

variable [DecidableEq K] {k : K} {a : Action K}

/-! ## What actions do -/

/-- The key that an action brings, if it has no bucket yet. -/
def arrival? (l : Limiter K) (a : Action K) : Option K :=
  a.touched?.filter fun k => !l.contains k

/-- How many buckets some actions make. -/
def created : Limiter K → List (Action K) → Nat
  | _, [] => 0
  | l, a :: rest => (if (l.arrival? a).isSome = true then 1 else 0) + created (l.perform a).2 rest

/-- The action drops the bucket of one key, which it does not use itself, and
counts that. All other buckets but its own stay as they are. -/
structure Evicts (l : Limiter K) (a : Action K) (dropped : K) : Prop where
  tracked : l.contains dropped = true
  other : a.touched? ≠ some dropped
  gone : (l.perform a).2.contains dropped = false
  spared : ∀ k, k ≠ dropped → a.touched? ≠ some k → (l.perform a).2.find? k = l.find? k
  counted : (l.perform a).2.counts.evicted = l.counts.evicted + 1

/-- What an action does to the buckets of the limiter of some settings. -/
structure Turn (settings : LimiterSettings) (l : Limiter K) (a : Action K) : Prop where
  made : ∀ k, l.contains k = false → (l.perform a).2.contains k = true → a.touched? = some k
  contains_touched : ∀ k, a.touched? = some k → (l.perform a).2.contains k = true
  evicts : ∀ k, l.arrival? a = some k → l.size = max 1 settings.maxBuckets →
    ∃ dropped, l.Evicts a dropped
  keeps : ¬((l.arrival? a).isSome = true ∧ l.size = max 1 settings.maxBuckets) →
    (l.perform a).2.counts.evicted = l.counts.evicted ∧
      (a.purges = false → ∀ k, l.contains k = true → (l.perform a).2.contains k = true)

/-! ## Evictions -/

theorem arrival?_eq_some_iff :
    l.arrival? a = some k ↔ a.touched? = some k ∧ l.contains k = false := by
  rw [arrival?, Option.filter_eq_some_iff, Bool.not_eq_true']

/-- The shard that loses its oldest bucket may be any of them. -/
theorem evicts_of_full (h : l.Occupied) (harrival : l.arrival? a = some k)
    (hfull : l.size = l.maxBuckets) :
    ∃ i old e, (l.shardAt i).oldest? = some (old, e) ∧ l.Evicts a old := by
  obtain ⟨ha, hk⟩ := arrival?_eq_some_iff.mp harrival
  have hseating := seating h k
  have hfind : ∀ k', k' ≠ k → (l.perform a).2.find? k' = (l.seat k).find? k' :=
    fun k' hne => find?_of_touched h.sound ha hne
  have hevicted := evicted_of_touched (l := l) ha
  generalize l.seat k = seated at hseating hfind hevicted
  cases hseating with
  | held hin =>
    rw [hin] at hk
    cases hk
  | free _ hroom => omega
  | @evicted i old e _ _ hi hold =>
    have hold' := h.contains_oldest hold
    have hne : old ≠ k := fun heq => by
      rw [heq, hk] at hold'
      cases hold'
    refine ⟨i, old, e, hold, hold', ?_, ?_, fun k' hk' hother => ?_, hevicted⟩
    · rw [ha]
      exact fun heq => hne (Option.some.inj heq).symm
    · have hnone := (h.find?_dropOldest hi hold old).trans (if_pos rfl)
      rw [contains, (hfind old hne).trans hnone]
      rfl
    · rw [hfind k' fun heq => hother (heq ▸ ha)]
      exact (h.find?_dropOldest hi hold k').trans (if_neg hk')

theorem keeps_of_not_full (h : l.Occupied)
    (hnot : ¬((l.arrival? a).isSome = true ∧ l.size = l.maxBuckets)) :
    (l.perform a).2.counts.evicted = l.counts.evicted ∧
      (a.purges = false → ∀ k, l.contains k = true → (l.perform a).2.contains k = true) := by
  cases htouched : a.touched? with
  | none =>
    cases a with
    | request | promote | promoteCaller => cases htouched
    | purgeIdle now => exact ⟨rfl, fun hpurge => absurd hpurge (by simp [Action.purges])⟩
    | updatePolicy | shutDown | retryAfter | isPromoted | contains | tokens =>
      exact ⟨rfl, fun _ k hk => hk⟩
  | some k =>
    have hseating := seating h k
    have hfind : ∀ k', k' ≠ k → (l.perform a).2.find? k' = (l.seat k).find? k' :=
      fun k' hne => find?_of_touched h.sound htouched hne
    have hsame : (∀ k', (l.seat k).find? k' = l.find? k') ∧
        (l.seat k).counts.evicted = l.counts.evicted := by
      generalize l.seat k = seated at hseating
      cases hseating with
      | held | free => exact ⟨fun _ => rfl, rfl⟩
      | evicted hk hfull =>
        have harrival := arrival?_eq_some_iff.mpr ⟨htouched, hk⟩
        exact absurd ⟨by rw [harrival]; rfl, hfull⟩ hnot
    refine ⟨(evicted_of_touched htouched).trans hsame.2, fun _ k' hk' => ?_⟩
    by_cases hne : k' = k
    · rw [hne]
      exact contains_of_touched h.sound htouched
    · rw [contains, hfind k' hne, hsame.1 k']
      exact hk'

/-- Purges apart, buckets are lost to evictions only. -/
theorem evicts_iff_dropped (h : l.Occupied) (hpurge : a.purges = false) :
    l.Evicts a k ↔ l.contains k = true ∧ (l.perform a).2.contains k = false := by
  constructor
  · exact fun hevicts => ⟨hevicts.tracked, hevicts.gone⟩
  · rintro ⟨hk, hgone⟩
    have hlost : (l.perform a).2.contains k ≠ true := Bool.eq_false_iff.mp hgone
    by_cases hfull : (l.arrival? a).isSome = true ∧ l.size = l.maxBuckets
    · obtain ⟨k', harrival⟩ := Option.isSome_iff_exists.mp hfull.1
      obtain ⟨i, old, e, -, hevicts⟩ := evicts_of_full h harrival hfull.2
      by_cases hold : k = old
      · exact hold ▸ hevicts
      · have hother : a.touched? ≠ some k := fun ha => hlost (contains_of_touched h.sound ha)
        refine absurd ?_ hlost
        rw [contains, hevicts.spared k hold hother]
        exact hk
    · exact absurd ((keeps_of_not_full h hfull).2 hpurge k hk) hlost

/-! ## Buckets made -/

/-- Taking a slot makes up for the bucket that is to be put. -/
theorem balance_seat (h : l.Occupied) (k : K) :
    (l.seat k).tracked + (l.seat k).counts.evicted + (l.seat k).counts.purged =
      l.size + l.counts.evicted + l.counts.purged + if l.contains k = true then 0 else 1 := by
  have hseating := seating h k
  have htracked := h.tracked_eq
  generalize l.seat k = seated at hseating
  cases hseating with
  | held hk =>
    rw [if_pos hk]
    omega
  | free hk =>
    rw [hk]
    show l.tracked + 1 + l.counts.evicted + l.counts.purged = _ + 1
    omega
  | evicted hk =>
    rw [hk]
    show l.tracked + (l.counts.evicted + 1) + l.counts.purged = _ + 1
    omega

/-- No action makes a bucket but for the key that it uses. -/
theorem touched?_of_made (h : l.Sound) (hk : l.contains k = false)
    (hafter : (l.perform a).2.contains k = true) : a.touched? = some k := by
  refine Classical.byContradiction fun htouched => ?_
  rcases find?_of_untouched h htouched with hsame | hnone
  · rw [contains, hsame, ← contains, hk] at hafter
    cases hafter
  · rw [contains, hnone] at hafter
    cases hafter

/-- One more bucket is there, was evicted or was purged exactly after an action
that brings a new key. -/
theorem balance_perform (h : l.Occupied) (a : Action K) :
    (l.perform a).2.size + (l.perform a).2.counts.evicted + (l.perform a).2.counts.purged =
      l.size + l.counts.evicted + l.counts.purged +
        if (l.arrival? a).isSome = true then 1 else 0 := by
  cases htouched : a.touched? with
  | some k =>
    have hbalance := balance_seat h k
    have htracked := (h.of_touched htouched).tracked_eq
    obtain ⟨e, counts, heq, hcounts⟩ := perform_of_touched (l := l) htouched
    have hevicted := hcounts.evicted_eq
    have hpurged := hcounts.purged_eq
    rw [heq] at htracked ⊢
    rw [← htracked]
    show (l.seat k).tracked + counts.evicted + counts.purged = _
    rw [hevicted, hpurged, hbalance, arrival?, htouched]
    cases hk : l.contains k <;> simp [Option.filter, hk]
  | none =>
    have harrival : l.arrival? a = none := by rw [arrival?, htouched]; rfl
    rw [harrival]
    cases a with
    | request | promote | promoteCaller => cases htouched
    | purgeIdle now =>
      have hsize := size_purgeIdle l now
      show (l.purgeIdle now).2.size + l.counts.evicted +
        (l.counts.purged + (l.purgeIdle now).1) = _
      simp only [Option.isSome_none, Bool.false_eq_true, if_false]
      omega
    | updatePolicy | shutDown | retryAfter | isPromoted | contains | tokens => rfl

theorem balance_run (h : l.Occupied) (actions : List (Action K)) :
    (l.run actions).size + (l.run actions).counts.evicted + (l.run actions).counts.purged =
      l.size + l.counts.evicted + l.counts.purged + l.created actions := by
  induction actions generalizing l with
  | nil => rfl
  | cons a rest ih =>
    have hrest := ih (h.perform a)
    have hfirst := balance_perform h a
    rw [created]
    show ((l.perform a).2.run rest).size + ((l.perform a).2.run rest).counts.evicted +
      ((l.perform a).2.run rest).counts.purged = _
    omega

/-! ## Decisions -/

theorem decided_perform (h : l.Occupied) (a : Action K) :
    (l.perform a).2.counts.allowed + (l.perform a).2.counts.denied =
      l.counts.allowed + l.counts.denied + if a.isRequest = true then 1 else 0 := by
  cases htouched : a.touched? with
  | some k =>
    have hseating := seating h k
    obtain ⟨e, counts, heq, hcounts⟩ := perform_of_touched (l := l) htouched
    have hdecided := hcounts.decided_eq
    have hsame : (l.seat k).counts.allowed + (l.seat k).counts.denied =
        l.counts.allowed + l.counts.denied := by
      generalize l.seat k = seated at hseating
      cases hseating with
      | held | free | evicted => rfl
    rw [heq, ← hsame]
    exact hdecided
  | none =>
    cases a with
    | request | promote | promoteCaller => cases htouched
    | updatePolicy | purgeIdle | shutDown | retryAfter | isPromoted | contains | tokens => rfl

theorem decided_run (h : l.Occupied) (actions : List (Action K)) :
    (l.run actions).counts.allowed + (l.run actions).counts.denied =
      l.counts.allowed + l.counts.denied + actions.countP Action.isRequest := by
  induction actions generalizing l with
  | nil => rfl
  | cons a rest ih =>
    have hrest := ih (h.perform a)
    have hfirst := decided_perform h a
    rw [List.countP_cons]
    show ((l.perform a).2.run rest).counts.allowed + ((l.perform a).2.run rest).counts.denied = _
    omega

/-! ## Any run -/

theorem Occupied.turn (h : l.Occupied)
    (hmax : l.maxBuckets = max 1 settings.maxBuckets) (a : Action K) : l.Turn settings a where
  made _ hk hafter := touched?_of_made h.sound hk hafter
  contains_touched _ ha := contains_of_touched h.sound ha
  evicts _ harrival hfull := by
    obtain ⟨i, old, e, -, hevicts⟩ := evicts_of_full h harrival (hmax ▸ hfull)
    exact ⟨old, hevicts⟩
  keeps hnot := keeps_of_not_full h (hmax ▸ hnot)

/-- After any uses of any limiter it is in order, every bucket that was made and
every request is accounted for, and whatever comes next evicts one bucket at most,
and only where the cap leaves no room. -/
theorem occupancy (settings : LimiterSettings) (place : K → Nat) (uses : List (Use K)) :
    let actions := uses.filterMap Use.action?
    let l := (new settings place).useAll uses
    l.InOrder settings ∧ (∀ a, l.Turn settings a) ∧
      (new settings place).created actions = l.size + l.counts.evicted + l.counts.purged ∧
      actions.countP Action.isRequest = l.counts.allowed + l.counts.denied := by
  intro actions l
  have hempty := occupied_new settings place
  have hrun : l = (new settings place).run actions := useAll_eq_run _ uses
  have hoccupied : l.Occupied := hrun ▸ hempty.run actions
  have hframe : l.frame = (new settings place).frame := hrun ▸ frame_run _ actions
  have hmax : l.maxBuckets = max 1 settings.maxBuckets := congrArg Frame.maxBuckets hframe
  have hshards : l.shards.length = max 1 settings.shards :=
    (congrArg Frame.shards hframe).trans List.length_replicate
  have hbalance := balance_run hempty actions
  have hdecided := decided_run hempty actions
  rw [← hempty.tracked_eq, ← hrun] at hbalance
  rw [← hrun] at hdecided
  refine ⟨hoccupied.inOrder hshards hmax, hoccupied.turn hmax, ?_, ?_⟩
  · rw [hbalance]
    exact (Nat.zero_add _).symm
  · rw [hdecided]
    exact (Nat.zero_add _).symm

end Tollgate.Rate.Limiter
