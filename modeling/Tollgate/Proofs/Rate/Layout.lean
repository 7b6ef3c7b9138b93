import Tollgate.Proofs.Rate.Isolation

/-!
# Where buckets are

Which keys a limiter tracks, in which order, and when each of them was last touched does
not depend on what the buckets hold, nor on the policies that they follow. Two limiters
with one layout evict and purge the same keys in the same actions, and keep one layout,
even where their policies differ.

Results:
1. `SameLayout.contains_eq`: with one layout, the same keys are tracked.
2. `SameLayout.seat`, `SameLayout.put`, `SameLayout.purgeIdle`: what keeps up a layout.
3. `stamp_touched`: a touch leaves the later one of the last touch and its own
   instant.
4. `SameLayout.perform`, `SameLayout.updatePolicy_left`: a common action and a policy of
   only one side keep it up.
-/

namespace Tollgate.Rate

/-! ## Definitions -/

/-- What the clock of the bucket shows: the latest instant it was touched at. -/
def Entry.stamp (e : Entry) : Instant :=
  e.bucket.lastRefill

/-- A use of a bucket that touches it. -/
inductive Touch
  | request
  | promote
  | promoteCaller (limits : Limits)
deriving DecidableEq

namespace Touch

/-- The touch of a key at an instant. -/
def action {K : Type} (k : K) (now : Instant) : Touch → Action K
  | request => .request k now
  | promote => .promote k now
  | promoteCaller limits => .promoteCaller k limits now

/-- The tier that a bucket of some tier is in after the touch. -/
def tier (old : Tier) : Touch → Tier
  | request => old
  | promote => .promoted
  | promoteCaller limits => .custom limits

end Touch

namespace Limiter

variable {K : Type}

/-- The keys of each shard in the order of their last touches, and when these were. -/
def stamps (l : Limiter K) : List (Recency K Instant) :=
  l.shards.map (Recency.mapValues Entry.stamp)

/-- The limiters track the same keys, touched last at the same instants and in the same
order, and are built alike. -/
structure SameLayout (l l' : Limiter K) : Prop where
  frame_eq : l.frame = l'.frame
  tracked_eq : l.tracked = l'.tracked
  stamps_eq : l.stamps = l'.stamps

end Limiter

/-! ## Entries -/

namespace Touch

variable {K : Type} {k : K} {a : Action K}

theorem touched?_action (touch : Touch) (k : K) (now : Instant) :
    (touch.action k now).touched? = some k := by
  cases touch <;> rfl

theorem exists_touch (ha : a.touched? = some k) : ∃ touch now, a = action k now touch := by
  cases a with
  | request k' now =>
    cases ha
    exact ⟨.request, now, rfl⟩
  | promote k' now =>
    cases ha
    exact ⟨.promote, now, rfl⟩
  | promoteCaller k' limits now =>
    cases ha
    exact ⟨.promoteCaller limits, now, rfl⟩
  | _ => cases ha

end Touch

namespace Entry

theorem stamp_retier (e : Entry) (tier : Tier) (edition : Edition) (now : Instant) :
    (e.retier tier edition now).stamp = max e.stamp now :=
  Bucket.lastRefill_refill e.bucket now

theorem stamp_consume (e : Entry) (now : Instant) : (e.consume now).stamp = max e.stamp now :=
  Bucket.lastRefill_tryConsume e.bucket now

theorem max_stamp_sync (e : Entry) (edition : Edition) (now : Instant) :
    max (e.sync edition now).stamp now = max e.stamp now := by
  unfold sync
  split
  · rfl
  · rw [stamp_retier, Int.max_assoc, Int.max_self]

end Entry

/-! ## Shards -/

namespace Limiter

variable {K : Type} {l l' : Limiter K} {shard shard' : Recency K Entry}

theorem keys_eq_flatMap_stamps (l : Limiter K) : l.keys = l.stamps.flatMap Recency.keys := by
  rw [keys, stamps, List.flatMap_map]
  exact congrArg (l.shards.flatMap ·) (funext fun shard => (Recency.keys_mapValues _ shard).symm)

namespace SameLayout

theorem refl (l : Limiter K) : SameLayout l l :=
  ⟨rfl, rfl, rfl⟩

theorem length_eq (h : SameLayout l l') : l.shards.length = l'.shards.length :=
  congrArg Frame.shards h.frame_eq

theorem home_eq (h : SameLayout l l') (k : K) : l.home k = l'.home k := by
  have hplace : l.place = l'.place := congrArg Frame.place h.frame_eq
  rw [home, home, hplace, h.length_eq]

theorem shardAt_eq (h : SameLayout l l') (i : Nat) :
    (l.shardAt i).mapValues Entry.stamp = (l'.shardAt i).mapValues Entry.stamp := by
  have hstamps := congrArg (fun shards => (shards[i]?).getD .empty) h.stamps_eq
  simp only [stamps, List.getElem?_map] at hstamps
  have hshard (l : Limiter K) : (l.shardAt i).mapValues Entry.stamp =
      ((l.shards[i]?).map (Recency.mapValues Entry.stamp)).getD .empty := by
    rw [shardAt, List.getD_eq_getElem?_getD]
    cases l.shards[i]? <;> rfl
  rw [hshard, hshard, hstamps]

theorem keys_eq (h : SameLayout l l') : l.keys = l'.keys := by
  rw [keys_eq_flatMap_stamps, keys_eq_flatMap_stamps, h.stamps_eq]

theorem size_eq (h : SameLayout l l') : l.size = l'.size := by
  rw [size_eq_length_keys, size_eq_length_keys, h.keys_eq]

theorem occupied?_eq (h : SameLayout l l') (start : Nat) :
    l.occupied? start = l'.occupied? start := by
  have hempty : (fun index => !(l.shardAt index).isEmpty) =
      fun index => !(l'.shardAt index).isEmpty := by
    funext index
    rw [← Recency.isEmpty_mapValues Entry.stamp, h.shardAt_eq, Recency.isEmpty_mapValues]
  rw [occupied?, occupied?, h.length_eq, hempty]

theorem setShard (h : SameLayout l l') (i : Nat)
    (hshard : shard.mapValues Entry.stamp = shard'.mapValues Entry.stamp) :
    SameLayout (l.setShard i shard) (l'.setShard i shard') := by
  refine ⟨?_, h.tracked_eq, ?_⟩
  · rw [frame_setShard, frame_setShard, h.frame_eq]
  · have hstamps := h.stamps_eq
    simp only [stamps, Limiter.setShard, List.map_set] at hstamps ⊢
    rw [hstamps, hshard]

theorem reserveSlot (h : SameLayout l l') (start : Nat) :
    SameLayout (l.reserveSlot start) (l'.reserveSlot start) := by
  have hmax : l.maxBuckets = l'.maxBuckets := congrArg Frame.maxBuckets h.frame_eq
  have hroom : l.tracked < l.maxBuckets ↔ l'.tracked < l'.maxBuckets := by
    rw [h.tracked_eq, hmax]
  have htaken : SameLayout { l with tracked := l.tracked + 1 }
      { l' with tracked := l'.tracked + 1 } :=
    ⟨h.frame_eq, congrArg (· + 1) h.tracked_eq, h.stamps_eq⟩
  unfold Limiter.reserveSlot
  rw [h.occupied?_eq]
  by_cases hfree : l'.tracked < l'.maxBuckets
  · rw [if_pos hfree, if_pos (hroom.mpr hfree)]
    exact htaken
  · rw [if_neg hfree, if_neg (fun hlt => hfree (hroom.mp hlt))]
    cases l'.occupied? start with
    | none => exact htaken
    | some index =>
      have hdrop : (l.shardAt index).dropOldest.mapValues Entry.stamp =
          (l'.shardAt index).dropOldest.mapValues Entry.stamp := by
        rw [← Recency.dropOldest_mapValues, ← Recency.dropOldest_mapValues, h.shardAt_eq]
      have hset := h.setShard index hdrop
      exact ⟨hset.frame_eq, hset.tracked_eq, hset.stamps_eq⟩

/-- A new policy on one side changes no layout. -/
theorem updatePolicy_left (h : SameLayout l l') (policy : Policy) :
    SameLayout (l.updatePolicy policy) l' :=
  ⟨h.frame_eq, h.tracked_eq, h.stamps_eq⟩

/-- A bucket is idle by its last touch alone. -/
theorem purgeIdle (h : SameLayout l l') (now : Instant) :
    SameLayout (l.purgeIdle now).2 (l'.purgeIdle now).2 := by
  have hidle : l.idleTtl = l'.idleTtl := congrArg Frame.idleTtl h.frame_eq
  have hframe : (l.purgeIdle now).2.frame = (l'.purgeIdle now).2.frame := by
    have hsame := h.frame_eq
    simp only [frame, Limiter.purgeIdle, List.length_map] at hsame ⊢
    exact hsame
  have hpurged (l : Limiter K) : (l.purgeIdle now).2.stamps = l.stamps.map fun shard =>
      shard.filter fun _ stamp => !decide (l.idleTtl.nanos ≤ now.since stamp) := by
    simp only [stamps, Limiter.purgeIdle, List.map_map]
    exact List.map_congr_left fun shard _ => (Recency.filter_mapValues Entry.stamp
      (fun _ stamp => !decide (l.idleTtl.nanos ≤ now.since stamp)) shard).symm
  have hstamps : (l.purgeIdle now).2.stamps = (l'.purgeIdle now).2.stamps := by
    rw [hpurged, hpurged, h.stamps_eq, hidle]
  have hkeys : (l.purgeIdle now).2.keys = (l'.purgeIdle now).2.keys := by
    rw [keys_eq_flatMap_stamps, keys_eq_flatMap_stamps, hstamps]
  have hcount : (l.purgeIdle now).1 = (l'.purgeIdle now).1 := by
    have hsize := size_purgeIdle l now
    have hsize' := size_purgeIdle l' now
    rw [size_eq_length_keys (l.purgeIdle now).2, hkeys, ← size_eq_length_keys, h.size_eq] at hsize
    omega
  refine ⟨hframe, ?_, hstamps⟩
  show l.tracked - (l.purgeIdle now).1 = l'.tracked - (l'.purgeIdle now).1
  rw [h.tracked_eq, hcount]

end SameLayout

/-! ## Touches -/

variable [DecidableEq K]

/-- The entry that a touch leaves. -/
def touched (l : Limiter K) (k : K) (now : Instant) : Touch → Entry
  | .request => (l.deciding k now).consume now
  | .promote => promotedTo .promoted
  | .promoteCaller limits => promotedTo (.custom limits)
where
  /-- The entry that a promotion to a tier leaves. -/
  promotedTo (tier : Tier) : Entry :=
    ((l.find? k).getD (.fresh tier l.edition now)).retier tier l.edition now

theorem find?_touched (h : l.Sound) (k : K) (now : Instant) (touch : Touch) :
    (l.perform (touch.action k now)).2.find? k = some (l.touched k now touch) := by
  cases touch with
  | request => exact find?_request_self h k now
  | promote => exact find?_setTier_self h k .promoted now
  | promoteCaller limits => exact find?_setTier_self h k (.custom limits) now

/-- However a bucket is touched, its clock is not set back. -/
theorem stamp_touched (l : Limiter K) (k : K) (now : Instant) (touch : Touch) :
    (l.touched k now touch).stamp = max (((l.find? k).map Entry.stamp).getD now) now := by
  have hfound (tier : Tier) : ((l.find? k).getD (.fresh tier l.edition now)).stamp =
      ((l.find? k).map Entry.stamp).getD now := by
    cases l.find? k <;> rfl
  cases touch with
  | request => rw [touched, Entry.stamp_consume, deciding, Entry.max_stamp_sync, hfound]
  | promote | promoteCaller => rw [touched, touched.promotedTo, Entry.stamp_retier, hfound]

namespace SameLayout

theorem find?_eq (h : SameLayout l l') (k : K) :
    (l.find? k).map Entry.stamp = (l'.find? k).map Entry.stamp := by
  rw [find?, find?, ← Recency.find?_mapValues, ← Recency.find?_mapValues, h.home_eq, h.shardAt_eq]

theorem contains_eq (h : SameLayout l l') (k : K) : l.contains k = l'.contains k := by
  rw [contains, contains, ← Option.isSome_map, h.find?_eq, Option.isSome_map]

theorem seat (h : SameLayout l l') (k : K) : SameLayout (l.seat k) (l'.seat k) := by
  unfold Limiter.seat
  rw [h.contains_eq, h.home_eq]
  split
  · exact h
  · exact h.reserveSlot _

theorem put {e e' : Entry} (h : SameLayout l l') (k : K) (he : e.stamp = e'.stamp) :
    SameLayout (l.put k e) (l'.put k e') := by
  rw [Limiter.put, Limiter.put, h.home_eq]
  refine h.setShard _ ?_
  rw [← Recency.put_mapValues, ← Recency.put_mapValues, h.shardAt_eq, he]

theorem touch (h : SameLayout l l') (hl : l.Sound) (hl' : l'.Sound) (touch : Touch) (k : K)
    (now : Instant) :
    SameLayout (l.perform (touch.action k now)).2 (l'.perform (touch.action k now)).2 := by
  have hentry := find?_touched hl k now touch
  have hentry' := find?_touched hl' k now touch
  obtain ⟨e, counts, heq, -⟩ := perform_of_touched (l := l) (touch.touched?_action k now)
  obtain ⟨e', counts', heq', -⟩ := perform_of_touched (l := l') (touch.touched?_action k now)
  have he : some e = some (l.touched k now touch) := by
    rw [← hentry, heq]
    exact (find?_put_self (sound_seat hl k).shards_pos k e).symm
  have he' : some e' = some (l'.touched k now touch) := by
    rw [← hentry', heq']
    exact (find?_put_self (sound_seat hl' k).shards_pos k e').symm
  have hstamp : e.stamp = e'.stamp := by
    rw [Option.some.inj he, Option.some.inj he', stamp_touched, stamp_touched, h.find?_eq]
  have hput := (h.seat k).put k hstamp
  rw [heq, heq']
  exact ⟨hput.frame_eq, hput.tracked_eq, hput.stamps_eq⟩

theorem perform (h : SameLayout l l') (hl : l.Sound) (hl' : l'.Sound) (a : Action K) :
    SameLayout (l.perform a).2 (l'.perform a).2 := by
  cases ha : a.touched? with
  | some k =>
    obtain ⟨touch, now, rfl⟩ := Touch.exists_touch ha
    exact h.touch hl hl' touch k now
  | none =>
    cases a with
    | request | promote | promoteCaller => cases ha
    | updatePolicy | shutDown => exact ⟨h.frame_eq, h.tracked_eq, h.stamps_eq⟩
    | purgeIdle now => exact h.purgeIdle now
    | retryAfter | isPromoted | contains | tokens => exact h

end SameLayout

end Limiter

end Tollgate.Rate
