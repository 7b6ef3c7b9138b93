import Tollgate.Proofs.Rate.Shards

/-!
# Slots for buckets

The number of taken slots is kept apart from the shards that it counts. A new
key takes a slot, or that of an evicted bucket, before its bucket is put. This
module says what can happen to the slots in one action, and what they keep to
in every run.

Results:
1. `seating`: a key that is tracked needs no slot; a new key gets a free one, or
   exactly at the cap that of the bucket touched longest ago in some shard. There
   is always one of these to be had.
2. `perform_of_touched`: what an action that uses a bucket makes of the limiter.
3. `Occupied.perform`, `Occupied.run`: the slots taken are as many as the
   buckets, within the cap, and every key is in its own shard.
4. `frame_run`: no run changes what the limiter is built from.
-/

namespace Tollgate.Rate

/-! ## Definitions -/

namespace Action

variable {K : Type}

/-- The key whose bucket the action uses; it is made if there is none. -/
def touched? : Action K → Option K
  | .request k _ | .promote k _ | .promoteCaller k _ _ => some k
  | _ => none

def isRequest : Action K → Bool
  | .request _ _ => true
  | _ => false

/-- Whether the action may drop buckets that have been left alone. -/
def purges : Action K → Bool
  | .purgeIdle _ => true
  | _ => false

end Action

/-- One use of a limiter: an action, or a look at the whole of it, which shows its
counts, its policy, its size or whether it is shut down and leaves it as it is. -/
inductive Use (K : Type)
  | act (a : Action K)
  | stats
  | policy
  | size
  | isShutDown

namespace Use

variable {K : Type}

def action? : Use K → Option (Action K)
  | .act a => some a
  | _ => none

def purges : Use K → Bool
  | .act a => a.purges
  | _ => false

end Use

/-- What is counted once the slots are settled: a decision with each request, and
no evictions or purges. -/
structure Counts.After {K : Type} (a : Action K) (before after : Counts) : Prop where
  evicted_eq : after.evicted = before.evicted
  purged_eq : after.purged = before.purged
  decided_eq : after.allowed + after.denied =
    before.allowed + before.denied + if a.isRequest = true then 1 else 0

/-- What a limiter is built from. -/
structure Frame (K : Type) where
  shards : Nat
  place : K → Nat
  maxBuckets : Nat
  idleTtl : Duration

namespace Limiter

def frame {K : Type} (l : Limiter K) : Frame K :=
  ⟨l.shards.length, l.place, l.maxBuckets, l.idleTtl⟩

/-- What the slots keep to in every run. -/
structure Occupied {K : Type} (l : Limiter K) : Prop where
  sound : l.Sound
  homed : l.Homed
  tracked_eq : l.tracked = l.size
  size_le : l.size ≤ l.maxBuckets
  one_le : 1 ≤ l.maxBuckets

section Definitions

variable {K : Type} [DecidableEq K]

/-- The limiter after a use. -/
def use (l : Limiter K) : Use K → Limiter K
  | .act a => (l.perform a).2
  | .stats | .policy | .size | .isShutDown => l

def useAll (l : Limiter K) (uses : List (Use K)) : Limiter K :=
  uses.foldl use l

/-- The limiter with a slot for the bucket of `k`. -/
def seat (l : Limiter K) (k : K) : Limiter K :=
  if l.contains k then l else l.reserveSlot (l.home k)

/-- How a key comes to its slot. -/
inductive Seating (l : Limiter K) (k : K) : Limiter K → Prop
  | held : l.contains k = true → Seating l k l
  | free :
      l.contains k = false → l.size < l.maxBuckets →
      Seating l k { l with tracked := l.tracked + 1 }
  | evicted {i : Nat} {old : K} {e : Entry} :
      l.contains k = false → l.size = l.maxBuckets → i < l.shards.length →
      (l.shardAt i).oldest? = some (old, e) →
      Seating l k { l.setShard i (l.shardAt i).dropOldest with
        counts := { l.counts with evicted := l.counts.evicted + 1 } }

end Definitions

variable {K : Type} {l : Limiter K} {now : Instant}

/-! ## The frame -/

theorem frame_setShard (l : Limiter K) (i : Nat) (shard : Recency K Entry) :
    (l.setShard i shard).frame = l.frame := by
  rw [frame, frame, setShard, List.length_set]

/-! ## The invariant -/

/-- A search for a bucket to evict cannot fail when there is no free slot. -/
theorem Occupied.room_or_occupied (h : l.Occupied) (start : Nat) :
    l.tracked < l.maxBuckets ∨ ∃ i, l.occupied? start = some i := by
  rcases Nat.lt_or_ge l.tracked l.maxBuckets with hroom | hfull
  · exact .inl hroom
  · cases hsearch : l.occupied? start with
    | some i => exact .inr ⟨i, rfl⟩
    | none =>
      have hsize := occupied?_eq_none hsearch
      have htracked := h.tracked_eq
      have hone := h.one_le
      omega

theorem Occupied.purgeIdle (h : l.Occupied) (now : Instant) :
    (l.purgeIdle now).2.Occupied := by
  have htracked := h.tracked_eq
  have hle := h.size_le
  have hsize := size_purgeIdle l now
  refine ⟨h.sound.purgeIdle now, fun i k hk => ?_, ?_, ?_, h.one_le⟩
  · rw [home_purgeIdle]
    refine h.homed i k ?_
    rw [shardAt_purgeIdle] at hk
    exact (List.filter_sublist.map _).subset hk
  · show l.tracked - (l.purgeIdle now).1 = (l.purgeIdle now).2.size
    omega
  · show (l.purgeIdle now).2.size ≤ l.maxBuckets
    omega

theorem keys_new (settings : LimiterSettings) (place : K → Nat) :
    (new settings place).keys = [] := by
  refine List.flatMap_eq_nil_iff.mpr fun shard hin => ?_
  rw [List.eq_of_mem_replicate hin]
  rfl

theorem occupied_new (settings : LimiterSettings) (place : K → Nat) :
    (new settings place).Occupied := by
  have hkeys := keys_new settings place
  have hsize : (new settings place).size = 0 := by
    rw [size_eq_length_keys, hkeys]
    rfl
  refine ⟨sound_new settings place, fun i k hk => ?_, hsize.symm, ?_, Nat.le_max_left _ _⟩
  · have hin := mem_keys_iff.mpr ⟨i, hk⟩
    rw [hkeys] at hin
    exact absurd hin List.not_mem_nil
  · rw [hsize]
    exact Nat.zero_le _

variable [DecidableEq K] {k k' : K} {e : Entry} {a : Action K}

/-! ## Slots -/

theorem seating (h : l.Occupied) (k : K) : Seating l k (l.seat k) := by
  have htracked := h.tracked_eq
  have hle := h.size_le
  unfold seat
  split
  · next hk => exact .held hk
  · next hk =>
    have hk : l.contains k = false := Bool.of_not_eq_true hk
    unfold reserveSlot
    split
    · next hroom => exact .free hk (by omega)
    · next hfull =>
      rcases h.room_or_occupied (l.home k) with hroom | ⟨i, hi⟩
      · exact absurd hroom hfull
      · obtain ⟨hlt, old, e, hold⟩ := occupied?_eq_some hi
        rw [hi]
        exact .evicted hk (by omega) hlt hold

theorem snd_entryFor (l : Limiter K) (k : K) (tier : Tier) (now : Instant) :
    (l.entryFor k tier now).2 = l.seat k := by
  unfold entryFor seat contains
  split <;> simp [*]

theorem sound_seat (h : l.Sound) (k : K) : (l.seat k).Sound := by
  rw [← snd_entryFor l k .default 0]
  exact h.snd_entryFor k .default 0

theorem frame_seat (l : Limiter K) (k : K) : (l.seat k).frame = l.frame := by
  unfold seat reserveSlot
  split
  · rfl
  split
  · rfl
  split
  · exact frame_setShard l _ _
  · rfl

/-! ## Actions that use a bucket -/

/-- The key takes its seat, its entry is put, and the action is counted. -/
theorem perform_of_touched (ha : a.touched? = some k) : ∃ e counts,
    (l.perform a).2 = { (l.seat k).put k e with counts } ∧
      Counts.After a (l.seat k).counts counts := by
  cases a with
  | request k now =>
    cases ha
    simp only [perform, admitAt, snd_entryFor]
    split <;> exact ⟨_, _, rfl, rfl, rfl, by simp [put, setShard, Action.isRequest]; omega⟩
  | promote k now =>
    cases ha
    simp only [perform, promote, setTier, snd_entryFor]
    exact ⟨_, _, rfl, rfl, rfl, rfl⟩
  | promoteCaller k limits now =>
    cases ha
    simp only [perform, promoteCaller, setTier, snd_entryFor]
    exact ⟨_, _, rfl, rfl, rfl, rfl⟩
  | _ => cases ha

theorem contains_of_touched (h : l.Sound) (ha : a.touched? = some k) :
    (l.perform a).2.contains k = true := by
  obtain ⟨e, counts, heq, -⟩ := perform_of_touched (l := l) ha
  rw [heq]
  exact congrArg Option.isSome (find?_put_self (sound_seat h k).shards_pos k e)

/-- Only seatings evict. -/
theorem evicted_of_touched (ha : a.touched? = some k) :
    (l.perform a).2.counts.evicted = (l.seat k).counts.evicted := by
  obtain ⟨e, counts, heq, hcounts⟩ := perform_of_touched (l := l) ha
  rw [heq]
  exact hcounts.evicted_eq

/-- All other keys are found as after the seating. -/
theorem find?_of_touched (h : l.Sound) (ha : a.touched? = some k) (hne : k' ≠ k) :
    (l.perform a).2.find? k' = (l.seat k).find? k' := by
  obtain ⟨e, counts, heq, -⟩ := perform_of_touched (l := l) ha
  rw [heq]
  exact find?_put_of_ne (sound_seat h k).shards_pos e hne

/-- An action that does not use the bucket of `k` leaves it as it is, or drops it. -/
theorem find?_of_untouched (h : l.Sound) (ha : a.touched? ≠ some k) :
    (l.perform a).2.find? k = l.find? k ∨ (l.perform a).2.find? k = none := by
  cases a with
  | request k' now | promote k' now | promoteCaller k' limits now =>
    have hne : k' ≠ k := fun heq => ha (congrArg some heq)
    exact find?_perform h (by simp [Action.requests, hne]) (by simp [Action.relimits, hne])
  | purgeIdle now => exact find?_perform h rfl rfl
  | updatePolicy | shutDown | retryAfter | isPromoted | contains | tokens => exact .inl rfl

/-! ## Evictions -/

variable {i : Nat} {old : K}

theorem Occupied.contains_oldest (h : l.Occupied) (hold : (l.shardAt i).oldest? = some (old, e)) :
    l.contains old = true := by
  refine (mem_keys_iff_contains h.homed).mp (mem_keys_iff.mpr ⟨i, ?_⟩)
  rw [Recency.keys_of_oldest? hold]
  exact List.mem_concat_self

/-- Exactly the bucket touched longest ago in the shard is gone. -/
theorem Occupied.find?_dropOldest (h : l.Occupied) (hi : i < l.shards.length)
    (hold : (l.shardAt i).oldest? = some (old, e)) (k : K) :
    (l.setShard i (l.shardAt i).dropOldest).find? k = if k = old then none else l.find? k := by
  have hhome : l.home old = i := by
    refine h.homed i old ?_
    rw [Recency.keys_of_oldest? hold]
    exact List.mem_concat_self
  rw [find?_setShard hi]
  by_cases hk : k = old
  · subst hk
    rw [if_pos hhome, if_pos rfl, Recency.find?_dropOldest_self (h.sound.keys_nodup i) hold]
  · rw [if_neg hk]
    split
    · next hsame => rw [Recency.find?_dropOldest_of_ne hold hk, find?, hsame]
    · rfl

theorem contains_seat (h : l.Occupied) (k : K) : (l.seat k).contains k = l.contains k := by
  have hseating := seating h k
  generalize l.seat k = seated at hseating
  cases hseating with
  | held | free => rfl
  | evicted hk _ hi hold =>
    have hne : k ≠ _ := fun heq => by
      rw [heq, h.contains_oldest hold] at hk
      cases hk
    refine congrArg Option.isSome ?_
    exact (h.find?_dropOldest hi hold k).trans (if_neg hne)

/-! ## What the slots keep to -/

theorem Homed.put (h : l.Homed) (hpos : 0 < l.shards.length) (k : K) (e : Entry) :
    (l.put k e).Homed := by
  refine h.setShard (home_lt hpos k) fun k' hk' => ?_
  rcases Recency.mem_keys_put hk' with rfl | hin
  · rfl
  · exact h _ k' hin

/-- After the seating of a key there is a slot for its bucket. -/
structure Seated (l : Limiter K) (k : K) (seated : Limiter K) : Prop where
  homed : seated.Homed
  tracked_eq : seated.tracked = seated.size + if l.contains k = true then 0 else 1
  tracked_le : seated.tracked ≤ seated.maxBuckets
  maxBuckets_eq : seated.maxBuckets = l.maxBuckets

theorem Occupied.seated (h : l.Occupied) (k : K) : Seated l k (l.seat k) := by
  have hseating := seating h k
  have htracked := h.tracked_eq
  have hle := h.size_le
  generalize l.seat k = seated at hseating
  cases hseating with
  | held hk => exact ⟨h.homed, by rw [if_pos hk]; exact htracked, by omega, rfl⟩
  | free hk hroom =>
    refine ⟨h.homed, ?_, ?_, rfl⟩
    · rw [hk]
      exact congrArg (· + 1) htracked
    · show l.tracked + 1 ≤ l.maxBuckets
      omega
  | @evicted i old e hk hfull hi hold =>
    have hsize := size_setShard hi (l.shardAt i).dropOldest
    have hshard : (l.shardAt i).size = (l.shardAt i).dropOldest.size + 1 := by
      rw [Recency.size, Recency.entries_of_oldest? hold, List.length_append]
      rfl
    refine ⟨?_, ?_, ?_, rfl⟩
    · refine h.homed.setShard hi fun k' hk' => h.homed i k' ?_
      rw [Recency.keys_dropOldest] at hk'
      exact List.dropLast_subset _ hk'
    · rw [hk]
      show l.tracked = (l.setShard i (l.shardAt i).dropOldest).size + 1
      omega
    · show l.tracked ≤ l.maxBuckets
      omega

theorem Occupied.of_touched (h : l.Occupied) (ha : a.touched? = some k) :
    (l.perform a).2.Occupied := by
  have hseated := h.seated k
  have hsound := (sound_seat h.sound k)
  have hperform := h.sound.perform a
  obtain ⟨e, counts, heq, -⟩ := perform_of_touched (l := l) ha
  have hsize : ((l.seat k).put k e).size = (l.seat k).tracked := by
    rw [size_put hsound, contains_seat h, hseated.tracked_eq]
  rw [heq] at hperform ⊢
  refine ⟨hperform, hseated.homed.put hsound.shards_pos k e, hsize.symm, ?_, ?_⟩
  · show ((l.seat k).put k e).size ≤ (l.seat k).maxBuckets
    rw [hsize]
    exact hseated.tracked_le
  · show 1 ≤ (l.seat k).maxBuckets
    rw [hseated.maxBuckets_eq]
    exact h.one_le

theorem Occupied.perform (h : l.Occupied) (a : Action K) : (l.perform a).2.Occupied := by
  cases a with
  | request k now => exact h.of_touched rfl
  | promote k now => exact h.of_touched rfl
  | promoteCaller k limits now => exact h.of_touched rfl
  | updatePolicy policy =>
    exact ⟨h.sound.updatePolicy policy, h.homed, h.tracked_eq, h.size_le, h.one_le⟩
  | purgeIdle now => exact h.purgeIdle now
  | shutDown =>
    exact ⟨h.sound.perform .shutDown, h.homed, h.tracked_eq, h.size_le, h.one_le⟩
  | retryAfter | isPromoted | contains | tokens => exact h

theorem frame_perform (l : Limiter K) (a : Action K) : (l.perform a).2.frame = l.frame := by
  cases htouched : a.touched? with
  | some k =>
    obtain ⟨e, counts, heq, -⟩ := perform_of_touched (l := l) htouched
    rw [heq]
    exact (frame_setShard (l.seat k) _ _).trans (frame_seat l k)
  | none =>
    cases a with
    | request | promote | promoteCaller => cases htouched
    | purgeIdle now => simp [frame, perform, Limiter.purgeIdle]
    | updatePolicy | shutDown | retryAfter | isPromoted | contains | tokens => rfl

/-! ## Runs -/

/-- Only the actions among the uses matter. -/
theorem useAll_eq_run (l : Limiter K) (uses : List (Use K)) :
    l.useAll uses = l.run (uses.filterMap Use.action?) := by
  induction uses generalizing l with
  | nil => rfl
  | cons u rest ih =>
    cases u with
    | act a => exact ih (l.perform a).2
    | stats | policy | size | isShutDown => exact ih l

theorem Occupied.run (h : l.Occupied) (actions : List (Action K)) : (l.run actions).Occupied := by
  induction actions generalizing l with
  | nil => exact h
  | cons a rest ih => exact ih (h.perform a)

theorem frame_run (l : Limiter K) (actions : List (Action K)) : (l.run actions).frame = l.frame := by
  induction actions generalizing l with
  | nil => rfl
  | cons a rest ih => exact (ih (l.perform a).2).trans (frame_perform l a)

end Limiter

end Tollgate.Rate
