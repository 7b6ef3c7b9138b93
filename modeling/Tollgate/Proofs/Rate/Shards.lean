import Mathlib.Data.List.Nodup
import Tollgate.Proofs.Rate.Runs

/-!
# Keys and sizes across shards

A limiter's buckets are spread over its shards, and counted by summing up the
shards' sizes. This module says where a key is, how often, and what changing
one shard does to the sum.

Results:
1. `mem_keys_iff_contains`, `nodup_keys`: with every key in its own shard, the
   keys of all shards are the tracked ones, each once.
2. `size_setShard`, `size_put`: the size after a shard has changed.
3. `occupied?_eq_some`, `occupied?_eq_none`: the search for a shard with a bucket
   finds one unless there is none.
-/

namespace Tollgate.Rate.Limiter

variable {K : Type} {l : Limiter K} {k : K} {i start : Nat} {shard : Recency K Entry}

/-! ## Definitions -/

/-- The keys of all buckets, shard by shard, and in each shard the one touched last
in front. -/
def keys (l : Limiter K) : List K :=
  l.shards.flatMap Recency.keys

/-- Every key is in its own shard. -/
def Homed (l : Limiter K) : Prop :=
  ∀ i, ∀ k ∈ (l.shardAt i).keys, l.home k = i

/-! ## Shards -/

theorem shardAt_of_lt (h : i < l.shards.length) : l.shardAt i = l.shards[i] := by
  rw [shardAt, List.getD_eq_getElem?_getD, List.getElem?_eq_getElem h]
  rfl

theorem shardAt_of_le (h : l.shards.length ≤ i) : l.shardAt i = .empty := by
  rw [shardAt, List.getD_eq_getElem?_getD, List.getElem?_eq_none h]
  rfl

theorem lt_of_mem_keys_shardAt (h : k ∈ (l.shardAt i).keys) : i < l.shards.length := by
  refine Nat.lt_of_not_le fun hle => ?_
  rw [shardAt_of_le hle] at h
  exact List.not_mem_nil h

theorem mem_keys_iff : k ∈ l.keys ↔ ∃ i, k ∈ (l.shardAt i).keys := by
  rw [keys, List.mem_flatMap]
  constructor
  · rintro ⟨shard, hshard, hk⟩
    obtain ⟨i, hi, rfl⟩ := List.mem_iff_getElem.mp hshard
    exact ⟨i, (shardAt_of_lt hi).symm ▸ hk⟩
  · rintro ⟨i, hk⟩
    have hi := lt_of_mem_keys_shardAt hk
    exact ⟨l.shards[i], List.getElem_mem hi, shardAt_of_lt hi ▸ hk⟩

theorem keys_of_one (h : l.shards.length = 1) : l.keys = (l.shardAt 0).keys := by
  obtain ⟨shard, hshards⟩ := List.length_eq_one_iff.mp h
  simp [keys, shardAt, hshards]

theorem keys_setShard_of_one (h : l.shards.length = 1) (shard : Recency K Entry) :
    (l.setShard 0 shard).keys = shard.keys := by
  rw [keys_of_one ((List.length_set ..).trans h), shardAt_setShard_self (h ▸ Nat.zero_lt_one)]

theorem held_cons (shard : Recency K Entry) (rest : List (Recency K Entry)) :
    held (shard :: rest) = shard.size + held rest :=
  rfl

theorem size_eq_length_keys (l : Limiter K) : l.size = l.keys.length := by
  rw [size, keys]
  induction l.shards with
  | nil => rfl
  | cons shard rest ih =>
    rw [held_cons, ih, Recency.size_eq_length_keys, List.flatMap_cons, List.length_append]

theorem nodup_keys (hnodup : ∀ i, (l.shardAt i).keys.Nodup) (hhomed : l.Homed) :
    l.keys.Nodup := by
  refine List.nodup_flatMap.mpr ⟨fun shard hshard => ?_, ?_⟩
  · obtain ⟨i, hi, rfl⟩ := List.mem_iff_getElem.mp hshard
    exact shardAt_of_lt hi ▸ hnodup i
  · refine List.pairwise_iff_getElem.mpr fun i j hi hj hlt k hik hjk => ?_
    have hhome := hhomed i k ((shardAt_of_lt hi).symm ▸ hik)
    rw [hhomed j k ((shardAt_of_lt hj).symm ▸ hjk)] at hhome
    omega

theorem Homed.setShard {shard : Recency K Entry} (h : l.Homed) (hi : i < l.shards.length)
    (hshard : ∀ k ∈ shard.keys, l.home k = i) : (l.setShard i shard).Homed := by
  intro j k hk
  rw [home_setShard]
  by_cases hij : i = j
  · subst hij
    rw [shardAt_setShard_self hi] at hk
    exact hshard k hk
  · rw [shardAt_setShard_of_ne hij] at hk
    exact h j k hk

/-! ## Sizes -/

theorem held_set {shards : List (Recency K Entry)} (h : i < shards.length)
    (shard : Recency K Entry) :
    held (shards.set i shard) + shards[i].size = held shards + shard.size := by
  induction shards generalizing i with
  | nil => exact absurd h (Nat.not_lt_zero i)
  | cons first rest ih =>
    cases i with
    | zero =>
      rw [List.set_cons_zero, held_cons, held_cons, List.getElem_cons_zero]
      omega
    | succ i =>
      have hrest := ih (Nat.lt_of_succ_lt_succ h)
      rw [List.set_cons_succ, held_cons, held_cons, List.getElem_cons_succ]
      omega

theorem size_setShard (h : i < l.shards.length) (shard : Recency K Entry) :
    (l.setShard i shard).size + (l.shardAt i).size = l.size + shard.size := by
  rw [shardAt_of_lt h]
  exact held_set h shard

theorem size_purgeIdle (l : Limiter K) (now : Instant) :
    (l.purgeIdle now).1 + (l.purgeIdle now).2.size = l.size := by
  have hle : ∀ (kind : K → Entry → Bool) (shards : List (Recency K Entry)),
      held (shards.map (·.filter kind)) ≤ held shards := by
    intro kind shards
    induction shards with
    | nil => exact Nat.le_refl 0
    | cons shard rest ih => exact Nat.add_le_add (List.length_filter_le _ _) ih
  exact Nat.sub_add_cancel (hle _ _)

/-! ## Occupied shards -/

theorem occupied?_eq_some (h : l.occupied? start = some i) :
    i < l.shards.length ∧ ∃ old e, (l.shardAt i).oldest? = some (old, e) := by
  have hin := List.mem_of_find?_eq_some h
  have hfull := List.find?_some h
  obtain ⟨offset, hoffset, rfl⟩ := List.mem_map.mp hin
  have hlt := List.mem_range.mp hoffset
  refine ⟨Nat.mod_lt _ (by omega), ?_⟩
  cases hlast : (l.shardAt ((start + offset) % l.shards.length)).oldest? with
  | none =>
    rw [Recency.oldest?, List.getLast?_eq_none_iff] at hlast
    simp [Recency.isEmpty, hlast] at hfull
  | some entry => exact ⟨entry.1, entry.2, rfl⟩

/-- The search goes around, so that it comes to every shard. -/
theorem exists_offset (start : Nat) {n : Nat} (h : i < n) :
    ∃ offset < n, (start + offset) % n = i := by
  have hpos : 0 < n := Nat.zero_lt_of_lt h
  have hstart := Nat.mod_lt start hpos
  refine ⟨(i + (n - start % n)) % n, Nat.mod_lt _ hpos, ?_⟩
  calc (start + (i + (n - start % n)) % n) % n
      = (start % n + (i + (n - start % n))) % n := by rw [Nat.add_mod_mod, Nat.mod_add_mod]
    _ = (i + n) % n := by congr 1; omega
    _ = i := by rw [Nat.add_mod_right, Nat.mod_eq_of_lt h]

theorem occupied?_eq_none (h : l.occupied? start = none) : l.size = 0 := by
  have hempty : l.keys = [] := by
    refine List.flatMap_eq_nil_iff.mpr fun shard hshard => ?_
    obtain ⟨i, hi, rfl⟩ := List.mem_iff_getElem.mp hshard
    obtain ⟨offset, hoffset, hindex⟩ := exists_offset start hi
    have hnot := List.find?_eq_none.mp h i
      (List.mem_map.mpr ⟨offset, List.mem_range.mpr hoffset, hindex⟩)
    rw [shardAt_of_lt hi] at hnot
    simpa [Recency.isEmpty, Recency.keys] using hnot
  rw [size_eq_length_keys, hempty]
  rfl

/-! ## Tracked keys -/

variable [DecidableEq K]

theorem contains_iff : l.contains k = true ↔ k ∈ (l.shardAt (l.home k)).keys :=
  Recency.isSome_find?_iff

theorem mem_keys_iff_contains (h : l.Homed) : k ∈ l.keys ↔ l.contains k = true := by
  rw [mem_keys_iff, contains_iff]
  constructor
  · rintro ⟨i, hk⟩
    exact (h i k hk).symm ▸ hk
  · intro hk
    exact ⟨_, hk⟩

theorem find?_setShard {i : Nat} {shard : Recency K Entry} (hi : i < l.shards.length) (k : K) :
    (l.setShard i shard).find? k = if l.home k = i then shard.find? k else l.find? k := by
  rw [find?, home_setShard]
  split
  · next h => rw [h, shardAt_setShard_self hi]
  · next h => rw [shardAt_setShard_of_ne (Ne.symm h), find?]

theorem size_put (h : l.Sound) (k : K) (e : Entry) :
    (l.put k e).size = l.size + if l.contains k = true then 0 else 1 := by
  have hset := size_setShard (home_lt h.shards_pos k) ((l.shardAt (l.home k)).put k e)
  have hput := Recency.size_put (k := k) e (h.keys_nodup (l.home k))
  simp only [contains_iff]
  rw [put]
  omega

end Tollgate.Rate.Limiter
