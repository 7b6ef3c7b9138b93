import Tollgate.Proofs.Rate.Credit
import Tollgate.Proofs.Recency
import Tollgate.Rate.Limiter

/-!
# Runs of a limiter

A limiter is used one action after another. This module names the actions,
defines runs of them and proves what holds of a limiter after every run.

Results:
1. `sound_of_reachable`: after every run each shard has one entry for a key,
   every bucket is below its ceiling, and a bucket of the current generation
   has the limits of its tier.
2. `find?_request_self`: what a request makes of the entry of its key.
3. `find?_perform`: an action on other keys leaves a key's entry as it is, as
   long as the key stays tracked.
-/

namespace Tollgate.Rate

/-! ## Definitions -/

/-- One use of a limiter. What reads the clock is given the instant it shows. -/
inductive Action (K : Type)
  | request (k : K) (now : Instant)
  | promote (k : K) (now : Instant)
  | promoteCaller (k : K) (limits : Limits) (now : Instant)
  | updatePolicy (policy : Policy)
  | purgeIdle (now : Instant)
  | shutDown
  | retryAfter (k : K) (now : Instant)
  | isPromoted (k : K)
  | contains (k : K)
  | tokens (k : K)
deriving DecidableEq

/-- What an action tells its caller. -/
inductive Answer
  | silent
  | admission (decision : Admission)
  | purged (count : Nat)
  | wait (duration : Duration)
  | flag (holds : Bool)
  | tokens (held : Option Float)

/-- Whether the answer is that a request is allowed. -/
def Answer.isAllowed : Answer → Bool
  | .admission decision => decision.isAllowed
  | _ => false

namespace Action

variable {K : Type} [DecidableEq K]

/-- Whether the action is a request of `k`. -/
def requests (k : K) : Action K → Bool
  | .request k' _ => k' = k
  | _ => false

/-- Whether the action may change the limits of `k`: a promotion of `k`, or a
new policy. -/
def relimits (k : K) : Action K → Bool
  | .promote k' _ | .promoteCaller k' _ _ => k' = k
  | .updatePolicy _ => true
  | _ => false

end Action

namespace Limiter

variable {K : Type} [DecidableEq K]

/-- The answer to an action, and the limiter after it. -/
def perform (l : Limiter K) : Action K → Answer × Limiter K
  | .request k now => (.admission (l.admitAt k now).1, (l.admitAt k now).2)
  | .promote k now => (.silent, l.promote k now)
  | .promoteCaller k limits now => (.silent, l.promoteCaller k limits now)
  | .updatePolicy policy => (.silent, l.updatePolicy policy)
  | .purgeIdle now => (.purged (l.purgeIdle now).1, (l.purgeIdle now).2)
  | .shutDown => (.silent, l.shutDown)
  | .retryAfter k now => (.wait (l.retryAfter k now), l)
  | .isPromoted k => (.flag (l.isPromoted k), l)
  | .contains k => (.flag (l.contains k), l)
  | .tokens k => (.tokens (l.tokens? k), l)

/-- The limiter after some actions. -/
def run (l : Limiter K) (actions : List (Action K)) : Limiter K :=
  actions.foldl (fun l a => (l.perform a).2) l

/-- The answers to some actions, in their order. -/
def answers : Limiter K → List (Action K) → List Answer
  | _, [] => []
  | l, a :: rest => (l.perform a).1 :: answers (l.perform a).2 rest

/-- Some run leads from a limiter without callers to this one. -/
def Reachable (l : Limiter K) : Prop :=
  ∃ settings place actions, l = (new settings place).run actions

/-- No action drops the bucket of `k`: `k` is neither evicted nor purged. -/
def Keeps (k : K) : Limiter K → List (Action K) → Prop
  | _, [] => True
  | l, a :: rest =>
    (l.contains k = true → (l.perform a).2.contains k = true) ∧ Keeps k (l.perform a).2 rest

instance Keeps.decidable (k : K) : (l : Limiter K) → (actions : List (Action K)) →
    Decidable (Keeps k l actions)
  | _, [] => isTrue trivial
  | l, a :: rest =>
    have := Keeps.decidable k (l.perform a).2 rest
    inferInstanceAs (Decidable (_ ∧ _))

end Limiter

/-! ## Entries -/

/-- What holds of an entry under the current edition of the policy. -/
structure Entry.Sound (edition : Edition) (e : Entry) : Prop where
  level_le : e.bucket.level ≤ e.bucket.limits.maxLevel
  generation_le : e.generation ≤ edition.generation
  limits_eq : e.generation = edition.generation → e.bucket.limits = e.tier.limits edition.policy

namespace Entry

variable {e : Entry} {edition : Edition} {tier : Tier} {now : Instant}

/-- The entry after a request. -/
def consume (e : Entry) (now : Instant) : Entry :=
  { e with bucket := (e.bucket.tryConsume now).2 }

@[simp]
theorem tier_sync (e : Entry) (edition : Edition) (now : Instant) :
    (e.sync edition now).tier = e.tier := by
  unfold sync
  split <;> rfl

@[simp]
theorem generation_sync (e : Entry) (edition : Edition) (now : Instant) :
    (e.sync edition now).generation = edition.generation := by
  unfold sync
  split
  · next h => exact h
  · rfl

theorem sound_fresh (tier : Tier) (edition : Edition) (now : Instant) :
    (fresh tier edition now).Sound edition :=
  ⟨Nat.le_refl _, Nat.le_refl _, fun _ => rfl⟩

theorem sound_retier (e : Entry) (tier : Tier) (edition : Edition) (now : Instant) :
    (e.retier tier edition now).Sound edition :=
  ⟨Bucket.level_updateLimits_le _ _, Nat.le_refl _, fun _ => rfl⟩

theorem Sound.sync (h : e.Sound edition) : (e.sync edition now).Sound edition := by
  unfold Entry.sync
  split
  · exact h
  · exact sound_retier e e.tier edition now

theorem Sound.consume (h : e.Sound edition) : (e.consume now).Sound edition := by
  refine ⟨?_, h.generation_le, fun hg => ?_⟩
  · simpa [Entry.consume] using Bucket.level_tryConsume_le now h.level_le
  · simpa [Entry.consume] using h.limits_eq hg

/-- Under a new policy every entry is of an earlier generation. -/
theorem Sound.succ (h : e.Sound edition) (policy : Policy) :
    e.Sound ⟨edition.generation + 1, policy⟩ :=
  ⟨h.level_le, Nat.le_succ_of_le h.generation_le,
    fun hg => absurd h.generation_le (by simp only at hg; omega)⟩

end Entry

/-! ## Shards -/

namespace Limiter

section Shards

variable {K : Type} {l : Limiter K} {i j : Nat} {shard : Recency K Entry}

theorem home_lt (h : 0 < l.shards.length) (k : K) : l.home k < l.shards.length :=
  Nat.mod_lt _ h

theorem shardAt_setShard_self (h : i < l.shards.length) : (l.setShard i shard).shardAt i = shard := by
  simp [setShard, shardAt, h]

theorem shardAt_setShard_of_ne (h : i ≠ j) : (l.setShard i shard).shardAt j = l.shardAt j := by
  simp [setShard, shardAt, h]

theorem shardAt_setShard (l : Limiter K) (i j : Nat) (shard : Recency K Entry) :
    (l.setShard i shard).shardAt j = shard ∨ (l.setShard i shard).shardAt j = l.shardAt j := by
  by_cases h : i = j
  · subst h
    by_cases hi : i < l.shards.length
    · exact .inl (shardAt_setShard_self hi)
    · exact .inr (by simp [setShard, shardAt, List.set_eq_of_length_le (Nat.le_of_not_lt hi)])
  · exact .inr (shardAt_setShard_of_ne h)

theorem home_setShard (l : Limiter K) (i : Nat) (shard : Recency K Entry) (k : K) :
    (l.setShard i shard).home k = l.home k := by
  rw [home, home, setShard, List.length_set]

theorem home_purgeIdle (l : Limiter K) (now : Instant) (k : K) :
    (l.purgeIdle now).2.home k = l.home k := by
  simp only [home, purgeIdle, List.length_map]

theorem shardAt_purgeIdle (l : Limiter K) (now : Instant) (i : Nat) :
    (l.purgeIdle now).2.shardAt i = (l.shardAt i).filter fun _ e => !l.isIdle now e := by
  simp only [purgeIdle, shardAt, List.getD_eq_getElem?_getD, List.getElem?_map]
  cases l.shards[i]? <;> rfl

/-- What holds of a limiter after every run. -/
structure Sound (l : Limiter K) : Prop where
  shards_pos : 0 < l.shards.length
  keys_nodup : ∀ i, (l.shardAt i).keys.Nodup
  entries_sound : ∀ i, ∀ entry ∈ (l.shardAt i).entries, entry.2.Sound l.edition

theorem sound_new (settings : LimiterSettings) (place : K → Nat) : (new settings place).Sound := by
  have hempty : ∀ i, (new settings place).shardAt i = .empty := by
    intro i
    simp only [new, shardAt, List.getD_eq_getElem?_getD, List.getElem?_replicate]
    split <;> rfl
  refine ⟨by simp only [new, List.length_replicate]; omega, fun i => ?_, fun i => ?_⟩
  · rw [hempty]
    exact List.nodup_nil
  · rw [hempty]
    exact fun entry hin => absurd hin List.not_mem_nil

theorem Sound.setShard (h : l.Sound) (i : Nat) (hkeys : shard.keys.Nodup)
    (hentries : ∀ entry ∈ shard.entries, entry.2.Sound l.edition) :
    (l.setShard i shard).Sound := by
  refine ⟨by simpa [Limiter.setShard] using h.shards_pos, fun j => ?_, fun j => ?_⟩
  · rcases shardAt_setShard l i j shard with hj | hj <;> rw [hj]
    · exact hkeys
    · exact h.keys_nodup j
  · rcases shardAt_setShard l i j shard with hj | hj <;> rw [hj]
    · exact hentries
    · exact h.entries_sound j

theorem Sound.reserveSlot (h : l.Sound) : (l.reserveSlot i).Sound := by
  unfold Limiter.reserveSlot
  split
  · exact ⟨h.shards_pos, h.keys_nodup, h.entries_sound⟩
  split
  · next index _ =>
    have hdrop := h.setShard index (Recency.nodup_keys_dropOldest (h.keys_nodup index))
      fun entry hin => h.entries_sound index entry (Recency.mem_entries_dropOldest hin)
    exact ⟨hdrop.shards_pos, hdrop.keys_nodup, hdrop.entries_sound⟩
  · exact ⟨h.shards_pos, h.keys_nodup, h.entries_sound⟩

theorem Sound.purgeIdle (h : l.Sound) (now : Instant) : (l.purgeIdle now).2.Sound := by
  refine ⟨by simpa [Limiter.purgeIdle] using h.shards_pos, fun i => ?_, fun i entry hin => ?_⟩
  · rw [shardAt_purgeIdle]
    exact Recency.nodup_keys_filter _ (h.keys_nodup i)
  · rw [shardAt_purgeIdle, Recency.mem_entries_filter] at hin
    exact h.entries_sound i entry hin.1

theorem Sound.updatePolicy (h : l.Sound) (policy : Policy) : (l.updatePolicy policy).Sound :=
  ⟨h.shards_pos, h.keys_nodup, fun i entry hin => (h.entries_sound i entry hin).succ policy⟩

@[simp]
theorem edition_reserveSlot (l : Limiter K) (i : Nat) : (l.reserveSlot i).edition = l.edition := by
  unfold Limiter.reserveSlot
  split
  · rfl
  split <;> rfl

@[simp]
theorem home_reserveSlot (l : Limiter K) (i : Nat) (k : K) :
    (l.reserveSlot i).home k = l.home k := by
  unfold Limiter.reserveSlot
  split
  · rfl
  split
  · simp [home, Limiter.setShard]
  · rfl

end Shards

/-! ## One action -/

section Actions

variable {K : Type} [DecidableEq K] {l : Limiter K} {k k' : K} {e : Entry} {tier : Tier}
  {now : Instant}

theorem find?_put_self (h : 0 < l.shards.length) (k : K) (e : Entry) :
    (l.put k e).find? k = some e := by
  rw [find?, put, home_setShard, shardAt_setShard_self (home_lt h k), Recency.find?_put_self]

theorem find?_put_of_ne (h : 0 < l.shards.length) (e : Entry) (hne : k' ≠ k) :
    (l.put k e).find? k' = l.find? k' := by
  rw [find?, find?, put, home_setShard]
  by_cases hsame : l.home k = l.home k'
  · rw [← hsame, shardAt_setShard_self (home_lt h k), Recency.find?_put_of_ne _ _ hne]
  · rw [shardAt_setShard_of_ne hsame]

/-- A slot is taken from nobody or from the key that is dropped. -/
theorem find?_reserveSlot (l : Limiter K) (i : Nat) (k : K) :
    (l.reserveSlot i).find? k = l.find? k ∨ (l.reserveSlot i).find? k = none := by
  simp only [find?, home_reserveSlot]
  unfold reserveSlot
  split
  · exact .inl rfl
  split
  · next index _ =>
    show ((l.setShard index (l.shardAt index).dropOldest).shardAt (l.home k)).find? k = _ ∨
      ((l.setShard index (l.shardAt index).dropOldest).shardAt (l.home k)).find? k = none
    by_cases hi : index = l.home k
    · rcases shardAt_setShard l index (l.home k) (l.shardAt index).dropOldest with hs | hs <;>
        rw [hs]
      · rw [hi]
        exact Recency.find?_dropOldest _ k
      · exact .inl rfl
    · rw [shardAt_setShard_of_ne hi]
      exact .inl rfl
  · exact .inl rfl

theorem find?_purgeIdle (h : l.Sound) (now : Instant) (k : K) :
    (l.purgeIdle now).2.find? k = (l.find? k).filter fun e => !l.isIdle now e := by
  rw [find?, home_purgeIdle, shardAt_purgeIdle, Recency.find?_filter _ (h.keys_nodup _)]
  rfl

theorem Sound.of_find? (h : l.Sound) (he : l.find? k = some e) : e.Sound l.edition :=
  h.entries_sound _ (k, e) ((Recency.find?_eq_some_iff (h.keys_nodup _)).mp he)

theorem Sound.put (h : l.Sound) (k : K) (he : e.Sound l.edition) : (l.put k e).Sound := by
  refine h.setShard _ (Recency.nodup_keys_put k e (h.keys_nodup _)) fun entry hin => ?_
  rcases Recency.mem_entries_put.mp hin with rfl | ⟨hold, -⟩
  · exact he
  · exact h.entries_sound _ entry hold

/-! ### Entries that are looked up or made -/

theorem fst_entryFor (l : Limiter K) (k : K) (tier : Tier) (now : Instant) :
    (l.entryFor k tier now).1 = (l.find? k).getD (.fresh tier l.edition now) := by
  unfold entryFor
  split <;> simp [*]

@[simp]
theorem edition_entryFor (l : Limiter K) (k : K) (tier : Tier) (now : Instant) :
    (l.entryFor k tier now).2.edition = l.edition := by
  unfold entryFor
  split <;> simp

theorem find?_entryFor (l : Limiter K) (k k' : K) (tier : Tier) (now : Instant) :
    (l.entryFor k tier now).2.find? k' = l.find? k' ∨
      (l.entryFor k tier now).2.find? k' = none := by
  unfold entryFor
  split
  · exact .inl rfl
  · exact find?_reserveSlot l _ k'

theorem Sound.fst_entryFor (h : l.Sound) (k : K) (tier : Tier) (now : Instant) :
    (l.entryFor k tier now).1.Sound l.edition := by
  unfold entryFor
  split
  · next e he => exact h.of_find? he
  · exact Entry.sound_fresh tier l.edition now

theorem Sound.snd_entryFor (h : l.Sound) (k : K) (tier : Tier) (now : Instant) :
    (l.entryFor k tier now).2.Sound := by
  unfold entryFor
  split
  · exact h
  · exact h.reserveSlot

/-! ### Touches -/

/-- The entry that decides a request of `k`: the one there is, else a full one
of the default tier, under the current policy. -/
def deciding (l : Limiter K) (k : K) (now : Instant) : Entry :=
  ((l.find? k).getD (.fresh .default l.edition now)).sync l.edition now

theorem isAllowed_admitAt (l : Limiter K) (k : K) (now : Instant) :
    (l.admitAt k now).1.isAllowed = ((l.deciding k now).bucket.tryConsume now).1 := by
  simp only [admitAt, edition_entryFor, fst_entryFor, deciding]
  split <;> simp_all [Admission.isAllowed]

/-- A request puts back the entry that decided it, and counts. -/
theorem snd_admitAt (l : Limiter K) (k : K) (now : Instant) :
    ∃ counts, (l.admitAt k now).2 =
      { (l.entryFor k .default now).2.put k ((l.deciding k now).consume now) with counts } := by
  simp only [admitAt, edition_entryFor, fst_entryFor]
  split <;> exact ⟨_, rfl⟩

/-- A promotion puts back the entry in its new tier, and counts. -/
theorem setTier_eq (l : Limiter K) (k : K) (tier : Tier) (now : Instant) :
    ∃ counts, l.setTier k tier now = { (l.entryFor k tier now).2.put k
      ((l.entryFor k tier now).1.retier tier l.edition now) with counts } := by
  simp only [setTier, edition_entryFor]
  exact ⟨_, rfl⟩

theorem Sound.deciding (h : l.Sound) (k : K) (now : Instant) :
    (l.deciding k now).Sound l.edition := by
  have he := h.fst_entryFor k .default now
  rw [Limiter.fst_entryFor] at he
  exact he.sync

theorem Sound.admitAt (h : l.Sound) (k : K) (now : Instant) : (l.admitAt k now).2.Sound := by
  obtain ⟨counts, heq⟩ := snd_admitAt l k now
  have hput := (h.snd_entryFor k .default now).put k
    (by simpa using (h.deciding k now).consume : ((l.deciding k now).consume now).Sound _)
  rw [heq]
  exact ⟨hput.shards_pos, hput.keys_nodup, hput.entries_sound⟩

theorem Sound.setTier (h : l.Sound) (k : K) (tier : Tier) (now : Instant) :
    (l.setTier k tier now).Sound := by
  obtain ⟨counts, heq⟩ := setTier_eq l k tier now
  have hput := (h.snd_entryFor k tier now).put k
    (by simpa using Entry.sound_retier _ tier l.edition now :
      ((l.entryFor k tier now).1.retier tier l.edition now).Sound _)
  rw [heq]
  exact ⟨hput.shards_pos, hput.keys_nodup, hput.entries_sound⟩

/-! ### Actions -/

variable {a : Action K}

theorem Sound.perform (h : l.Sound) (a : Action K) : (l.perform a).2.Sound := by
  cases a with
  | request k now => exact h.admitAt k now
  | promote k now => exact h.setTier k .promoted now
  | promoteCaller k limits now => exact h.setTier k (.custom limits) now
  | updatePolicy policy => exact h.updatePolicy policy
  | purgeIdle now => exact h.purgeIdle now
  | shutDown => exact ⟨h.shards_pos, h.keys_nodup, h.entries_sound⟩
  | retryAfter | isPromoted | contains | tokens => exact h

theorem edition_perform (ha : a.relimits k = false) : (l.perform a).2.edition = l.edition := by
  cases a with
  | request k' now =>
    obtain ⟨counts, heq⟩ := snd_admitAt l k' now
    simp [perform, heq, put, setShard]
  | promote k' now =>
    obtain ⟨counts, heq⟩ := setTier_eq l k' .promoted now
    simp [perform, promote, heq, put, setShard]
  | promoteCaller k' limits now =>
    obtain ⟨counts, heq⟩ := setTier_eq l k' (.custom limits) now
    simp [perform, promoteCaller, heq, put, setShard]
  | updatePolicy policy => simp [Action.relimits] at ha
  | purgeIdle | shutDown | retryAfter | isPromoted | contains | tokens => rfl

theorem find?_request_self (h : l.Sound) (k : K) (now : Instant) :
    (l.perform (.request k now)).2.find? k = some ((l.deciding k now).consume now) := by
  obtain ⟨counts, heq⟩ := snd_admitAt l k now
  rw [perform, heq]
  exact find?_put_self (h.snd_entryFor k .default now).shards_pos k _

/-- An action that is no request of `k` and does not change its limits leaves
its entry as it is, or drops it. -/
theorem find?_perform (h : l.Sound) (hreq : a.requests k = false) (hlim : a.relimits k = false) :
    (l.perform a).2.find? k = l.find? k ∨ (l.perform a).2.find? k = none := by
  -- A touch of another key can only drop the entry of `k`, by taking its slot.
  have htouch : ∀ (k' : K) (tier : Tier) (now : Instant) (e : Entry), k' ≠ k →
      ((l.entryFor k' tier now).2.put k' e).find? k = l.find? k ∨
        ((l.entryFor k' tier now).2.put k' e).find? k = none := by
    intro k' tier now e hne
    rw [find?_put_of_ne (h.snd_entryFor k' tier now).shards_pos e (Ne.symm hne)]
    exact find?_entryFor l k' k tier now
  cases a with
  | request k' now =>
    obtain ⟨counts, heq⟩ := snd_admitAt l k' now
    rw [perform, heq]
    exact htouch k' _ now _ (by simpa [Action.requests] using hreq)
  | promote k' now =>
    obtain ⟨counts, heq⟩ := setTier_eq l k' .promoted now
    rw [perform, promote, heq]
    exact htouch k' _ now _ (by simpa [Action.relimits] using hlim)
  | promoteCaller k' limits now =>
    obtain ⟨counts, heq⟩ := setTier_eq l k' (.custom limits) now
    rw [perform, promoteCaller, heq]
    exact htouch k' _ now _ (by simpa [Action.relimits] using hlim)
  | updatePolicy policy => simp [Action.relimits] at hlim
  | purgeIdle now =>
    rw [perform, find?_purgeIdle h]
    cases l.find? k with
    | none => exact .inl rfl
    | some e =>
      rw [Option.filter_some]
      split
      · exact .inl rfl
      · exact .inr rfl
  | shutDown | retryAfter | isPromoted | contains | tokens => exact .inl rfl

/-- The entry is the same where the key stays tracked. -/
theorem find?_perform_of_contains (h : l.Sound) (hreq : a.requests k = false)
    (hlim : a.relimits k = false)
    (hkept : l.contains k = true → (l.perform a).2.contains k = true) :
    (l.perform a).2.find? k = l.find? k := by
  rcases find?_perform h hreq hlim with hsame | hnone
  · exact hsame
  · cases hfind : l.find? k with
    | none => exact hnone
    | some e => simp [contains, hfind, hnone] at hkept

/-! ### Runs -/

theorem Sound.run (h : l.Sound) (actions : List (Action K)) : (l.run actions).Sound := by
  induction actions generalizing l with
  | nil => exact h
  | cons a rest ih => exact ih (h.perform a)

theorem sound_of_reachable (h : l.Reachable) : l.Sound := by
  obtain ⟨settings, place, actions, rfl⟩ := h
  exact (sound_new settings place).run actions

end Actions

end Limiter

end Tollgate.Rate
