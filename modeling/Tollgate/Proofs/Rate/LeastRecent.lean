import Mathlib.Data.List.Dedup
import Mathlib.Data.List.Induction
import Tollgate.Proofs.Rate.Occupancy

/-!
# Which keys a limiter of one shard keeps

With one shard, and as long as nothing is purged, a limiter tracks the keys that
were touched last, as many of them as the cap allows. Requests and promotions
touch their key; looking something up touches nothing.

Results:
1. `byRecency_append`: a touch puts its key in front of all others.
2. `exists_lastTouch`, `mem_take_byRecency_iff`: a key is among the first few in
   that order if few other keys were touched since its last touch.
3. `keys_touched`, `keys_run`: the keys of the shard are the first ones in that
   order, up to the cap.
4. `leastRecent_run`: which keys are tracked after any run, and which is evicted
   next.
-/

namespace Tollgate.Rate.Limiter

variable {K : Type} [DecidableEq K] {l : Limiter K} {k old : K} {a : Action K} {touches : List K}
  {cap : Nat}

/-! ## Definitions -/

/-- The keys that were touched, each once, in the order of their last touches; the
one touched last is in front. -/
def byRecency (touches : List K) : List K :=
  touches.dedup.reverse

/-- All tracked keys but `old` were touched after its last touch. -/
def LongestAgo (touches : List K) (l : Limiter K) (old : K) : Prop :=
  ∃ older newer, touches = older ++ old :: newer ∧ old ∉ newer ∧
    ∀ k, l.contains k = true → k ≠ old → k ∈ newer

/-- The keys that were touched last are tracked, up to the cap, and an action that
does not purge drops nothing or the one touched longest ago. -/
structure LeastRecent (cap : Nat) (touches : List K) (l : Limiter K) : Prop where
  keys_eq : l.keys = (byRecency touches).take cap
  contains_iff : ∀ k, l.contains k = true ↔
    ∃ older newer, touches = older ++ k :: newer ∧ k ∉ newer ∧ newer.dedup.length < cap
  size_eq : l.size = min cap touches.dedup.length
  keeps_or_evicts : ∀ a, a.purges = false →
    ((∀ k, l.contains k = true → (l.perform a).2.contains k = true) ∧
      (l.perform a).2.counts.evicted = l.counts.evicted) ∨
    ∃ old, LongestAgo touches l old ∧ l.Evicts a old

/-! ## The order of last touches -/

theorem dedup_append_singleton (touches : List K) (k : K) :
    (touches ++ [k]).dedup = touches.dedup.filter (· ≠ k) ++ [k] := by
  induction touches with
  | nil => rfl
  | cons first rest ih =>
    by_cases hin : first ∈ rest
    · have hlater : first ∈ rest ++ [k] := List.mem_append_left _ hin
      rw [List.dedup_cons_of_mem hin, List.cons_append, List.dedup_cons_of_mem hlater, ih]
    · rw [List.dedup_cons_of_notMem hin, List.cons_append]
      by_cases hfirst : first = k
      · have hlater : first ∈ rest ++ [k] := hfirst ▸ List.mem_concat_self
        rw [List.dedup_cons_of_mem hlater, ih, List.filter_cons_of_neg (by simpa using hfirst)]
      · have hlater : first ∉ rest ++ [k] := by simp [hin, hfirst]
        rw [List.dedup_cons_of_notMem hlater, ih, List.filter_cons_of_pos (by simpa using hfirst)]
        rfl

theorem byRecency_append (touches : List K) (k : K) :
    byRecency (touches ++ [k]) = k :: (byRecency touches).filter (· ≠ k) := by
  rw [byRecency, dedup_append_singleton, List.reverse_append, byRecency, List.filter_reverse]
  rfl

theorem nodup_byRecency (touches : List K) : (byRecency touches).Nodup :=
  List.nodup_reverse.mpr touches.nodup_dedup

theorem exists_split_of_dedup {before after : List K}
    (h : touches.dedup = before ++ k :: after) :
    ∃ older newer, touches = older ++ k :: newer ∧ k ∉ newer ∧ newer.dedup = after := by
  induction touches generalizing before with
  | nil => exact absurd h.symm (by simp)
  | cons first rest ih =>
    have hlater : ∀ before', rest.dedup = before' ++ k :: after →
        ∃ older newer, first :: rest = older ++ k :: newer ∧ k ∉ newer ∧ newer.dedup = after := by
      intro before' heq
      obtain ⟨older, newer, rfl, hnot, hafter⟩ := ih heq
      exact ⟨first :: older, newer, rfl, hnot, hafter⟩
    by_cases hin : first ∈ rest
    · rw [List.dedup_cons_of_mem hin] at h
      exact hlater before h
    · rw [List.dedup_cons_of_notMem hin] at h
      cases before with
      | nil =>
        obtain ⟨rfl, hafter⟩ := List.cons.inj h
        exact ⟨[], rest, rfl, hin, hafter⟩
      | cons _ before' => exact hlater before' (List.cons.inj h).2

/-- The keys in front of `k` are those that were touched after its last touch. -/
theorem exists_lastTouch {front rest : List K} (h : byRecency touches = front ++ k :: rest) :
    ∃ older newer, touches = older ++ k :: newer ∧ k ∉ newer ∧ byRecency newer = front := by
  have hdedup : touches.dedup = rest.reverse ++ k :: front.reverse := by
    rw [← touches.dedup.reverse_reverse, ← byRecency, h]
    simp
  obtain ⟨older, newer, heq, hnot, hfront⟩ := exists_split_of_dedup hdedup
  exact ⟨older, newer, heq, hnot, by rw [byRecency, hfront, List.reverse_reverse]⟩

theorem exists_byRecency_eq (older : List K) {newer : List K} (h : k ∉ newer) :
    ∃ rest, byRecency (older ++ k :: newer) = byRecency newer ++ k :: rest := by
  have hsuffix : (k :: newer.dedup) <:+ (older ++ k :: newer).dedup := by
    rw [List.dedup_append, List.dedup_cons_of_notMem h]
    exact List.suffix_union_right _ _
  obtain ⟨before, hbefore⟩ := hsuffix
  refine ⟨before.reverse, ?_⟩
  rw [byRecency, ← hbefore]
  simp [byRecency]

theorem mem_take_byRecency_iff : k ∈ (byRecency touches).take cap ↔
    ∃ older newer, touches = older ++ k :: newer ∧ k ∉ newer ∧ newer.dedup.length < cap := by
  constructor
  · intro hk
    obtain ⟨front, rest, hsplit⟩ := List.append_of_mem hk
    have hall : byRecency touches = front ++ k :: (rest ++ (byRecency touches).drop cap) := by
      rw [← List.cons_append, ← List.append_assoc, ← hsplit, List.take_append_drop]
    obtain ⟨older, newer, heq, hnot, hfront⟩ := exists_lastTouch hall
    have hlength := congrArg List.length hsplit
    have hnewer : newer.dedup.length = front.length := by
      rw [← hfront, byRecency, List.length_reverse]
    rw [List.length_take, List.length_append, List.length_cons] at hlength
    exact ⟨older, newer, heq, hnot, by omega⟩
  · rintro ⟨older, newer, rfl, hnot, hlt⟩
    obtain ⟨rest, hsplit⟩ := exists_byRecency_eq older hnot
    rw [← List.length_reverse, ← byRecency] at hlt
    rw [hsplit, List.take_append, List.take_of_length_le (Nat.le_of_lt hlt)]
    refine List.mem_append_right _ ?_
    rw [← Nat.succ_pred (Nat.sub_ne_zero_of_lt hlt), List.take_succ_cons]
    exact List.mem_cons_self

/-! ## One shard -/

/-- Of a list without its `n + 1`st entry and those after it, the first `n` entries
other than `k` are known. -/
theorem take_filter_take {keys : List K} (hnodup : keys.Nodup) (k : K) (n : Nat) :
    ((keys.take (n + 1)).filter (· ≠ k)).take n = (keys.filter (· ≠ k)).take n := by
  induction keys generalizing n with
  | nil => rfl
  | cons first rest ih =>
    obtain ⟨hout, hrest⟩ := List.nodup_cons.mp hnodup
    rw [List.take_succ_cons]
    by_cases hfirst : first = k
    · have hdrop : ∀ ks, (first :: ks).filter (· ≠ k) = ks.filter (· ≠ k) :=
        fun ks => List.filter_cons_of_neg (by simpa using hfirst)
      have hkeep : ∀ k' ∈ rest, decide (k' ≠ k) = true :=
        fun k' hk' => decide_eq_true fun heq => hout (hfirst.trans heq.symm ▸ hk')
      rw [hdrop, hdrop, List.filter_eq_self.mpr hkeep,
        List.filter_eq_self.mpr fun k' hk' => hkeep k' (List.mem_of_mem_take hk'),
        List.take_take, Nat.min_self]
    · have hpush : ∀ ks, (first :: ks).filter (· ≠ k) = first :: ks.filter (· ≠ k) :=
        fun ks => List.filter_cons_of_pos (by simpa using hfirst)
      rw [hpush, hpush]
      cases n with
      | zero => rfl
      | succ n => rw [List.take_succ_cons, List.take_succ_cons, ih hrest n]

theorem keys_put_of_one (h : l.shards.length = 1) (k : K) (e : Entry) :
    (l.put k e).keys = k :: l.keys.filter (· ≠ k) := by
  have hhome : l.home k = 0 := by rw [home, h, Nat.mod_one]
  rw [put, hhome, keys_setShard_of_one h, Recency.keys_put, keys_of_one h]

/-- Where a key is new and the cap is reached, the last key makes room. -/
theorem keys_touched (h : l.Occupied) (hone : l.shards.length = 1) (ha : a.touched? = some k) :
    (l.perform a).2.keys = (k :: l.keys.filter (· ≠ k)).take l.maxBuckets := by
  have hseating := seating h k
  have hseat := (congrArg Frame.shards (frame_seat l k)).trans hone
  have hfits : (l.perform a).2.keys.length ≤ l.maxBuckets := by
    rw [← size_eq_length_keys]
    exact Nat.le_trans (h.perform a).size_le
      (Nat.le_of_eq (congrArg Frame.maxBuckets (frame_perform l a)))
  have hkeys : (l.perform a).2.keys = k :: (l.seat k).keys.filter (· ≠ k) := by
    obtain ⟨e, counts, heq, -⟩ := perform_of_touched (l := l) ha
    rw [heq]
    exact keys_put_of_one hseat k e
  rw [hkeys] at hfits ⊢
  generalize l.seat k = seated at hseating hseat hfits
  cases hseating with
  | held | free => exact (List.take_of_length_le hfits).symm
  | @evicted i old e hk hfull hi hold =>
    obtain rfl : i = 0 := by omega
    have hdrop : (l.setShard 0 (l.shardAt 0).dropOldest).keys = l.keys.dropLast := by
      rw [keys_setShard_of_one hone, Recency.keys_dropOldest, keys_of_one hone]
    have hout : ∀ k' ∈ l.keys, decide (k' ≠ k) = true := by
      refine fun k' hk' => decide_eq_true fun hsame => ?_
      rw [hsame, mem_keys_iff_contains h.homed, hk] at hk'
      cases hk'
    have hcap : l.maxBuckets = l.keys.length - 1 + 1 := by
      have hone := h.one_le
      rw [← size_eq_length_keys]
      omega
    show k :: (l.setShard 0 (l.shardAt 0).dropOldest).keys.filter (· ≠ k) = _
    rw [hdrop, List.filter_eq_self.mpr fun k' hk' => hout k' (List.dropLast_subset _ hk'),
      List.filter_eq_self.mpr hout, hcap, List.take_succ_cons, List.dropLast_eq_take]

theorem keys_untouched (ha : a.touched? = none) (hpurge : a.purges = false) :
    (l.perform a).2.keys = l.keys := by
  cases a with
  | request | promote | promoteCaller => cases ha
  | purgeIdle => cases hpurge
  | updatePolicy | shutDown | retryAfter | isPromoted | contains | tokens => rfl

/-- The induction is on the last action of the run, as the order is of last touches. -/
theorem keys_run (h : l.Occupied) (hone : l.shards.length = 1) (hempty : l.keys = [])
    {actions : List (Action K)} (hpurges : ∀ a ∈ actions, a.purges = false) :
    (l.run actions).keys = (byRecency (actions.filterMap Action.touched?)).take l.maxBuckets := by
  induction actions using List.reverseRecOn with
  | nil => exact hempty.trans List.take_nil.symm
  | append_singleton init a ih =>
    have hinit := ih fun a ha => hpurges a (List.mem_append_left _ ha)
    have hlast := hpurges a List.mem_concat_self
    have hframe := frame_run l init
    have hcap : (l.run init).maxBuckets = l.maxBuckets := congrArg Frame.maxBuckets hframe
    have hrun : l.run (init ++ [a]) = ((l.run init).perform a).2 := List.foldl_concat ..
    rw [hrun, List.filterMap_append]
    cases htouched : a.touched? with
    | none =>
      rw [keys_untouched htouched hlast, hinit]
      simp [htouched]
    | some k =>
      obtain ⟨m, hm⟩ : ∃ m, l.maxBuckets = m + 1 := ⟨_, (Nat.sub_add_cancel h.one_le).symm⟩
      have hsingle : [a].filterMap Action.touched? = [k] := by simp [htouched]
      rw [keys_touched (h.run init) ((congrArg Frame.shards hframe).trans hone) htouched, hcap,
        hinit, hsingle, byRecency_append, hm, List.take_succ_cons, List.take_succ_cons,
        take_filter_take (nodup_byRecency _)]

/-! ## Any run -/

theorem longestAgo_of_oldest {i : Nat} {e : Entry} (h : l.Occupied) (hone : l.shards.length = 1)
    (hkeys : l.keys = (byRecency touches).take cap)
    (hold : (l.shardAt i).oldest? = some (old, e)) : LongestAgo touches l old := by
  have hzero : i = 0 := by
    have hin : old ∈ (l.shardAt i).keys := by
      rw [Recency.keys_of_oldest? hold]
      exact List.mem_concat_self
    have hlt := lt_of_mem_keys_shardAt hin
    omega
  subst hzero
  have hfront := Recency.keys_of_oldest? hold
  rw [← keys_of_one hone] at hfront
  have hsplit : byRecency touches =
      (l.shardAt 0).dropOldest.keys ++ old :: (byRecency touches).drop cap := by
    rw [List.append_cons, ← hfront, hkeys, List.take_append_drop]
  obtain ⟨older, newer, heq, hnot, hnewer⟩ := exists_lastTouch hsplit
  refine ⟨older, newer, heq, hnot, fun k hk hne => ?_⟩
  rw [← mem_keys_iff_contains h.homed, hfront, ← hnewer, List.mem_append] at hk
  rcases hk with hk | hk
  · exact List.mem_dedup.mp (List.mem_reverse.mp hk)
  · exact absurd (List.mem_singleton.mp hk) hne

/-- After any uses of a limiter with one shard, purging apart, the keys that were
touched last are tracked, as many as the cap allows; and the next action drops
nothing, or the tracked key whose last touch is longest ago. -/
theorem leastRecent_run {settings : LimiterSettings} (hshards : settings.shards ≤ 1)
    (place : K → Nat) {uses : List (Use K)} (hpurges : ∀ use ∈ uses, use.purges = false) :
    LeastRecent (max 1 settings.maxBuckets)
      ((uses.filterMap Use.action?).filterMap Action.touched?)
      ((new settings place).useAll uses) := by
  have hempty := occupied_new settings place
  have hone : (new settings place).shards.length = 1 :=
    List.length_replicate.trans (Nat.max_eq_left hshards)
  have hactions : ∀ a ∈ uses.filterMap Use.action?, a.purges = false := by
    intro a ha
    obtain ⟨use, huse, heq⟩ := List.mem_filterMap.mp ha
    cases use with
    | act => exact Option.some.inj heq ▸ hpurges _ huse
    | stats | policy | size | isShutDown => cases heq
  have hkeys := keys_run hempty hone (keys_new settings place) hactions
  have hframe := frame_run (new settings place) (uses.filterMap Use.action?)
  have hoccupied := hempty.run (uses.filterMap Use.action?)
  rw [← useAll_eq_run] at hkeys hframe hoccupied
  generalize (new settings place).useAll uses = l at *
  refine ⟨hkeys, fun k => ?_, ?_, fun a ha => ?_⟩
  · rw [← mem_keys_iff_contains hoccupied.homed, hkeys]
    exact mem_take_byRecency_iff
  · rw [size_eq_length_keys, hkeys, List.length_take, byRecency, List.length_reverse]
    rfl
  · by_cases hfull : (l.arrival? a).isSome = true ∧ l.size = l.maxBuckets
    · obtain ⟨k, harrival⟩ := Option.isSome_iff_exists.mp hfull.1
      obtain ⟨i, old, e, hold, hevicts⟩ := evicts_of_full hoccupied harrival hfull.2
      have hsingle := (congrArg Frame.shards hframe).trans hone
      exact .inr ⟨old, longestAgo_of_oldest hoccupied hsingle hkeys hold, hevicts⟩
    · obtain ⟨hevicted, hkept⟩ := keeps_of_not_full hoccupied hfull
      exact .inl ⟨hkept ha, hevicted⟩

/-- Room for two callers, who are allowed one request each. -/
def exNarrow : LimiterSettings :=
  { maxBuckets := 2, shards := 1, policy := ⟨⟨1, .ofSeconds 2⟩, ⟨4, .ofSeconds 1⟩⟩ }

/-- Caller `1` is denied its second request, and then only caller `2` is looked at. -/
def exLooks : List (Use Nat) :=
  [.act (.request 1 0), .act (.promote 2 1), .act (.request 1 2), .act (.isPromoted 2),
    .act (.tokens 2), .stats, .act (.updatePolicy .standard), .act (.request 3 3)]

theorem leastRecent_exLooks : ((new exNarrow id).useAll exLooks).keys = [3, 1] ∧
    LeastRecent 2 [1, 2, 1, 3] ((new exNarrow id).useAll exLooks) := by
  have hone : exNarrow.shards ≤ 1 := by decide
  have hpurges : ∀ use ∈ exLooks, use.purges = false := by decide
  exact ⟨by decide, leastRecent_run hone id hpurges⟩

end Tollgate.Rate.Limiter
