import Mathlib.Data.List.Dedup
import Mathlib.Data.List.Perm.Subperm
import Tollgate.Proofs.Recency
import Tollgate.Verify.Replay

/-!
# Counting presentations in memory

A ledger answers by the counter that a key has at the instant of a
presentation. Counters that have expired may still be stored, or may have been
trimmed: `live?` tells neither apart, and is all that later answers depend on.

Results:
1. `present_of_live`, `present_of_fresh`, `present_of_overflow`: the answer to
   a presentation and the ledger after it, by the live counter of its key.
2. `live?_present_of_ne`: a presentation leaves the live counters of other keys
   as they are, at its instant and later, while there is room for all keys.
3. `Fits.present`: room for a set of keys is kept by presentations of these.
4. `put_of_room`, `put_of_full`: whether a new counter takes the room of another.
-/

namespace Tollgate

/-- One more presentation, of which the counter counts no more than it can. -/
theorem Counter.next_min (n : Nat) (expires : Instant) :
    Counter.next ⟨min n Counter.limit, expires⟩ = ⟨min (n + 1) Counter.limit, expires⟩ := by
  simp only [Counter.next, Counter.mk.injEq, and_true]
  omega

namespace ReplayLedger

variable {l : ReplayLedger} {key : ReplayKey} {p : Presentation} {c : Counter} {now t : Instant}

/-! ## Definitions -/

/-- The counter of a key that counts a presentation at an instant. -/
def live? (l : ReplayLedger) (key : ReplayKey) (now : Instant) : Option Counter :=
  (l.counters.find? key).filter (·.isLive now)

/-- From an instant on, the ledger answers by this counter of a key, or as if it
had none. -/
def Shows (l : ReplayLedger) (key : ReplayKey) (counter : Option Counter) (since : Instant) :
    Prop :=
  ∀ t, since ≤ t → l.live? key t = counter.filter (·.isLive t)

theorem Shows.later {counter : Option Counter} {since : Instant} (h : l.Shows key counter since)
    (ht : since ≤ t) : l.Shows key counter t :=
  fun t' ht' => h t' (Int.le_trans ht ht')

/-- The ledger holds only some keys, each once, and has room for all of them. -/
structure Fits (l : ReplayLedger) (keys : List ReplayKey) : Prop where
  nodup : l.counters.keys.Nodup
  subset : l.counters.keys ⊆ keys
  room : keys.dedup.length ≤ l.capacity

/-! ## Live counters -/

theorem not_isLive_of_le (h : c.isLive now = false) (ht : now ≤ t) : c.isLive t = false := by
  simp only [Counter.isLive, decide_eq_false_iff_not] at *
  lia

theorem live?_touch (l : ReplayLedger) (key key' : ReplayKey) (now : Instant) :
    ({ l with counters := l.counters.touch key' } : ReplayLedger).live? key now =
      l.live? key now := by
  simp only [live?, Recency.find?_touch]

theorem live?_put_self (l : ReplayLedger) (r : Recency ReplayKey Counter) (key : ReplayKey)
    (c : Counter) (now : Instant) :
    ({ l with counters := r.put key c } : ReplayLedger).live? key now =
      (some c).filter (·.isLive now) := by
  simp only [live?, Recency.find?_put_self]

theorem live?_put_of_ne {key' : ReplayKey} (h : key ≠ key') (r : Recency ReplayKey Counter)
    (c : Counter) (now : Instant) :
    ({ l with counters := r.put key' c } : ReplayLedger).live? key now =
      ({ l with counters := r } : ReplayLedger).live? key now := by
  simp only [live?, Recency.find?_put_of_ne _ _ h]

/-! ## Trimming -/

/-- Trimming cuts an end off that holds expired counters only. -/
theorem exists_trim (l : ReplayLedger) (now : Instant) : ∃ dropped,
    l.counters.entries = (l.trim now).counters.entries ++ dropped ∧
      ∀ entry ∈ dropped, entry.2.isLive now = false := by
  let expired := fun entry : ReplayKey × Counter => !entry.2.isLive now
  refine ⟨(l.counters.entries.reverse.takeWhile expired).reverse, ?_, fun entry hin => ?_⟩
  · show l.counters.entries = (l.counters.entries.reverse.dropWhile expired).reverse ++ _
    rw [← List.reverse_append, List.takeWhile_append_dropWhile, List.reverse_reverse]
  · have hall := List.all_eq_true.mp (List.all_takeWhile (p := expired)) entry
      (List.mem_reverse.mp hin)
    simpa [expired] using hall

theorem live?_trim (h : now ≤ t) (l : ReplayLedger) (key : ReplayKey) :
    (l.trim now).live? key t = l.live? key t := by
  obtain ⟨dropped, hsplit, hexpired⟩ := exists_trim l now
  simp only [live?, Recency.find?, hsplit, List.find?_append]
  cases (l.trim now).counters.entries.find? fun entry => decide (entry.1 = key) with
  | some entry => rfl
  | none =>
    cases hfind : dropped.find? fun entry => decide (entry.1 = key) with
    | none => rfl
    | some entry =>
      -- A counter that was cut off has expired, and counts for nothing later either.
      have hdead := not_isLive_of_le (hexpired entry (List.mem_of_find?_eq_some hfind)) h
      simp [Option.filter, hdead]

theorem keys_trim_sublist (l : ReplayLedger) (now : Instant) :
    (l.trim now).counters.keys.Sublist l.counters.keys := by
  obtain ⟨dropped, hsplit, -⟩ := exists_trim l now
  simp only [Recency.keys, hsplit, List.map_append]
  exact List.sublist_append_left _ _

/-! ## Room -/

variable {keys : List ReplayKey}

theorem put_of_room (h : key ∈ l.counters.keys ∨ l.size < l.capacity) (c : Counter) :
    l.put key c = { l with counters := l.counters.put key c } := by
  have htest : (l.counters.contains key || decide (l.size < l.capacity)) = true := by
    rw [← Recency.contains_iff_mem_keys] at h
    simpa using h
  simp only [put, htest, if_true]

/-- Without room, a new key takes that of the one touched longest ago. -/
theorem put_of_full (hkey : key ∉ l.counters.keys) (hfull : l.capacity ≤ l.size) (c : Counter) :
    l.put key c = { l with counters := l.counters.dropOldest.put key c } := by
  have hcontains : l.counters.contains key = false := by
    rwa [← Recency.contains_iff_mem_keys, Bool.not_eq_true] at hkey
  have htest : (l.counters.contains key || decide (l.size < l.capacity)) = false := by
    simp [hcontains, hfull]
  simp only [put, htest]
  rfl

theorem Fits.touch (h : l.Fits keys) (key : ReplayKey) :
    ({ l with counters := l.counters.touch key } : ReplayLedger).Fits keys :=
  ⟨Recency.nodup_keys_touch key h.nodup, fun _ hin => h.subset (Recency.mem_keys_touch hin), h.room⟩

theorem Fits.trim (h : l.Fits keys) (now : Instant) : (l.trim now).Fits keys :=
  ⟨h.nodup.sublist (keys_trim_sublist l now),
    fun _ hin => h.subset ((keys_trim_sublist l now).subset hin), h.room⟩

theorem Fits.putCounter (h : l.Fits keys) (hkey : key ∈ keys) (c : Counter) :
    ({ l with counters := l.counters.put key c } : ReplayLedger).Fits keys := by
  refine ⟨Recency.nodup_keys_put key c h.nodup, fun key' hin => ?_, h.room⟩
  rcases Recency.mem_keys_put hin with rfl | hold
  · exact hkey
  · exact h.subset hold

/-- A key that is not stored yet leaves room for itself: with it, the stored keys
are still among those there is room for. -/
theorem Fits.put_eq (h : l.Fits keys) (hkey : key ∈ keys) (c : Counter) :
    l.put key c = { l with counters := l.counters.put key c } := by
  refine put_of_room ?_ c
  by_cases hin : key ∈ l.counters.keys
  · exact .inl hin
  · -- With the new key there are still no more than there is room for.
    have hnodup : (key :: l.counters.keys).Nodup := List.nodup_cons.mpr ⟨hin, h.nodup⟩
    have hsub : key :: l.counters.keys ⊆ keys.dedup := by
      intro key' hin'
      rcases List.mem_cons.mp hin' with rfl | hold
      · exact List.mem_dedup.mpr hkey
      · exact List.mem_dedup.mpr (h.subset hold)
    have hlen := (hnodup.subperm hsub).length_le
    have hsize : l.size = l.counters.keys.length := l.counters.size_eq_length_keys
    have hcap := h.room
    simp only [List.length_cons] at hlen
    exact .inr (by omega)

/-! ## Presentations -/

theorem present_of_live (h : l.live? p.key now = some c) : present now p l =
    (.ok (.ok (c.next.count ≤ p.limit.toNat)),
      { l with counters := l.counters.put p.key c.next }) := by
  simp only [live?] at h
  simp only [present, h]

theorem present_of_overflow (h : l.live? p.key now = none) (hend : now.after? p.ttl = none) :
    present now p l =
      (.error .clockOverflow, { l with counters := l.counters.touch p.key }) := by
  simp only [live?] at h
  simp only [present, h, hend]

theorem present_of_fresh {expires : Instant} (hfits : l.Fits keys) (hkey : p.key ∈ keys)
    (h : l.live? p.key now = none) (hend : now.after? p.ttl = some expires) :
    present now p l = (.ok (.ok (1 ≤ p.limit.toNat)),
      { l with counters := (({ l with counters := l.counters.touch p.key } : ReplayLedger).trim
        now).counters.put p.key ⟨1, expires⟩ }) := by
  have hput := ((hfits.touch p.key).trim now).put_eq hkey ⟨1, expires⟩
  simp only [live?] at h
  simp only [present, h, hend, hput]
  rfl

/-- The ledger after a presentation: its key is touched or gets a counter, and
expired counters may go. -/
theorem live?_present_of_ne (hfits : l.Fits keys) (hkey : p.key ∈ keys) (hne : key ≠ p.key)
    (ht : now ≤ t) : (present now p l).2.live? key t = l.live? key t := by
  cases h : l.live? p.key now with
  | some c => rw [present_of_live h, live?_put_of_ne hne]
  | none =>
    cases hend : now.after? p.ttl with
    | none => rw [present_of_overflow h hend, live?_touch]
    | some expires =>
      rw [present_of_fresh hfits hkey h hend, live?_put_of_ne hne]
      exact (live?_trim ht _ key).trans (live?_touch l key p.key t)

theorem Fits.present (hfits : l.Fits keys) (hkey : p.key ∈ keys) (now : Instant) :
    (present now p l).2.Fits keys := by
  cases h : l.live? p.key now with
  | some c =>
    rw [present_of_live h]
    exact hfits.putCounter hkey c.next
  | none =>
    cases hend : now.after? p.ttl with
    | none =>
      rw [present_of_overflow h hend]
      exact hfits.touch p.key
    | some expires =>
      rw [present_of_fresh hfits hkey h hend]
      exact ((hfits.touch p.key).trim now).putCounter hkey ⟨1, expires⟩

end ReplayLedger

end Tollgate
