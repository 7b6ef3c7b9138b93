import Mathlib.Data.List.Induction
import Tollgate.Difficulty.Series
import Tollgate.Proofs.Store
import Tollgate.Proofs.Text.Plain

/-!
# Counts of requests

Every request for a site counts under the key of the site and of the minute that
the request comes in. A sample of the load looks the keys of the last complete
minutes up. Recording and sampling work the keys out each for itself; this module
says that they agree, for any sites and at any times, also before 1970.

Results:
1. `key_inj`: a key tells the site and the minute, whatever characters the site has.
2. `Tallies.record`: one more request counts in its own minute, and in no other.
3. `Tallies.shows`: no count is gone while its minute can still be sampled.
4. `sample_recordAll`: what a sample finds after any requests.
-/

namespace Tollgate.LoadSeries

open Store (highestCount)

/-! ## Definitions -/

/-- A request for a site that counts as load on it. -/
structure Hit where
  siteKey : String
  now : Moment

/-- The store after some requests have been counted. -/
def recordAll (store : Store) (window : Nat) (hits : List Hit) : Store :=
  hits.foldl (fun store hit => (record store hit.siteKey window hit.now).2) store

/-- How many of some requests are for a site and in a minute. -/
def hitsIn (hits : List Hit) (siteKey : String) (m : Int) : Nat :=
  hits.countP fun hit => hit.siteKey = siteKey ∧ minute hit.now.wall = m

/-- The wall clock does not go back between two moments, and no more time passes
for the store than it shows. -/
def Precedes (earlier later : Moment) : Prop :=
  earlier.wall.nanos ≤ later.wall.nanos ∧
    later.clock - earlier.clock ≤ later.wall.nanos - earlier.wall.nanos

/-- The store can be reached, and there are no counts of requests in it. -/
structure Vacant (store : Store) : Prop where
  isUp : store.isDown = false
  lookup_key : ∀ siteKey m, store.records.lookup (key siteKey m) = none

/-- The store has one count for each site and minute that had any requests, and it
lives on from the last of these for the lifetime of counts. -/
structure Tallies (store : Store) (window : Nat) (hits : List Hit) : Prop where
  isUp : store.isDown = false
  absent : ∀ siteKey m, hitsIn hits siteKey m = 0 →
    store.records.lookup (key siteKey m) = none
  present : ∀ siteKey m, 0 < hitsIn hits siteKey m →
    ∃ hit ∈ hits, minute hit.now.wall = m ∧
      store.records.lookup (key siteKey m) =
        some ⟨toString (min (hitsIn hits siteKey m) highestCount),
          some (hit.now.clock + (lifetime window * 1000000000 : Nat))⟩

/-! ## Keys -/

theorem colon_notMem_toString (m : Int) : ':' ∉ (toString m).toList := by
  intro h
  rcases Text.mem_toList_toString h with hminus | hdigit
  · cases hminus
  · cases hdigit

/-- Colons and digits in the key of a site do not matter: the minute stands after
the last colon. -/
theorem key_inj {siteKey siteKey' : String} {m m' : Int} :
    key siteKey m = key siteKey' m' ↔ siteKey = siteKey' ∧ m = m' := by
  constructor
  · intro h
    have hchars : siteKey.toList ++ ':' :: (toString m).toList =
        siteKey'.toList ++ ':' :: (toString m').toList := by
      have hall := congrArg String.toList h
      simp only [key, String.toList_append, List.append_assoc] at hall
      exact List.append_cancel_left hall
    have hminute := Text.eq_of_last_mark (colon_notMem_toString m) (colon_notMem_toString m') hchars
    rw [hminute] at hchars
    refine ⟨String.toList_inj.mp (List.append_cancel_right hchars), ?_⟩
    exact Text.toString_inj (String.toList_inj.mp hminute)
  · rintro ⟨rfl, rfl⟩
    rfl

/-! ## One request -/

variable {store : Store} {window : Nat} {hits : List Hit} {hit : Hit} {now : Moment}
  {siteKey : String} {m : Int}

theorem hitsIn_append_self (hits : List Hit) (hit : Hit) :
    hitsIn (hits ++ [hit]) hit.siteKey (minute hit.now.wall) =
      hitsIn hits hit.siteKey (minute hit.now.wall) + 1 := by
  rw [hitsIn, List.countP_append, List.countP_singleton, decide_eq_true ⟨rfl, rfl⟩, if_pos rfl]
  rfl

theorem hitsIn_append_of_ne (hits : List Hit)
    (hne : ¬(hit.siteKey = siteKey ∧ minute hit.now.wall = m)) :
    hitsIn (hits ++ [hit]) siteKey m = hitsIn hits siteKey m := by
  rw [hitsIn, List.countP_append, List.countP_singleton, decide_eq_false hne, if_neg nofun]
  rfl

/-- While a minute is one of the last `window` ones, or the current one, its count
is there. -/
theorem Tallies.shows (h : Tallies store window hits)
    (horder : ∀ hit ∈ hits, Precedes hit.now now) (hwindow : minute now.wall ≤ m + window)
    (siteKey : String) :
    store.Shows now.clock (key siteKey m) (min (hitsIn hits siteKey m) highestCount) := by
  rcases Nat.eq_zero_or_pos (hitsIn hits siteKey m) with hnone | hsome
  · rw [hnone, Nat.zero_min]
    exact Store.find?_of_lookup_none (h.absent siteKey m hnone)
  · obtain ⟨hit, hin, hminute, hlookup⟩ := h.present siteKey m hsome
    obtain ⟨hwall, hclock⟩ := horder hit hin
    generalize hcount : min (hitsIn hits siteKey m) highestCount = count at hlookup
    have hpos : 0 < count := hcount ▸ Nat.lt_min.mpr ⟨hsome, by decide⟩
    -- The minute of the hit, the window and the current minute are one minute less than a life.
    have hlive : now.clock < hit.now.clock + (lifetime window * 1000000000 : Nat) := by
      simp only [minute, Timestamp.seconds, lifetime, Instant] at *
      omega
    exact Store.Shows.of_find? hpos (Store.find?_of_lookup hlookup (decide_eq_true hlive))

theorem Tallies.record (h : Tallies store window hits)
    (horder : ∀ earlier ∈ hits, Precedes earlier.now hit.now) :
    Tallies (record store hit.siteKey window hit.now).2 window (hits ++ [hit]) := by
  have hcurrent : minute hit.now.wall ≤ minute hit.now.wall + window := by omega
  have hshows := h.shows horder hcurrent hit.siteKey
  have hself := Store.lookup_countUp_self h.isUp hshows (Nat.min_le_right _ _) (lifetime window)
  have hother (siteKey : String) (m : Int)
      (hne : ¬(hit.siteKey = siteKey ∧ minute hit.now.wall = m)) :
      (LoadSeries.record store hit.siteKey window hit.now).2.records.lookup (key siteKey m) =
        store.records.lookup (key siteKey m) :=
    Store.lookup_countUp_of_ne _ _ (fun heq => hne (key_inj.mp heq.symm)) _
  refine ⟨(Store.isDown_countUp _ _ _ _).trans h.isUp, fun siteKey m hnone => ?_,
    fun siteKey m hsome => ?_⟩
  · by_cases hsame : hit.siteKey = siteKey ∧ minute hit.now.wall = m
    · obtain ⟨rfl, rfl⟩ := hsame
      rw [hitsIn_append_self] at hnone
      cases hnone
    · rw [hother siteKey m hsame]
      rw [hitsIn_append_of_ne hits hsame] at hnone
      exact h.absent siteKey m hnone
  · by_cases hsame : hit.siteKey = siteKey ∧ minute hit.now.wall = m
    · obtain ⟨rfl, rfl⟩ := hsame
      refine ⟨hit, List.mem_append_right _ (List.mem_singleton_self hit), rfl, ?_⟩
      rw [hitsIn_append_self]
      have hcount : min (min (hitsIn hits hit.siteKey (minute hit.now.wall)) highestCount + 1)
          highestCount =
          min (hitsIn hits hit.siteKey (minute hit.now.wall) + 1) highestCount := by omega
      rw [← hcount]
      exact hself
    · rw [hitsIn_append_of_ne hits hsame] at hsome ⊢
      obtain ⟨earlier, hin, hminute, hlookup⟩ := h.present siteKey m hsome
      exact ⟨earlier, List.mem_append_left _ hin, hminute, (hother siteKey m hsame).trans hlookup⟩

/-! ## Any requests -/

theorem recordAll_append (store : Store) (window : Nat) (hits : List Hit) (hit : Hit) :
    recordAll store window (hits ++ [hit]) =
      (record (recordAll store window hits) hit.siteKey window hit.now).2 := by
  rw [recordAll, recordAll, List.foldl_append]
  rfl

theorem Vacant.tallies (h : Vacant store) (window : Nat)
    (horder : hits.Pairwise fun earlier later => Precedes earlier.now later.now) :
    Tallies (recordAll store window hits) window hits := by
  induction hits using List.reverseRecOn with
  | nil => exact ⟨h.isUp, fun siteKey m _ => h.lookup_key siteKey m, nofun⟩
  | append_singleton hits hit ih =>
    obtain ⟨hbefore, -, hlast⟩ := List.pairwise_append.mp horder
    rw [recordAll_append]
    exact (ih hbefore).record fun earlier hin => hlast earlier hin hit (List.mem_singleton_self hit)

/-- After any requests for any sites a sample of a site has one count for each of the
last complete minutes, the oldest first: the number of its own requests in that
minute, as far as the store can count. And no count is gone while its minute can
still be sampled. -/
theorem sample_recordAll (hvacant : Vacant store) (hwindow : 1 ≤ window)
    (horder : hits.Pairwise fun earlier later => Precedes earlier.now later.now)
    (hnow : ∀ hit ∈ hits, Precedes hit.now now) (siteKey : String) :
    (∃ counts, sample (recordAll store window hits) siteKey window now =
        .ok (.perMinute counts) ∧
      counts.map UInt64.toNat = (List.range window).map fun (i : Nat) =>
        min (hitsIn hits siteKey (minute now.wall - ((window - i : Nat) : Int))) highestCount) ∧
    ∀ hit ∈ hits, minute now.wall ≤ minute hit.now.wall + window →
      ((recordAll store window hits).find? now.clock
        (key hit.siteKey (minute hit.now.wall))).isSome := by
  have htallies := hvacant.tallies window horder
  constructor
  · have hshows : ∀ i ∈ List.range window, (recordAll store window hits).Shows now.clock
        (key siteKey (minute now.wall - ((window - i : Nat) : Int)))
        (min (hitsIn hits siteKey (minute now.wall - ((window - i : Nat) : Int))) highestCount) :=
      fun i _ => htallies.shows hnow (by omega) siteKey
    have hcounts := Store.counts_map_eq_ok htallies.isUp hshows fun _ _ => Nat.min_le_right _ _
    refine ⟨((List.range window).map fun (i : Nat) =>
      min (hitsIn hits siteKey (minute now.wall - ((window - i : Nat) : Int))) highestCount).map
        (·.toUInt64), ?_, ?_⟩
    · rw [sample, windowKeys, Nat.max_eq_left hwindow, hcounts]
    · rw [List.map_map, List.map_map]
      refine List.map_congr_left fun i _ => UInt64.toNat_ofNat_of_lt' ?_
      exact Nat.lt_of_le_of_lt (Nat.min_le_right _ _) (by decide)
  · intro hit hin hlate
    have hpos : 0 < hitsIn hits hit.siteKey (minute hit.now.wall) :=
      List.countP_pos_iff.mpr ⟨hit, hin, decide_eq_true ⟨rfl, rfl⟩⟩
    exact (htallies.shows hnow hlate hit.siteKey).isSome (Nat.lt_min.mpr ⟨hpos, by decide⟩)

/-- A store that only has the count of a replay key. -/
def exStore : Store :=
  ⟨[("replay:a:-1", ⟨"7", none⟩)], false, .zero⟩

def exMoment (seconds : Int) : Moment :=
  ⟨seconds * 1000000000, ⟨seconds * 1000000000⟩⟩

/-- Requests around the start of 1970, for a site and for one whose key goes on with a
colon and digits. -/
def exHits : List Hit :=
  [⟨"a:-1", exMoment (-60)⟩, ⟨"a", exMoment (-1)⟩, ⟨"a", exMoment 0⟩, ⟨"a:0", exMoment 30⟩,
    ⟨"a", exMoment 59⟩, ⟨"a", exMoment 60⟩]

theorem vacant_exStore : Vacant exStore := by
  refine ⟨rfl, fun siteKey m => ?_⟩
  have hne : key siteKey m ≠ "replay:a:-1" := by
    intro h
    have hfirst := congrArg (·.toList.head?) h
    simp [key, label, String.toList_append] at hfirst
  rw [exStore, List.lookup_cons, beq_eq_false_iff_ne.mpr hne]
  rfl

/-- The last second before 1970 and the first minute after, but not the current one. -/
theorem sample_exHits :
    Vacant exStore ∧ 1 ≤ 2 ∧ exHits.Pairwise (fun earlier later => Precedes earlier.now later.now) ∧
      (∀ hit ∈ exHits, Precedes hit.now (exMoment 119)) ∧
      (∃ counts, sample (recordAll exStore 2 exHits) "a" 2 (exMoment 119) =
          .ok (.perMinute counts) ∧ counts.map UInt64.toNat = [1, 2]) ∧
      ((recordAll exStore 2 exHits).find? (exMoment 119).clock (key "a" (-1))).isSome := by
  have horder : exHits.Pairwise fun earlier later => Precedes earlier.now later.now := by
    unfold Precedes
    decide
  have hnow : ∀ hit ∈ exHits, Precedes hit.now (exMoment 119) := by
    unfold Precedes
    decide
  obtain ⟨⟨counts, hsample, hcounts⟩, hlive⟩ :=
    sample_recordAll vacant_exStore (by decide : 1 ≤ 2) horder hnow "a"
  have hhits : (List.range 2).map (fun (i : Nat) => min (hitsIn exHits "a"
      (minute (exMoment 119).wall - ((2 - i : Nat) : Int))) highestCount) = [1, 2] := by
    decide
  have hlast : ⟨"a", exMoment (-1)⟩ ∈ exHits := List.mem_cons_of_mem _ List.mem_cons_self
  have hseen := hlive _ hlast (by decide)
  have hminute : minute (exMoment (-1)).wall = -1 := by decide
  rw [hminute] at hseen
  exact ⟨vacant_exStore, by decide, horder, hnow, ⟨counts, hsample, hcounts.trans hhits⟩, hseen⟩

end Tollgate.LoadSeries
