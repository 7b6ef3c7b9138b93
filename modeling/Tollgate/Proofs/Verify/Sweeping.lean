import Mathlib.Data.List.Sort
import Tollgate.Proofs.Verify.Retention
import Tollgate.Time.Ticker

/-!
# Sweeping

A counter that has expired counts for nothing, whether it is still stored, has been
trimmed or was swept away: the next presentation of its key makes a new one. So while
there is room for all keys, what is answered depends on the presentations and their
instants only, and it does not matter when a ledger is swept, by hand or by workers.

Results:
1. `answers_eq_countedAnswers`: the answers of a run are those by the own counters of
   the keys.
2. `inOrder_withTicks`: workers purge in the order of the run.
3. `find?_run_present_iff`: a presentation leaves the live counters of other keys
   as they are.
4. `expiredCount_eq`, `entries_purge`: what a purge tells and leaves.
5. `sweep_invisible`: a run with other purges, or with workers, has the same answers.
-/

namespace Tollgate

/-! ## Work that is due -/

theorem Instant.natCast_since {now earlier : Instant} (h : earlier ≤ now) :
    ((now.since earlier : Nat) : Int) = now - earlier :=
  Int.toNat_of_nonneg (Int.sub_nonneg_of_le h)

namespace Ticker

variable {w : Ticker} {workers : List Ticker} {now now' t : Instant}

/-- Whole intervals after the first time, up to the instant. -/
theorem mem_due_iff (h : 0 < w.interval.nanos) :
    t ∈ w.due now ↔ ∃ i : Nat, t = w.next + (i * w.interval.nanos : Nat) ∧ t ≤ now := by
  unfold due
  split
  · next hearly =>
    refine ⟨nofun, ?_⟩
    rintro ⟨i, rfl, hle⟩
    have hnext : w.next ≤ w.next + (i * w.interval.nanos : Nat) :=
      Int.le_add_of_nonneg_right (Int.natCast_nonneg _)
    exact absurd (Int.le_trans hnext hle) (Int.not_le.mpr hearly)
  next hlate =>
  rw [if_neg (Nat.ne_of_gt h), List.mem_map]
  have hiff (i : Nat) : i < now.since w.next / w.interval.nanos + 1 ↔
      w.next + (i * w.interval.nanos : Nat) ≤ now := by
    rw [Nat.lt_succ_iff, Nat.le_div_iff_mul_le h, ← Int.ofNat_le,
      Instant.natCast_since (Int.not_lt.mp hlate)]
    exact ⟨Int.add_le_of_le_sub_left, Int.le_sub_left_of_add_le⟩
  constructor
  · rintro ⟨i, hin, rfl⟩
    exact ⟨i, rfl, (hiff i).mp (List.mem_range.mp hin)⟩
  · rintro ⟨i, rfl, hle⟩
    exact ⟨i, List.mem_range.mpr ((hiff i).mpr hle), rfl⟩

theorem due_of_zero (h : w.interval.nanos = 0) :
    w.due now = if now < w.next then [] else [now] := by
  rw [due, if_pos h]

theorem le_of_mem_due (h : t ∈ w.due now) : t ≤ now := by
  rcases Nat.eq_zero_or_pos w.interval.nanos with hzero | hpos
  · rw [due_of_zero hzero] at h
    split at h
    · cases h
    · exact Int.le_of_eq (List.mem_singleton.mp h)
  · obtain ⟨i, -, hle⟩ := (mem_due_iff hpos).mp h
    exact hle

/-- What was due up to an instant is not due again. -/
theorem lt_next_advance (h : 0 < w.interval.nanos) : now < (w.advance now).next := by
  unfold advance due
  dsimp only
  split
  · next hearly => simpa using hearly
  next hlate =>
  have hlt : now.since w.next < (now.since w.next / w.interval.nanos + 1) * w.interval.nanos :=
    (Nat.div_lt_iff_lt_mul h).mp (Nat.lt_succ_self _)
  rw [if_neg (Nat.ne_of_gt h), List.length_map, List.length_range]
  rw [← Int.ofNat_lt, Instant.natCast_since (Int.not_lt.mp hlate)] at hlt
  exact Int.lt_add_of_sub_left_lt hlt

/-- No work is due before `since`, whenever that is asked from then on. -/
def Rests (w : Ticker) (since : Instant) : Prop :=
  ∀ now t, since ≤ now → t ∈ w.due now → since ≤ t

theorem rests_advance (w : Ticker) (since : Instant) : (w.advance since).Rests since := by
  intro now t hle ht
  rcases Nat.eq_zero_or_pos w.interval.nanos with hzero | hpos
  · rw [due_of_zero (w := w.advance since) hzero] at ht
    split at ht
    · cases ht
    · exact List.mem_singleton.mp ht ▸ hle
  · obtain ⟨i, rfl, -⟩ := (mem_due_iff (w := w.advance since) hpos).mp ht
    calc
      since ≤ (w.advance since).next := Int.le_of_lt (lt_next_advance hpos)
      _ ≤ (w.advance since).next + (i * (w.advance since).interval.nanos : Nat) :=
        Int.le_add_of_nonneg_right (Int.natCast_nonneg _)

theorem mem_dueOf_iff : t ∈ dueOf workers now ↔ ∃ w ∈ workers, t ∈ w.due now := by
  rw [dueOf, List.mem_mergeSort, List.mem_flatMap]

theorem pairwise_dueOf (workers : List Ticker) (now : Instant) :
    (dueOf workers now).Pairwise (· ≤ ·) :=
  List.pairwise_mergeSort' (· ≤ ·) _

end Ticker

namespace ReplayLedger

open RetentionLemmas

variable {l : ReplayLedger} {key : ReplayKey} {p : Presentation} {c : Counter} {u : Use}
  {uses before : List Use} {workers : List Ticker} {keys : List ReplayKey} {now since t : Instant}
  {counters : ReplayKey → Option Counter} {capacity : Nat}

/-! ## Definitions -/

/-- A use that presents something, told by its instant and what it presents. -/
def Use.call? : Use → Option (Instant × Presentation)
  | .present now p => some (now, p)
  | .purge _ => none

/-- A run without its purges. -/
def calls (uses : List Use) : List (Instant × Presentation) :=
  uses.filterMap Use.call?

/-- The answers to the presentations of a run. -/
def answers : ReplayLedger → List Use → List (Except Crash (Except Failure Bool))
  | _, [] => []
  | l, .purge now :: rest => (l.purge now).answers rest
  | l, .present now p :: rest => (present now p l).1 :: (present now p l).2.answers rest

/-- A run in which workers purge as well, each whenever it is due. -/
def withTicks : List Ticker → List Use → List Use
  | _, [] => []
  | workers, u :: rest =>
    (Ticker.dueOf workers u.now).map .purge ++ u :: withTicks (workers.map (·.advance u.now)) rest

/-- The answer to a presentation by the live counter of its key. -/
def answerBy (live : Option Counter) (now : Instant) (p : Presentation) :
    Except Crash (Except Failure Bool) :=
  match live with
  | some c => .ok (.ok (c.next.count ≤ p.limit.toNat))
  | none =>
    if (now.after? p.ttl).isSome then .ok (.ok (1 ≤ p.limit.toNat)) else .error .clockOverflow

/-- The answers by the own counters of the keys, each of which goes on with the
presentations of its key. -/
def countedAnswers (counters : ReplayKey → Option Counter) :
    List (Instant × Presentation) → List (Except Crash (Except Failure Bool))
  | [] => []
  | (now, p) :: rest =>
    answerBy ((counters p.key).filter (·.isLive now)) now p ::
      countedAnswers (fun key => (Use.present now p).count key (counters key)) rest

/-! ## Runs with ticks -/

theorem calls_withTicks (workers : List Ticker) (uses : List Use) :
    calls (withTicks workers uses) = calls uses := by
  induction uses generalizing workers with
  | nil => rfl
  | cons u rest ih =>
    have hticks : calls ((Ticker.dueOf workers u.now).map .purge) = [] := by
      simp [calls, Use.call?]
    have hrest := ih (workers.map (·.advance u.now))
    rw [withTicks, calls, List.filterMap_append, ← calls, hticks, List.nil_append,
      List.filterMap_cons, ← calls, hrest]
    rfl

theorem mem_withTicks_cons {u' : Use} (h : u' ∈ withTicks workers (u :: uses)) :
    (∃ t, u' = .purge t ∧ t ∈ Ticker.dueOf workers u.now) ∨ u' = u ∨
      u' ∈ withTicks (workers.map (·.advance u.now)) uses := by
  rcases List.mem_append.mp h with htick | hlater
  · obtain ⟨t, ht, rfl⟩ := List.mem_map.mp htick
    exact .inl ⟨t, rfl, ht⟩
  · exact .inr (List.mem_cons.mp hlater)

theorem rests_map_advance (workers : List Ticker) (since : Instant) :
    ∀ w ∈ workers.map (·.advance since), w.Rests since := by
  intro w hin
  obtain ⟨w, -, rfl⟩ := List.mem_map.mp hin
  exact w.rests_advance since

theorem le_of_mem_withTicks (horder : InOrder uses) (hworkers : ∀ w ∈ workers, w.Rests since)
    (huses : ∀ u ∈ uses, since ≤ u.now) : ∀ u ∈ withTicks workers uses, since ≤ u.now := by
  induction uses generalizing workers since with
  | nil => exact nofun
  | cons u rest ih =>
    intro u' hin
    have hu := huses u List.mem_cons_self
    obtain ⟨hnext, hrest⟩ := List.pairwise_cons.mp horder
    rcases mem_withTicks_cons hin with ⟨t, rfl, ht⟩ | rfl | hlater
    · obtain ⟨w, hw, hdue⟩ := Ticker.mem_dueOf_iff.mp ht
      exact hworkers w hw u.now t hu hdue
    · exact hu
    · exact Int.le_trans hu (ih hrest (rests_map_advance workers u.now) hnext u' hlater)

/-- Workers purge when it is their turn: after all that is done before, and before all
that is done later. -/
theorem inOrder_withTicks (horder : InOrder uses) (workers : List Ticker) :
    InOrder (withTicks workers uses) := by
  induction uses generalizing workers with
  | nil => exact List.Pairwise.nil
  | cons u rest ih =>
    obtain ⟨hnext, hrest⟩ := List.pairwise_cons.mp horder
    have hlater := le_of_mem_withTicks hrest (rests_map_advance workers u.now) hnext
    refine List.pairwise_append.mpr ⟨?_, List.pairwise_cons.mpr ⟨hlater, ih hrest _⟩, ?_⟩
    · exact List.pairwise_map.mpr (Ticker.pairwise_dueOf workers u.now)
    · intro tick htick u' hin
      obtain ⟨t, ht, rfl⟩ := List.mem_map.mp htick
      obtain ⟨w, -, hdue⟩ := Ticker.mem_dueOf_iff.mp ht
      have hle : t ≤ u.now := Ticker.le_of_mem_due hdue
      rcases List.mem_cons.mp hin with rfl | hin'
      · exact hle
      · exact Int.le_trans hle (hlater u' hin')

/-! ## Answers -/

theorem fst_present_eq (l : ReplayLedger) (now : Instant) (p : Presentation) :
    (present now p l).1 = answerBy (l.live? p.key now) now p := by
  cases h : l.live? p.key now with
  | some c => rw [present_of_live h, answerBy]
  | none =>
    cases hend : now.after? p.ttl with
    | none =>
      rw [present_of_overflow h hend, answerBy, hend]
      rfl
    | some expires =>
      rw [fst_present_of_fresh h hend, answerBy, hend]
      rfl

theorem Fits.purge (h : l.Fits keys) (now : Instant) : (l.purge now).Fits keys where
  nodup := Recency.nodup_keys_filter _ h.nodup
  subset := fun _ hin => h.subset ((List.filter_sublist.map Prod.fst).subset hin)
  room := h.room

theorem Fits.step (h : l.Fits keys) (hkey : ∀ key, u.key? = some key → key ∈ keys) :
    (l.step u).Fits keys := by
  cases u with
  | purge now => exact h.purge now
  | present now p => exact h.present (hkey p.key rfl) now

theorem keys_subset_of_cons (h : (u :: uses).filterMap Use.key? ⊆ keys) :
    uses.filterMap Use.key? ⊆ keys :=
  fun _ hin => h (((List.sublist_cons_self u uses).filterMap Use.key?).subset hin)

theorem Fits.run (h : l.Fits keys) (hkeys : uses.filterMap Use.key? ⊆ keys) :
    (l.run uses).Fits keys := by
  induction uses generalizing l with
  | nil => exact h
  | cons u rest ih =>
    refine ih (h.step fun key hkey => hkeys ?_) (keys_subset_of_cons hkeys)
    exact List.mem_filterMap.mpr ⟨u, List.mem_cons_self, hkey⟩

/-- With room for all keys, the answers of a run are those by the own counters of the keys:
each use leaves the ledger showing what the counter of each key is by then. -/
theorem answers_eq_countedAnswers (hfits : l.Fits keys)
    (hkeys : uses.filterMap Use.key? ⊆ keys) (horder : InOrder uses)
    (hshows : ∀ key, ∀ u ∈ uses, l.Shows key (counters key) u.now) :
    l.answers uses = countedAnswers counters (calls uses) := by
  induction uses generalizing l counters with
  | nil => rfl
  | cons u rest ih =>
    obtain ⟨hnext, hrest⟩ := List.pairwise_cons.mp horder
    have hkeys' := keys_subset_of_cons hkeys
    cases u with
    | purge now =>
      refine ih (hfits.purge now) hkeys' hrest fun key u' hin t ht => ?_
      have hle : now ≤ t := Int.le_trans (hnext u' hin) ht
      rw [live?_purge hfits.nodup hle]
      exact hshows key u' (List.mem_cons_of_mem _ hin) t ht
    | present now p =>
      have hkey : p.key ∈ keys := hkeys List.mem_cons_self
      have hnow (key : ReplayKey) : l.Shows key (counters key) now :=
        hshows key _ List.mem_cons_self
      have htail := ih (hfits.present hkey now) hkeys' hrest fun key u' hin =>
        ((hnow key).present hfits hkey).later (hnext u' hin)
      show (present now p l).1 :: (present now p l).2.answers rest = _
      rw [fst_present_eq, hnow p.key now (Int.le_refl now), htail]
      rfl

theorem keys_calls (uses : List Use) :
    uses.filterMap Use.key? = (calls uses).map fun call => call.2.key := by
  rw [calls, List.map_filterMap]
  refine List.filterMap_congr fun u _ => ?_
  cases u <;> rfl

/-! ## Ledgers that are used -/

theorem nodup_put (h : l.counters.keys.Nodup) (key : ReplayKey) (c : Counter) :
    (l.put key c).counters.keys.Nodup := by
  refine Recency.nodup_keys_put key c ?_
  split
  · exact h
  · exact Recency.nodup_keys_dropOldest h

theorem nodup_step (h : l.counters.keys.Nodup) (u : Use) : (l.step u).counters.keys.Nodup := by
  cases u with
  | purge now => exact Recency.nodup_keys_filter _ h
  | present now p =>
    cases hlive : l.live? p.key now with
    | some c =>
      rw [step, present_of_live hlive]
      exact Recency.nodup_keys_put p.key c.next h
    | none =>
      cases hend : now.after? p.ttl with
      | none =>
        rw [step, present_of_overflow hlive hend]
        exact Recency.nodup_keys_touch p.key h
      | some expires =>
        rw [present_eq_put (n := l.capacity) hlive hend]
        exact nodup_put (l := ⟨l.capacity, trimmed l.counters p.key now⟩)
          (nodup_trimmed h p.key now) p.key _

theorem nodup_run (h : l.counters.keys.Nodup) (uses : List Use) :
    (l.run uses).counters.keys.Nodup := by
  induction uses generalizing l with
  | nil => exact h
  | cons u rest ih => exact ih (nodup_step h u)

/-- A ledger that has been used has room for the keys it holds and those of a run, if they
are no more than its capacity. -/
theorem fits_run_new {history : List Use}
    (hroom : (((new capacity).run history).counters.keys ++ uses.filterMap Use.key?).dedup.length ≤
      max 1 capacity) :
    ((new capacity).run history).Fits
      (((new capacity).run history).counters.keys ++ uses.filterMap Use.key?) where
  nodup := nodup_run (l := new capacity) List.nodup_nil history
  subset := List.subset_append_left _ _
  room := by
    rw [capacity_run]
    exact hroom

/-! ## Live counters and purges -/

theorem live?_eq_some_iff :
    l.live? key now = some c ↔ l.counters.find? key = some c ∧ now < c.expires := by
  rw [live?, Option.filter_eq_some_iff, Counter.isLive, decide_eq_true_iff]

/-- A presentation leaves the live counters of other keys as they are. -/
theorem find?_run_present_iff (hfits : l.Fits keys) (hkeys : uses.filterMap Use.key? ⊆ keys)
    (hinit : before ++ [.present now p] <+: uses) (hne : key ≠ p.key) (hlive : now < c.expires) :
    (l.run (before ++ [.present now p])).counters.find? key = some c ↔
      (l.run before).counters.find? key = some c := by
  have hsub : (before ++ [Use.present now p]).filterMap Use.key? ⊆ keys :=
    fun _ hin => hkeys ((hinit.sublist.filterMap Use.key?).subset hin)
  rw [List.filterMap_append] at hsub
  have hbefore := hfits.run fun _ hin => hsub (List.mem_append_left _ hin)
  have hkey : p.key ∈ keys := hsub (List.mem_append_right _ List.mem_cons_self)
  have hsame := live?_present_of_ne hbefore hkey hne (Int.le_refl now)
  have hiff (l : ReplayLedger) : l.live? key now = some c ↔ l.counters.find? key = some c :=
    live?_eq_some_iff.trans (and_iff_left hlive)
  rw [run_append, ← hiff, ← hiff]
  exact hsame ▸ Iff.rfl

theorem entries_purge (l : ReplayLedger) (now : Instant) :
    (l.purge now).counters.entries =
      l.counters.entries.filter fun entry => now < entry.2.expires :=
  rfl

/-- A purge tells how many counters have expired, those that end at its instant
included. -/
theorem expiredCount_eq (l : ReplayLedger) (now : Instant) :
    l.expiredCount now = l.counters.entries.countP fun entry => entry.2.expires ≤ now := by
  have hkept : (l.purge now).size = l.counters.entries.countP fun entry => now < entry.2.expires :=
    List.countP_eq_length_filter.symm
  have hparts : l.size = (l.purge now).size +
      l.counters.entries.countP fun entry => entry.2.expires ≤ now := by
    rw [hkept]
    refine (List.length_eq_countP_add_countP fun entry => now < entry.2.expires).trans ?_
    congr 2
    funext entry
    simp
  rw [expiredCount, hparts, Nat.add_sub_cancel_left]

/-! ## Results -/

/-- Take a ledger that may have been used before, and a run for which it has room: the keys
that it holds and those that are presented are no more than its capacity. The answers of
the run do not depend on its purges, and are the same if workers purge meanwhile. A
presentation leaves the live counters of all other keys as they are. A purge, whatever the
ledger, drops exactly the counters that have expired, and tells how many they are. -/
theorem sweep_invisible (capacity : Nat) (history uses : List Use) (horder : InOrder uses)
    (hroom : (((new capacity).run history).counters.keys ++ uses.filterMap Use.key?).dedup.length ≤
      max 1 capacity) :
    let l := (new capacity).run history
    (∀ uses', InOrder uses' → calls uses' = calls uses → l.answers uses' = l.answers uses) ∧
    (∀ workers, l.answers (withTicks workers uses) = l.answers uses) ∧
    (∀ before now p, before ++ [.present now p] <+: uses → ∀ key c, key ≠ p.key →
      now < c.expires → ((l.run (before ++ [.present now p])).counters.find? key = some c ↔
        (l.run before).counters.find? key = some c)) ∧
    ∀ (l' : ReplayLedger) now,
      (l'.expiredCount now = l'.counters.entries.countP fun entry => entry.2.expires ≤ now) ∧
      (l'.purge now).counters.entries =
        l'.counters.entries.filter fun entry => now < entry.2.expires := by
  intro l
  have hfits := fits_run_new hroom
  have hkeys := List.subset_append_right l.counters.keys (uses.filterMap Use.key?)
  have hanswers : ∀ uses', InOrder uses' → calls uses' = calls uses →
      l.answers uses' = l.answers uses := by
    intro uses' horder' hcalls
    have hkeys' : uses'.filterMap Use.key? ⊆ l.counters.keys ++ uses.filterMap Use.key? := by
      rwa [keys_calls uses', hcalls, ← keys_calls uses]
    -- Both runs start with the counters that are stored, live or not.
    have hstored : ∀ uses : List Use, ∀ key, ∀ u ∈ uses,
        l.Shows key (l.counters.find? key) u.now := fun _ _ _ _ _ _ => rfl
    rw [answers_eq_countedAnswers hfits hkeys' horder' (hstored uses'), hcalls,
      answers_eq_countedAnswers hfits hkeys horder (hstored uses)]
  refine ⟨hanswers, fun workers => ?_, fun before now p hinit key c hne hlive => ?_,
    fun l' now => ⟨expiredCount_eq l' now, entries_purge l' now⟩⟩
  · exact hanswers _ (inOrder_withTicks horder workers) (calls_withTicks workers uses)
  · exact find?_run_present_iff hfits hkeys hinit hne hlive

/-- Before the run a key was presented at the instant `0`, for five seconds. -/
def exEarlier : List Use :=
  [.present 0 (exPresentation 1 5)]

/-- The key comes again one nanosecond before its counter ends, and at its very end. -/
def exAround : List Use :=
  [.present 1000000000 (exPresentation 2 60), .present 4999999999 (exPresentation 1 5),
    .present 5000000000 (exPresentation 1 5), .present 6000000000 (exPresentation 2 60)]

/-- The same presentations, with a purge right before the counter ends, another one when it
ends, and one at the end of the run. -/
def exAroundSwept : List Use :=
  exAround.take 2 ++ .purge 4999999999 :: .purge 5000000000 :: exAround.drop 2 ++
    [.purge 6000000000]

/-- For single use, each key is accepted once for each of its counters, with purges, with a
worker that purges every second, and without both. -/
theorem sweep_exAround :
    InOrder exAround ∧
    (((new 2).run exEarlier).counters.keys ++ exAround.filterMap Use.key?).dedup.length ≤ max 1 2 ∧
    ((new 2).run exEarlier).answers exAround =
      [.ok (.ok true), .ok (.ok false), .ok (.ok true), .ok (.ok false)] ∧
    ((new 2).run exEarlier).answers exAroundSwept =
      [.ok (.ok true), .ok (.ok false), .ok (.ok true), .ok (.ok false)] ∧
    ((new 2).run exEarlier).answers (withTicks [⟨.ofSeconds 1, 1000000000⟩] exAround) =
      [.ok (.ok true), .ok (.ok false), .ok (.ok true), .ok (.ok false)] ∧
    (((new 2).run exEarlier).run (exAround.take 3)).counters.find? (exPresentation 2 60).key =
      some ⟨1, 61000000000⟩ ∧
    ((new 2).run exEarlier).expiredCount 5000000000 = 1 ∧
    ((new 2).run exEarlier).expiredCount 4999999999 = 0 := by
  have horder : InOrder exAround := by decide
  have hroom : (((new 2).run exEarlier).counters.keys ++
      exAround.filterMap Use.key?).dedup.length ≤ max 1 2 := by decide
  have hanswers : ((new 2).run exEarlier).answers exAround =
      [.ok (.ok true), .ok (.ok false), .ok (.ok true), .ok (.ok false)] := by decide
  obtain ⟨hpurges, hticks, hothers, hcounts⟩ := sweep_invisible 2 exEarlier exAround horder hroom
  have hkept := (hothers (exAround.take 2) 5000000000 (exPresentation 1 5) (by decide)
    (exPresentation 2 60).key ⟨1, 61000000000⟩ (by decide) (by decide)).mpr (by decide)
  exact ⟨horder, hroom, hanswers, (hpurges exAroundSwept (by decide) rfl).trans hanswers,
    (hticks _).trans hanswers, hkept, (hcounts _ _).1.trans (by decide),
    (hcounts _ _).1.trans (by decide)⟩

end ReplayLedger

end Tollgate
