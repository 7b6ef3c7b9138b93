import Tollgate.Proofs.Verify.Uses

/-!
# Which counters a ledger keeps

A counter is to be kept as long as it lives. A ledger drops counters in three
ways. A purge drops expired ones, wherever they stand. A new key drops those
that have expired from the end touched longest ago, up to the first live one.
And if that has made no room, it drops this live one, although counters that
have expired may stand in front of it.

Results:
1. `storeUse_cases`: what a use leaves behind, by whether it needs room.
2. `counters_run`, `exists_lost`: a ledger is like one with room as long as that
   one holds no more than it can, and loses a live counter when it does.
3. `keepsLive_iff`: exactly when no live counter is lost, and what is answered
   then.
4. `exUnswept_restarts`: a live counter that makes room for an expired one.
-/

namespace Tollgate.ReplayLedger

/-! ## Definitions -/

/-- No counter is dropped or restarted while it lives: after each use the
ledger's live counters are those that the keys have by their own presentations. -/
def KeepsLive (capacity : Nat) (uses : List Use) : Prop :=
  ∀ before u, before ++ [u] <+: uses → ∀ key,
    ((new capacity).run (before ++ [u])).live? key u.now =
      (counterOf key (before ++ [u])).filter (·.isLive u.now)

/-- A ledger with room for one more at every step never holds more counters than
there is capacity for. -/
def Fitting (capacity : Nat) (uses : List Use) : Prop :=
  ∀ before, before <+: uses → (stored before).size ≤ max 1 capacity

theorem Fitting.of_prefix {capacity : Nat} {before uses : List Use} (h : Fitting capacity uses)
    (hinit : before <+: uses) : Fitting capacity before :=
  fun _ hbefore => h _ (hbefore.trans hinit)

/-- The keys that have a live counter after the last use, and the key that it
presents. -/
def inFlight (before : List Use) (u : Use) : List ReplayKey :=
  ((before ++ [u]).filterMap Use.key?).dedup.filter fun key =>
    u.key? = some key || (counterOf key (before ++ [u])).any (·.isLive u.now)

/-- After each use no more keys are in flight than there is capacity for. -/
def InFlightAtMost (capacity : Nat) (uses : List Use) : Prop :=
  ∀ i : Fin uses.length, (inFlight (uses.take i) uses[i]).length ≤ capacity

/-- Every presentation comes right after a purge at the same instant. -/
def Swept (uses : List Use) : Prop :=
  ∀ i : Fin uses.length, uses[i].key?.isSome = true →
    (uses.take i).getLast? = some (.purge uses[i].now)

instance (capacity : Nat) (uses : List Use) : Decidable (InFlightAtMost capacity uses) :=
  inferInstanceAs (Decidable (∀ _ : Fin uses.length, _))

instance (uses : List Use) : Decidable (Swept uses) :=
  inferInstanceAs (Decidable (∀ _ : Fin uses.length, _))

/-- The answer to a presentation after some uses of a new ledger. -/
def answerAfter (capacity : Nat) (before : List Use) (t : Instant) (p : Presentation) :
    Except Crash (Except Failure Bool) :=
  (present t p ((new capacity).run before)).1

/-- Of the presentations that come while a counter lives, the first of them the
one that makes it, each is accepted exactly if its number is within its limit. -/
structure CountsExactly (capacity : Nat) (uses : List Use) : Prop where
  first : ∀ before t p expires, before ++ [.present t p] <+: uses → Starts before t p expires →
    answerAfter capacity before t p = .ok (.ok (1 ≤ p.limit.toNat))
  later : ∀ before t p expires middle u q,
    before ++ .present t p :: middle ++ [.present u q] <+: uses → Starts before t p expires →
    q.key = p.key → u < expires → presentationsOf p.key middle + 2 ≤ Counter.limit →
    answerAfter capacity (before ++ .present t p :: middle) u q =
      .ok (.ok (presentationsOf p.key middle + 2 ≤ q.limit.toNat))

/-- The counters that are left when a new counter of a key is about to be put. -/
def trimmed (r : Recency ReplayKey Counter) (key : ReplayKey) (now : Instant) :
    Recency ReplayKey Counter :=
  ((⟨0, r.touch key⟩ : ReplayLedger).trim now).counters

namespace RetentionLemmas

variable {r : Recency ReplayKey Counter} {l : ReplayLedger} {key : ReplayKey} {u : Use}
  {uses before middle : List Use} {t now expires : Instant} {p : Presentation}
  {counter : Option Counter} {keys : List ReplayKey}

/-! ## Without room -/

theorem size_trim_le (l : ReplayLedger) (now : Instant) : (l.trim now).size ≤ l.size := by
  rw [size, size, Recency.size_eq_length_keys, Recency.size_eq_length_keys]
  exact (keys_trim_sublist l now).length_le

/-- Trimming stops at a live counter. -/
theorem isLive_oldest_trim {entry : ReplayKey × Counter}
    (h : (l.trim now).counters.oldest? = some entry) : entry.2.isLive now = true := by
  have hhead : (l.counters.entries.reverse.dropWhile fun entry => !entry.2.isLive now).head? =
      some entry := by
    rwa [Recency.oldest?, trim, List.getLast?_reverse] at h
  have hnot := List.head?_dropWhile_not (fun entry : ReplayKey × Counter => !entry.2.isLive now)
    l.counters.entries.reverse
  rw [hhead] at hnot
  simpa using hnot

theorem present_eq_put {n : Nat} (h : (⟨n, r⟩ : ReplayLedger).live? p.key now = none)
    (hend : now.after? p.ttl = some expires) :
    step ⟨n, r⟩ (.present now p) =
      (⟨n, trimmed r p.key now⟩ : ReplayLedger).put p.key ⟨1, expires⟩ := by
  simp only [live?] at h
  simp only [step, ReplayLedger.present, h, hend]
  rfl

theorem size_touch (h : r.keys.Nodup) (key : ReplayKey) : (r.touch key).size = r.size := by
  unfold Recency.touch
  split
  · next c hfind =>
    rw [Recency.size_put c h, if_pos (Recency.mem_keys_of_find? hfind), Nat.add_zero]
  · rfl

theorem size_trimmed_le (h : r.keys.Nodup) (key : ReplayKey) (now : Instant) :
    (trimmed r key now).size ≤ r.size :=
  size_touch h key ▸ size_trim_le ⟨0, r.touch key⟩ now

theorem nodup_trimmed (h : r.keys.Nodup) (key : ReplayKey) (now : Instant) :
    (trimmed r key now).keys.Nodup :=
  (Recency.nodup_keys_touch key h).sublist (keys_trim_sublist ⟨0, r.touch key⟩ now)

/-- What a use leaves behind if there is room: a purge or a presentation adds no
counter but that of a key that finds none. -/
theorem storeUse_cases (hnodup : r.keys.Nodup) (u : Use) :
    (∀ n, (step ⟨n, r⟩ u).counters = storeUse r u) ∧ (storeUse r u).size ≤ r.size ∨
      ∃ now p expires, u = .present now p ∧
        (∀ n, step ⟨n, r⟩ u = (⟨n, trimmed r p.key now⟩ : ReplayLedger).put p.key ⟨1, expires⟩) ∧
        storeUse r u = (trimmed r p.key now).put p.key ⟨1, expires⟩ := by
  cases u with
  | purge now => exact .inl ⟨fun _ => rfl, List.length_filter_le _ _⟩
  | present now p =>
    cases hlive : (⟨r.size + 1, r⟩ : ReplayLedger).live? p.key now with
    | some c =>
      have hstep : ∀ n, step ⟨n, r⟩ (.present now p) = ⟨n, r.put p.key c.next⟩ := fun n =>
        congrArg Prod.snd (present_of_live (l := ⟨n, r⟩) hlive)
      have hstored : p.key ∈ r.keys :=
        Recency.mem_keys_of_find? (Option.filter_eq_some_iff.mp hlive).1
      have hsize : (r.put p.key c.next).size = r.size := by
        rw [Recency.size_put c.next hnodup, if_pos hstored, Nat.add_zero]
      refine .inl ⟨fun n => by rw [storeUse, hstep, hstep], ?_⟩
      rw [storeUse, hstep]
      exact Nat.le_of_eq hsize
    | none =>
      cases hend : now.after? p.ttl with
      | none =>
        have hstep : ∀ n, step ⟨n, r⟩ (.present now p) = ⟨n, r.touch p.key⟩ := fun n =>
          congrArg Prod.snd (present_of_overflow (l := ⟨n, r⟩) hlive hend)
        refine .inl ⟨fun n => by rw [storeUse, hstep, hstep], ?_⟩
        rw [storeUse, hstep]
        exact Nat.le_of_eq (size_touch hnodup p.key)
      | some expires =>
        refine .inr ⟨now, p, expires, rfl, fun n => present_eq_put hlive hend, ?_⟩
        have hroom : (⟨r.size + 1, trimmed r p.key now⟩ : ReplayLedger).size < r.size + 1 :=
          Nat.lt_succ_of_le (size_trimmed_le hnodup p.key now)
        rw [storeUse, present_eq_put hlive hend, put_of_room (.inr hroom)]

/-- A ledger is like one with room as long as that one holds no more than it can. -/
theorem counters_step (hnodup : l.counters.keys.Nodup)
    (hfits : (storeUse l.counters u).size ≤ l.capacity) :
    (l.step u).counters = storeUse l.counters u := by
  rcases storeUse_cases hnodup u with ⟨hsame, -⟩ | ⟨now, p, expires, -, hput, hstore⟩
  · exact hsame l.capacity
  · rw [hstore, Recency.size_put _ (nodup_trimmed hnodup p.key now)] at hfits
    have hroom : p.key ∈ (trimmed l.counters p.key now).keys ∨
        (trimmed l.counters p.key now).size < l.capacity := by
      by_cases hin : p.key ∈ (trimmed l.counters p.key now).keys
      · exact .inl hin
      · rw [if_neg hin] at hfits
        exact .inr hfits
    rw [hstore]
    exact congrArg ReplayLedger.counters ((hput l.capacity).trans (put_of_room hroom _))

/-- When one with room would hold more, a live counter is lost: the one touched
longest ago, where trimming stops. -/
theorem exists_lost (hnodup : l.counters.keys.Nodup) (hpos : 1 ≤ l.capacity)
    (hsize : l.size ≤ l.capacity) (hover : l.capacity < (storeUse l.counters u).size) :
    ∃ key c, c.isLive u.now = true ∧ (storeUse l.counters u).find? key = some c ∧
      (l.step u).counters.find? key = none := by
  rcases storeUse_cases hnodup u with ⟨-, hle⟩ | ⟨now, p, expires, rfl, hput, hstore⟩
  · have hsize' : l.counters.size ≤ l.capacity := hsize
    omega
  · have hnodup' := nodup_trimmed hnodup p.key now
    have hle : (trimmed l.counters p.key now).size ≤ l.capacity :=
      Nat.le_trans (size_trimmed_le hnodup p.key now) hsize
    rw [hstore, Recency.size_put _ hnodup'] at hover
    by_cases hin : p.key ∈ (trimmed l.counters p.key now).keys
    · rw [if_pos hin] at hover
      omega
    · rw [if_neg hin] at hover
      have hstep := (hput l.capacity).trans
        (put_of_full (l := ⟨l.capacity, trimmed l.counters p.key now⟩) hin
          (Nat.le_of_lt_succ hover) ⟨1, expires⟩)
      cases hold : (trimmed l.counters p.key now).oldest? with
      | none =>
        have hnil := List.getLast?_eq_none_iff.mp hold
        simp only [Recency.size, hnil, List.length_nil] at hover
        omega
      | some entry =>
        obtain ⟨old, c⟩ := entry
        have hne : old ≠ p.key := by
          rintro rfl
          exact hin (Recency.keys_of_oldest? hold ▸ List.mem_append_right _ List.mem_cons_self)
        have hfind : (trimmed l.counters p.key now).find? old = some c :=
          (Recency.find?_eq_some_iff hnodup').mpr (List.mem_of_getLast? hold)
        refine ⟨old, c, isLive_oldest_trim hold, ?_, ?_⟩
        · rw [hstore, Recency.find?_put_of_ne _ _ hne, hfind]
        · have hcounters := congrArg ReplayLedger.counters hstep
          refine (congrArg (Recency.find? · old) hcounters).trans ?_
          rw [Recency.find?_put_of_ne _ _ hne]
          exact Recency.find?_dropOldest_self hnodup' hold

/-! ## Runs -/

variable {capacity : Nat}

theorem counters_run (h : Fitting capacity uses) :
    ((new capacity).run uses).counters = stored uses := by
  induction uses using List.reverseRecOn with
  | nil => rfl
  | append_singleton uses u ih =>
    have huses := ih (h.of_prefix (List.prefix_append _ _))
    have hfits := h (uses ++ [u]) (List.prefix_refl _)
    rw [stored_append] at hfits
    rw [run_append, stored_append, ← huses]
    refine counters_step (huses ▸ nodup_stored uses) ?_
    rwa [huses, capacity_run]

theorem live?_run (horder : InOrder uses) (hle : ∀ u ∈ uses, u.now ≤ t)
    (h : Fitting capacity uses) (key : ReplayKey) :
    ((new capacity).run uses).live? key t = (counterOf key uses).filter (·.isLive t) := by
  have hshows := shows_stored (n := max 1 capacity) horder hle key t (Int.le_refl t)
  rw [← hshows, live?, live?, counters_run h]

theorem keepsLive_of_fitting (horder : InOrder uses) (h : Fitting capacity uses) :
    KeepsLive capacity uses := by
  intro before u hinit key
  have horder' := horder.of_prefix hinit
  refine live?_run horder' (fun u' hin => ?_) (h.of_prefix hinit) key
  rcases List.mem_append.mp hin with hbefore | hlast
  · exact horder'.le_of_append u' hbefore
  · exact Int.le_of_eq (congrArg Use.now (List.mem_singleton.mp hlast))

theorem fitting_of_keepsLive (horder : InOrder uses) (h : KeepsLive capacity uses) :
    Fitting capacity uses := by
  intro before hinit
  -- Up to the first use that leaves too many counters, the ledger is like one with room.
  suffices hall : Fitting capacity before from hall before (List.prefix_refl _)
  induction before using List.reverseRecOn with
  | nil =>
    intro before hnil
    rw [List.prefix_nil.mp hnil]
    exact Nat.zero_le _
  | append_singleton before u ih =>
    have hbefore := ih ((List.prefix_append _ _).trans hinit)
    intro before' hinit'
    rcases List.prefix_concat_iff.mp hinit' with rfl | hshort
    · have hcounters := counters_run hbefore
      have hnodup := nodup_stored before
      have hsize := hbefore before (List.prefix_refl _)
      have horder' := horder.of_prefix hinit
      by_contra hover
      rw [← hcounters] at hnodup hsize
      rw [stored_append, ← hcounters, Nat.not_le] at hover
      obtain ⟨key, c, hlive, hstored, hlost⟩ := exists_lost (u := u) hnodup
        (by rw [capacity_run]; exact Nat.le_max_left 1 capacity)
        (by rw [capacity_run]; exact hsize) (by rw [capacity_run]; exact hover)
      have hkept := h before u hinit key
      rw [run_append, live?, hlost] at hkept
      have hshows := shows_storeUse (n := 0) (m := 0) (nodup_stored before)
        (shows_stored horder'.of_append horder'.le_of_append key) u.now (Int.le_refl _)
      rw [← counterOf_append, ← hkept, live?, ← hcounters, hstored] at hshows
      simp [Option.filter, hlive] at hshows
    · exact hbefore before' hshort

/-! ## Answers -/

theorem fst_present_of_fresh (h : l.live? p.key now = none)
    (hend : now.after? p.ttl = some expires) :
    (ReplayLedger.present now p l).1 = .ok (.ok (1 ≤ p.limit.toNat)) := by
  simp only [live?] at h
  simp only [ReplayLedger.present, h, hend]

theorem countsExactly_of_fitting (horder : InOrder uses) (h : Fitting capacity uses) :
    CountsExactly capacity uses where
  first := by
    intro before t p expires hinit hstart
    have hbefore := (List.prefix_append _ _).trans hinit
    have hlive := live?_run (horder.of_prefix hbefore) (horder.of_prefix hinit).le_of_append
      (h.of_prefix hbefore) p.key
    exact fst_present_of_fresh (hlive.trans hstart.1) hstart.2
  later := by
    intro before t p expires middle u q hinit hstart hkey hu hcount
    have hbefore := (List.prefix_append _ _).trans hinit
    have hle : ∀ u' ∈ before ++ .present t p :: middle, u'.now ≤ u :=
      (horder.of_prefix hinit).le_of_append
    have hcounter := counterOf_of_starts hstart fun u' hin =>
      Int.lt_of_le_of_lt (hle u' (List.mem_append_right _ (List.mem_cons_of_mem _ hin))) hu
    have hlive : ((new capacity).run (before ++ .present t p :: middle)).live? q.key u =
        some ⟨min (presentationsOf p.key middle + 1) Counter.limit, expires⟩ := by
      rw [live?_run (horder.of_prefix hbefore) hle (h.of_prefix hbefore), hkey, hcounter]
      exact Option.filter_eq_some_iff.mpr ⟨rfl, decide_eq_true hu⟩
    have hsmall : min (presentationsOf p.key middle + 1 + 1) Counter.limit =
        presentationsOf p.key middle + 2 :=
      Nat.min_eq_left hcount
    rw [answerAfter, present_of_live hlive, Counter.next_min]
    simp only [hsmall]

/-! ## Purges -/

theorem mem_of_counterOf {c : Counter} (h : counterOf key uses = some c) :
    key ∈ uses.filterMap Use.key? := by
  induction uses using List.reverseRecOn generalizing c with
  | nil => cases h
  | append_singleton uses u ih =>
    rw [List.filterMap_append, List.mem_append]
    by_cases hkey : u.key? = some key
    · exact .inr (by simp [hkey])
    · rw [counterOf_append, count_of_ne hkey] at h
      exact .inl (ih h)

theorem mem_inFlight {c : Counter} (h : counterOf key (before ++ [u]) = some c)
    (hlive : c.isLive u.now = true) : key ∈ inFlight before u :=
  List.mem_filter.mpr ⟨List.mem_dedup.mpr (mem_of_counterOf h), by simp [h, hlive]⟩

/-- What a purge leaves behind lives. -/
theorem exists_counterOf_of_purge (horder : InOrder (before ++ [.purge t]))
    (hin : key ∈ (stored (before ++ [.purge t])).keys) :
    ∃ c, counterOf key (before ++ [.purge t]) = some c ∧ c.isLive t = true := by
  have hle : ∀ u ∈ before ++ [.purge t], u.now ≤ t := by
    intro u hu
    rcases List.mem_append.mp hu with hbefore | hlast
    · exact horder.le_of_append u hbefore
    · exact Int.le_of_eq (congrArg Use.now (List.mem_singleton.mp hlast))
  have hshows := shows_stored (n := 0) horder hle key t (Int.le_refl t)
  obtain ⟨c, hfind⟩ := Option.isSome_iff_exists.mp (Recency.isSome_find?_iff.mpr hin)
  have hlive : c.isLive t = true := by
    have hentry := (Recency.find?_eq_some_iff (nodup_stored _)).mp hfind
    rw [stored_append] at hentry
    exact (Recency.mem_entries_filter.mp hentry).2
  rw [live?, hfind, (Option.filter_eq_some_iff (o := some c)).mpr ⟨rfl, hlive⟩] at hshows
  exact ⟨c, Option.filter_eq_some_iff.mp hshows.symm⟩

theorem mem_keys_storeUse (hnodup : r.keys.Nodup) (hin : key ∈ (storeUse r (.present t p)).keys) :
    key = p.key ∨ key ∈ r.keys := by
  have hfits := (fits_storeUse hnodup p.key).present (p := p) List.mem_cons_self t
  exact List.mem_cons.mp (hfits.subset hin)

theorem size_stored_le_inFlight (horder : InOrder (before ++ [u]))
    (hswept : u.key?.isSome = true → before.getLast? = some (.purge u.now)) :
    (stored (before ++ [u])).size ≤ (inFlight before u).length := by
  rw [Recency.size_eq_length_keys]
  refine ((nodup_stored _).subperm fun key hin => ?_).length_le
  cases u with
  | purge t =>
    obtain ⟨c, hcounter, hlive⟩ := exists_counterOf_of_purge horder hin
    exact mem_inFlight hcounter hlive
  | present t p =>
    obtain ⟨earlier, rfl⟩ := List.getLast?_eq_some_iff.mp (hswept rfl)
    by_cases hkey : key = p.key
    · refine List.mem_filter.mpr ⟨List.mem_dedup.mpr ?_, by simp [Use.key?, hkey]⟩
      simp [Use.key?, hkey]
    · rw [stored_append] at hin
      have hold := (mem_keys_storeUse (nodup_stored _) hin).resolve_left hkey
      obtain ⟨c, hcounter, hlive⟩ := exists_counterOf_of_purge horder.of_append hold
      refine mem_inFlight (c := c) ?_ hlive
      have hother : (Use.present t p).key? ≠ some key :=
        fun hsome => hkey (Option.some.inj hsome).symm
      rwa [counterOf_append, count_of_ne hother]

theorem exists_index (hinit : before ++ [u] <+: uses) :
    ∃ i : Fin uses.length, uses.take i = before ∧ uses[i] = u := by
  obtain ⟨rest, rfl⟩ := hinit
  exact ⟨⟨before.length, by simp⟩, by simp, by simp⟩

theorem fitting_of_swept (horder : InOrder uses) (hswept : Swept uses)
    (hflight : InFlightAtMost capacity uses) : Fitting capacity uses := by
  intro before hinit
  rcases List.eq_nil_or_concat before with rfl | ⟨before, u, rfl⟩
  · exact Nat.zero_le _
  · rw [List.concat_eq_append] at *
    obtain ⟨i, rfl, rfl⟩ := exists_index hinit
    have hsize := size_stored_le_inFlight (horder.of_prefix hinit) (hswept i)
    exact Nat.le_trans hsize (Nat.le_trans (hflight i) (Nat.le_max_right 1 capacity))

end RetentionLemmas

open RetentionLemmas

/-! ## Results -/

/-- No live counter is lost exactly if a ledger with room never holds more than
this one can, expired counters that nothing has dropped yet included. Then
presentations are counted exactly. With a purge before every presentation, only
the counters that live have to fit. -/
theorem keepsLive_iff (capacity : Nat) (uses : List Use) (horder : InOrder uses) :
    (KeepsLive capacity uses ↔ Fitting capacity uses) ∧
      (KeepsLive capacity uses → CountsExactly capacity uses) ∧
      (Swept uses → InFlightAtMost capacity uses → KeepsLive capacity uses) := by
  refine ⟨⟨fitting_of_keepsLive horder, keepsLive_of_fitting horder⟩, fun hkeeps => ?_,
    fun hswept hflight => ?_⟩
  · exact countsExactly_of_fitting horder (fitting_of_keepsLive horder hkeeps)
  · exact keepsLive_of_fitting horder (fitting_of_swept horder hswept hflight)

/-- A presentation for single use under one of some keys, for so many seconds. -/
def exPresentation (puzzle seconds : UInt64) : Presentation :=
  ⟨⟨.replicate 16 1, puzzle⟩, 1, .ofSeconds seconds⟩

/-- The second counter has expired when the third key comes, and the first, which
lives and was touched before it, comes again. -/
def exVisits : List (Instant × Presentation) :=
  [(0, exPresentation 1 100), (0, exPresentation 2 1), (5000000000, exPresentation 3 60),
    (5000000000, exPresentation 1 100)]

/-- With a purge before every presentation, two counters are enough. -/
def exSwept : List Use :=
  exVisits.flatMap fun visit => [.purge visit.1, .present visit.1 visit.2]

theorem keepsLive_exSwept : InOrder exSwept ∧ Swept exSwept ∧ InFlightAtMost 2 exSwept ∧
    KeepsLive 2 exSwept ∧ Fitting 2 exSwept ∧
    Starts [.purge 0] 0 (exPresentation 1 100) 100000000000 ∧
    answerAfter 2 (exSwept.take 7) 5000000000 (exPresentation 1 100) = .ok (.ok false) := by
  have horder : InOrder exSwept := by decide
  have hswept : Swept exSwept := by decide
  have hflight : InFlightAtMost 2 exSwept := by decide
  obtain ⟨hiff, hcounts, hkeeps⟩ := keepsLive_iff 2 exSwept horder
  have hstart : Starts [.purge 0] 0 (exPresentation 1 100) 100000000000 :=
    ⟨by decide, by decide⟩
  have hkeeps := hkeeps hswept hflight
  have hanswer := (hcounts hkeeps).later [.purge 0] 0 (exPresentation 1 100) 100000000000
    ((exSwept.take 7).drop 2) 5000000000 (exPresentation 1 100) (by decide) hstart rfl (by decide)
    (by decide)
  exact ⟨horder, hswept, hflight, hkeeps, hiff.mp hkeeps, hstart, hanswer⟩

/-- Without purges a live counter makes room for an expired one. -/
def exUnswept : List Use :=
  exVisits.map fun visit => .present visit.1 visit.2

/-- No more than two counters live at any time, but three are held. A ledger of
two drops the one that lives, and accepts a second presentation for single use. -/
theorem exUnswept_restarts : InOrder exUnswept ∧ InFlightAtMost 2 exUnswept ∧
    (stored (exUnswept.take 3)).size = 3 ∧
    answerAfter 2 (exUnswept.take 3) 5000000000 (exPresentation 1 100) = .ok (.ok true) ∧
    ¬KeepsLive 2 exUnswept ∧ ¬CountsExactly 2 exUnswept := by
  have haccepted : answerAfter 2 (exUnswept.take 3) 5000000000 (exPresentation 1 100) =
      .ok (.ok true) := by decide
  refine ⟨by decide, by decide, by decide, haccepted, fun hkeeps => ?_, fun hcounts => ?_⟩
  · have hkept := hkeeps (exUnswept.take 2) (.present 5000000000 (exPresentation 3 60)) (by decide)
      (exPresentation 1 100).key
    exact absurd hkept (by decide)
  · have hanswer := hcounts.later [] 0 (exPresentation 1 100) 100000000000
      ((exUnswept.take 3).drop 1) 5000000000 (exPresentation 1 100) (by decide)
      ⟨by decide, by decide⟩ rfl (by decide) (by decide)
    exact absurd (haccepted.symm.trans hanswer) (by decide)

end Tollgate.ReplayLedger
