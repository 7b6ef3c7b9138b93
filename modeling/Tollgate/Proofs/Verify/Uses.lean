import Mathlib.Data.List.Induction
import Tollgate.Proofs.Verify.Ledger

/-!
# Runs of a ledger

A ledger is used one presentation or purge after another. What the
presentations of one key count is a matter of these alone: each counts with the
live counter of its key, and one that finds none makes a new one. A ledger
that always has room answers by these counters, whatever other keys do.

Results:
1. `counterOf_of_starts`: a counter that lives counts all presentations of its
   key since the one that made it.
2. `shows_stored`: with room for one more at every step, no counter that lives
   is lost.
-/

namespace Tollgate.ReplayLedger

/-! ## Definitions -/

/-- One use of a ledger. -/
inductive Use
  | present (now : Instant) (p : Presentation)
  | purge (now : Instant)
deriving DecidableEq

namespace Use

def now : Use → Instant
  | .present now _ => now
  | .purge now => now

/-- The key that is presented. -/
def key? : Use → Option ReplayKey
  | .present _ p => some p.key
  | .purge _ => none

/-- The counter of a key after one more use. Only presentations of the key
matter: one that finds no live counter makes a new one, if the clock can show
its end. -/
def count (key : ReplayKey) (c : Option Counter) : Use → Option Counter
  | .purge _ => c
  | .present now p =>
    if p.key = key then
      match c.filter (·.isLive now) with
      | some live => some live.next
      | none =>
        match now.after? p.ttl with
        | some expires => some ⟨1, expires⟩
        | none => c
    else c

end Use

/-- The ledger after a use. -/
def step (l : ReplayLedger) : Use → ReplayLedger
  | .present now p => (present now p l).2
  | .purge now => l.purge now

def run (l : ReplayLedger) (uses : List Use) : ReplayLedger :=
  uses.foldl step l

/-- The clock does not go back. -/
def InOrder (uses : List Use) : Prop :=
  uses.Pairwise fun earlier later => earlier.now ≤ later.now

instance (uses : List Use) : Decidable (InOrder uses) :=
  inferInstanceAs (Decidable (uses.Pairwise _))

/-- The counter that a key has by its own presentations. -/
def counterOf (key : ReplayKey) (uses : List Use) : Option Counter :=
  uses.foldl (Use.count key) none

/-- How often a key is presented. -/
def presentationsOf (key : ReplayKey) (uses : List Use) : Nat :=
  uses.countP fun u => u.key? = some key

/-- The presentation finds no live counter of its key, and makes one that ends
at `expires`. -/
def Starts (before : List Use) (t : Instant) (p : Presentation) (expires : Instant) : Prop :=
  (counterOf p.key before).filter (·.isLive t) = none ∧ t.after? p.ttl = some expires

/-- The counters after one more use if there is room for one more. -/
def storeUse (counters : Recency ReplayKey Counter) (u : Use) : Recency ReplayKey Counter :=
  (step ⟨counters.size + 1, counters⟩ u).counters

/-- The counters that a run leaves behind if there is always room: those that
live, and those that have expired and neither a purge nor a new key has dropped. -/
def stored (uses : List Use) : Recency ReplayKey Counter :=
  uses.foldl storeUse .empty

variable {r : Recency ReplayKey Counter} {l : ReplayLedger} {key : ReplayKey} {u : Use}
  {uses before middle after : List Use} {t now expires : Instant} {p : Presentation}
  {counter : Option Counter} {keys : List ReplayKey}

/-! ## Parts of runs -/

theorem InOrder.of_prefix (h : InOrder uses) (hinit : before <+: uses) : InOrder before :=
  h.sublist hinit.sublist

theorem InOrder.le_of_append (h : InOrder (before ++ [u])) : ∀ u' ∈ before, u'.now ≤ u.now :=
  fun u' hin => (List.pairwise_append.mp h).2.2 u' hin u (List.mem_singleton_self u)

theorem InOrder.of_append (h : InOrder (before ++ after)) : InOrder before :=
  h.of_prefix (List.prefix_append _ _)

theorem run_append (l : ReplayLedger) (uses : List Use) (u : Use) :
    l.run (uses ++ [u]) = (l.run uses).step u := by
  rw [run, run, List.foldl_append]
  rfl

theorem capacity_step (l : ReplayLedger) (u : Use) : (l.step u).capacity = l.capacity := by
  cases u with
  | purge now => rfl
  | present now p =>
    simp only [step, ReplayLedger.present]
    split
    · rfl
    · split
      · rfl
      · rfl

theorem capacity_run (l : ReplayLedger) (uses : List Use) : (l.run uses).capacity = l.capacity := by
  induction uses generalizing l with
  | nil => rfl
  | cons u rest ih => exact (ih (l.step u)).trans (capacity_step l u)

/-! ## The counter of a key -/

theorem counterOf_append (key : ReplayKey) (uses : List Use) (u : Use) :
    counterOf key (uses ++ [u]) = u.count key (counterOf key uses) := by
  rw [counterOf, counterOf, List.foldl_append]
  rfl

theorem count_of_ne (h : u.key? ≠ some key) (c : Option Counter) : u.count key c = c := by
  cases u with
  | purge now => rfl
  | present now p => exact if_neg fun hkey => h (congrArg some hkey)

theorem count_of_live {live : Counter} (h : counter.filter (·.isLive now) = some live) :
    (Use.present now p).count p.key counter = some live.next := by
  simp only [Use.count, h, if_true]

theorem count_of_none (h : counter.filter (·.isLive now) = none)
    (hend : now.after? p.ttl = some expires) :
    (Use.present now p).count p.key counter = some ⟨1, expires⟩ := by
  simp only [Use.count, h, hend, if_true]

theorem count_of_overflow (h : counter.filter (·.isLive now) = none)
    (hend : now.after? p.ttl = none) : (Use.present now p).count p.key counter = counter := by
  simp only [Use.count, h, hend, if_true]

theorem presentationsOf_append (key : ReplayKey) (uses : List Use) (u : Use) :
    presentationsOf key (uses ++ [u]) =
      presentationsOf key uses + if u.key? = some key then 1 else 0 := by
  simp [presentationsOf, List.countP_append, List.countP_singleton]

/-- While a counter lives, it counts all presentations of its key. -/
theorem counterOf_of_starts (hstart : Starts before t p expires)
    (hlive : ∀ u ∈ middle, u.now < expires) :
    counterOf p.key (before ++ .present t p :: middle) =
      some ⟨min (presentationsOf p.key middle + 1) Counter.limit, expires⟩ := by
  induction middle using List.reverseRecOn with
  | nil =>
    rw [counterOf_append, count_of_none hstart.1 hstart.2]
    rfl
  | append_singleton middle u ih =>
    have hmiddle := ih fun u' hin => hlive u' (List.mem_append_left _ hin)
    have hnow := hlive u (List.mem_append_right _ (List.mem_singleton_self u))
    rw [← List.cons_append, ← List.append_assoc, counterOf_append, hmiddle,
      presentationsOf_append]
    by_cases hkey : u.key? = some p.key
    · cases u with
      | purge now => cases hkey
      | present now q =>
        have hq : q.key = p.key := Option.some.inj hkey
        have hfilter : (some (⟨min (presentationsOf p.key middle + 1) Counter.limit, expires⟩ :
            Counter)).filter (·.isLive now) = some ⟨_, expires⟩ :=
          Option.filter_eq_some_iff.mpr ⟨rfl, decide_eq_true hnow⟩
        rw [if_pos hkey, ← hq, count_of_live (hq ▸ hfilter), Counter.next_min]
    · rw [if_neg hkey, count_of_ne hkey]

/-! ## With room -/

theorem Shows.present (hfits : l.Fits keys) (hkey : p.key ∈ keys) (h : l.Shows key counter now) :
    (ReplayLedger.present now p l).2.Shows key ((Use.present now p).count key counter) now := by
  intro t ht
  by_cases hown : p.key = key
  · subst hown
    have hnow := h now (Int.le_refl _)
    cases hlive : counter.filter (·.isLive now) with
    | some c =>
      rw [present_of_live (hnow.trans hlive), count_of_live hlive, live?_put_self]
    | none =>
      cases hend : now.after? p.ttl with
      | none =>
        rw [present_of_overflow (hnow.trans hlive) hend, count_of_overflow hlive hend, live?_touch]
        exact h t ht
      | some expires =>
        rw [present_of_fresh hfits hkey (hnow.trans hlive) hend, count_of_none hlive hend,
          live?_put_self]
  · have hother : (Use.present now p).key? ≠ some key := fun hsome => hown (Option.some.inj hsome)
    rw [live?_present_of_ne hfits hkey (Ne.symm hown) ht, count_of_ne hother]
    exact h t ht

theorem live?_purge (hnodup : l.counters.keys.Nodup) (ht : now ≤ t) (key : ReplayKey) :
    (l.purge now).live? key t = l.live? key t := by
  rw [live?, purge, Recency.find?_filter _ hnodup, Option.filter_filter, live?]
  congr 1
  funext c
  cases hlive : c.isLive now with
  | true => simp
  | false => simp [not_isLive_of_le hlive ht]

/-- A ledger with these counters and room for one more. -/
theorem fits_storeUse (hnodup : r.keys.Nodup) (key : ReplayKey) :
    (⟨r.size + 1, r⟩ : ReplayLedger).Fits (key :: r.keys) where
  nodup := hnodup
  subset := List.subset_cons_self key r.keys
  room := by
    rw [Recency.size_eq_length_keys, ← List.length_cons (a := key)]
    exact (List.dedup_sublist _).length_le

theorem nodup_storeUse (hnodup : r.keys.Nodup) (u : Use) : (storeUse r u).keys.Nodup := by
  cases u with
  | purge now => exact Recency.nodup_keys_filter _ hnodup
  | present now p => exact ((fits_storeUse hnodup p.key).present List.mem_cons_self now).nodup

theorem shows_storeUse {n m : Nat} (hnodup : r.keys.Nodup)
    (h : (⟨n, r⟩ : ReplayLedger).Shows key counter u.now) :
    (⟨m, storeUse r u⟩ : ReplayLedger).Shows key (u.count key counter) u.now := by
  cases u with
  | purge now =>
    intro t ht
    have hpurge := live?_purge (l := ⟨r.size + 1, r⟩) hnodup ht key
    exact hpurge.trans (h t ht)
  | present now p =>
    exact Shows.present (l := ⟨r.size + 1, r⟩) (fits_storeUse hnodup p.key) List.mem_cons_self h

theorem stored_append (uses : List Use) (u : Use) :
    stored (uses ++ [u]) = storeUse (stored uses) u := by
  rw [stored, stored, List.foldl_append]
  rfl

theorem nodup_stored (uses : List Use) : (stored uses).keys.Nodup := by
  induction uses using List.reverseRecOn with
  | nil => exact List.nodup_nil
  | append_singleton uses u ih =>
    rw [stored_append]
    exact nodup_storeUse ih u

/-- With room for one more at every step, no counter that lives is lost. -/
theorem shows_stored {n : Nat} (h : InOrder uses) (hle : ∀ u ∈ uses, u.now ≤ t)
    (key : ReplayKey) : (⟨n, stored uses⟩ : ReplayLedger).Shows key (counterOf key uses) t := by
  induction uses using List.reverseRecOn generalizing t with
  | nil => exact fun _ _ => rfl
  | append_singleton uses u ih =>
    have huses := ih h.of_append h.le_of_append
    rw [stored_append, counterOf_append]
    exact (shows_storeUse (nodup_stored uses) huses).later
      (hle u (List.mem_append_right _ (List.mem_singleton_self u)))

end Tollgate.ReplayLedger
