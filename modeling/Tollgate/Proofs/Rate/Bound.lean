import Tollgate.Proofs.Rate.Runs

/-!
# How many requests of one caller are allowed

Between two changes of its limits, a caller that stays tracked is allowed a
burst, and one more request for each interval of the window in which it asks.
Other callers may do what they like meanwhile, and instants may come in any
order.

Results:
1. `allowedOf_mul_unit_le_creditBy`: a bucket that has the limits in force
   pays for every allowed request out of what it holds and what the rest of the
   window brings.
2. `allowedOf_mul_unit_le_burst`: the first request starts that account with no
   more than a burst, whether it makes the bucket, adopts a new policy or finds
   the bucket up to date.
3. `allowedOf_le_capacity_add_intervals`: the bound in requests.
-/

namespace Tollgate.Rate.Limiter

variable {K : Type} [DecidableEq K] {l : Limiter K} {k : K} {e : Entry} {s t now : Instant}
  {a : Action K} {actions : List (Action K)}

/-! ## Definitions -/

/-- How many requests of `k` some actions get allowed. -/
def allowedOf (l : Limiter K) (k : K) (actions : List (Action K)) : Nat :=
  (actions.zip (l.answers actions)).countP fun (a, answer) => a.requests k && answer.isAllowed

/-- The tier that the bucket of `k` is in, or would be made in by a request. -/
def tierOf (l : Limiter K) (k : K) : Tier :=
  ((l.find? k).map Entry.tier).getD .default

/-- The limits of the tier of `k` under the current policy. -/
def limitsOf (l : Limiter K) (k : K) : Limits :=
  (l.tierOf k).limits l.policy

/-! ## The entry that decides -/

namespace BoundLemmas

theorem limits_deciding (h : l.Sound) (k : K) (now : Instant) :
    (l.deciding k now).bucket.limits = l.limitsOf k := by
  have hlimits := (h.deciding k now).limits_eq (Entry.generation_sync _ _ _)
  rw [hlimits, limitsOf, tierOf, deciding, Entry.tier_sync]
  cases l.find? k <;> rfl

theorem deciding_of_current (he : l.find? k = some e) (hgen : e.generation = l.edition.generation)
    (now : Instant) : l.deciding k now = e := by
  simp [deciding, he, Entry.sync, hgen]

theorem limitsOf_congr {l' : Limiter K} (hfind : l'.find? k = l.find? k)
    (hedition : l'.edition = l.edition) : l'.limitsOf k = l.limitsOf k := by
  simp only [limitsOf, tierOf, policy, hfind, hedition]

theorem requests_eq_true (h : a.requests k = true) : ∃ now, a = .request k now := by
  cases a with
  | request k' now =>
    have hk : k' = k := by simpa [Action.requests] using h
    exact ⟨now, by rw [hk]⟩
  | _ => simp [Action.requests] at h

/-! ## Counting -/

theorem allowedOf_cons_of_not (h : a.requests k = false) :
    l.allowedOf k (a :: actions) = (l.perform a).2.allowedOf k actions := by
  simp [allowedOf, answers, h]

/-- A request of `k` adds its own charge to what the rest of the run costs. -/
theorem allowedOf_cons_request_mul (l : Limiter K) (k : K) (now : Instant)
    (actions : List (Action K)) (unit : Nat) :
    l.allowedOf k (.request k now :: actions) * unit =
      (l.perform (.request k now)).2.allowedOf k actions * unit +
        (if ((l.deciding k now).bucket.tryConsume now).1 then unit else 0) := by
  have hcons : l.allowedOf k (.request k now :: actions) =
      (l.perform (.request k now)).2.allowedOf k actions +
        (if ((l.deciding k now).bucket.tryConsume now).1 then 1 else 0) := by
    rw [allowedOf, answers, List.zip_cons_cons, List.countP_cons]
    simp [Action.requests, Answer.isAllowed, perform, isAllowed_admitAt, allowedOf]
  rw [hcons, Nat.add_mul]
  split <;> simp

end BoundLemmas

open BoundLemmas

/-! ## The account of one caller -/

/-- From a bucket that has the limits in force, allowed requests are paid out of
its budget. The induction is on the run; each request lowers the budget by what
it is charged. -/
theorem allowedOf_mul_unit_le_creditBy (h : l.Sound) (he : l.find? k = some e)
    (hgen : e.generation = l.edition.generation)
    (hsteady : ∀ a ∈ actions, a.relimits k = false) (hkept : l.Keeps k actions)
    (hwindow : ∀ now, .request k now ∈ actions → now ≤ t) :
    l.allowedOf k actions * e.bucket.limits.unit ≤ e.bucket.creditBy t := by
  induction actions generalizing l e with
  | nil => simp [allowedOf]
  | cons a rest ih =>
    have hlim := hsteady a List.mem_cons_self
    have hsteady' : ∀ a ∈ rest, a.relimits k = false :=
      fun a ha => hsteady a (List.mem_cons_of_mem _ ha)
    have hwindow' : ∀ now, .request k now ∈ rest → now ≤ t :=
      fun now hin => hwindow now (List.mem_cons_of_mem _ hin)
    have hedition := edition_perform (l := l) hlim
    cases hreq : a.requests k with
    | false =>
      have hfind := find?_perform_of_contains h hreq hlim hkept.1
      rw [allowedOf_cons_of_not hreq]
      exact ih (h.perform a) (hfind.trans he) (by rw [hedition, hgen]) hsteady' hkept.2 hwindow'
    | true =>
      -- Refilling does not raise the budget, and an allowed request pays one unit.
      obtain ⟨now, rfl⟩ := requests_eq_true hreq
      have hdec := deciding_of_current he hgen now
      have hfind := find?_request_self h k now
      rw [hdec] at hfind
      have hrest := ih (h.perform _) hfind (by rw [hedition]; exact hgen) hsteady' hkept.2 hwindow'
      have hspent := Bucket.creditBy_tryConsume e.bucket now t
      have hbudget := Bucket.creditBy_refill_le (b := e.bucket) (hwindow now List.mem_cons_self)
      simp only [Entry.consume, Bucket.limits_tryConsume] at hrest
      rw [allowedOf_cons_request_mul, hdec]
      omega

/-- The account over a whole window. Until the first request of `k` nothing
happens to its entry, and that request leaves a bucket with the limits in force
that holds at most a burst. -/
theorem allowedOf_mul_unit_le_burst (h : l.Sound)
    (hsteady : ∀ a ∈ actions, a.relimits k = false) (hkept : l.Keeps k actions)
    (hwindow : ∀ now, .request k now ∈ actions → s ≤ now ∧ now ≤ t) :
    l.allowedOf k actions * (l.limitsOf k).unit ≤ (l.limitsOf k).maxLevel + t.since s := by
  induction actions generalizing l with
  | nil => simp [allowedOf]
  | cons a rest ih =>
    have hlim := hsteady a List.mem_cons_self
    have hsteady' : ∀ a ∈ rest, a.relimits k = false :=
      fun a ha => hsteady a (List.mem_cons_of_mem _ ha)
    have hwindow' : ∀ now, .request k now ∈ rest → s ≤ now ∧ now ≤ t :=
      fun now hin => hwindow now (List.mem_cons_of_mem _ hin)
    have hedition := edition_perform (l := l) hlim
    cases hreq : a.requests k with
    | false =>
      have hfind := find?_perform_of_contains h hreq hlim hkept.1
      rw [allowedOf_cons_of_not hreq, ← limitsOf_congr hfind hedition]
      exact ih (h.perform a) hsteady' hkept.2 hwindow'
    | true =>
      -- From here on the bucket is current: the rest of the run is its account.
      obtain ⟨now, rfl⟩ := requests_eq_true hreq
      have hlimits := limits_deciding h k now
      have hrest := allowedOf_mul_unit_le_creditBy (h.perform (.request k now))
        (find?_request_self h k now) (by rw [hedition]; exact Entry.generation_sync _ _ _) hsteady'
        hkept.2 fun now hin => (hwindow' now hin).2
      have hspent := Bucket.creditBy_tryConsume (l.deciding k now).bucket now t
      have hburst := Bucket.creditBy_refill_le_burst (t := t) (h.deciding k now).level_le
        (hwindow now List.mem_cons_self).1
      simp only [Entry.consume, Bucket.limits_tryConsume, hlimits] at hrest hspent hburst
      rw [allowedOf_cons_request_mul]
      omega

/-- In every run between two changes of the limits of `k`, as long as `k` stays
tracked, at most a burst and one request per interval of the window `[s, t]` are
allowed. The bucket may be made within the run, and a policy that is still
pending may be adopted within it. -/
theorem allowedOf_le_capacity_add_intervals (h : l.Reachable)
    (hsteady : ∀ a ∈ actions, a.relimits k = false) (hkept : l.Keeps k actions)
    (hwindow : ∀ now, .request k now ∈ actions → s ≤ now ∧ now ≤ t) :
    l.allowedOf k actions ≤
      (l.limitsOf k).capacity.toNat + t.since s / (l.limitsOf k).unit := by
  have hunit := (l.limitsOf k).one_le_unit
  have hmul := allowedOf_mul_unit_le_burst (sound_of_reachable h) hsteady hkept hwindow
  have hmax : (l.limitsOf k).maxLevel ≤ (l.limitsOf k).capacity.toNat * (l.limitsOf k).unit :=
    Nat.min_le_left _ _
  calc
    l.allowedOf k actions
        ≤ ((l.limitsOf k).capacity.toNat * (l.limitsOf k).unit + t.since s) /
            (l.limitsOf k).unit :=
          (Nat.le_div_iff_mul_le hunit).mpr (by omega)
    _ = (l.limitsOf k).capacity.toNat + t.since s / (l.limitsOf k).unit := by
          rw [Nat.add_comm, Nat.add_mul_div_right _ _ hunit, Nat.add_comm]

/-- Caller `1` has spent its burst of two under the first policy, and the second
policy is still pending for it. -/
def exPending : Limiter Nat :=
  (new { maxBuckets := 3, shards := 2, policy := ⟨⟨2, .ofNanos 10⟩, ⟨4, .ofNanos 5⟩⟩ } id).run
    [.request 1 0, .request 1 0, .request 1 3, .request 4 4,
      .updatePolicy ⟨⟨3, .ofNanos 20⟩, ⟨4, .ofNanos 5⟩⟩]

/-- Caller `1` asks six times within fifty nanoseconds, once at an earlier
instant than before; caller `6` takes the slot of caller `4`. -/
def exRequests : List (Action Nat) :=
  [.request 1 100, .request 2 101, .request 1 101, .request 1 90, .request 6 105, .request 1 105,
    .isPromoted 1, .request 1 121, .request 1 140]

theorem allowedOf_exRequests_le : exPending.allowedOf 1 exRequests = 4 ∧
    exPending.allowedOf 1 exRequests ≤ (exPending.limitsOf 1).capacity.toNat +
      Instant.since 140 90 / (exPending.limitsOf 1).unit := by
  refine ⟨by decide, allowedOf_le_capacity_add_intervals ⟨_, _, _, rfl⟩ (by decide) (by decide) ?_⟩
  intro now hin
  simp only [exRequests, List.mem_cons, Action.request.injEq, reduceCtorEq, List.not_mem_nil,
    or_false, false_or] at hin
  lia

end Tollgate.Rate.Limiter
