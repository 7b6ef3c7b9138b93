import Tollgate.Proofs.Rate.Credit

/-!
# Looks and retries between requests

A bucket is refilled whenever it is used, also by a request that is then denied. It does
not matter how often that happens. Credit is added for the time since the last refill and
capped by the same ceiling each time, and a cap that comes early takes away no more than
the same cap would have taken at the end. So two buckets that are filled alike from some
instant on answer alike from then on, and a look or a denied retry leaves a bucket filled
alike.

Results:
1. `refill_refill`: refilling at an instant before does not show later.
2. `Alike.poll`, `Alike.retry`, `Alike.request`: what a look, a denied retry and a request
   keep up.
3. `Alike.run`: runs of them.
4. `polling_invisible`: requests are answered as if there were no looks and retries between
   them.
-/

namespace Tollgate.Rate.Bucket

/-! ## Definitions -/

/-- One call of a bucket that keeps its limits: a request, or on top of the requests a look
that refills it or a retry. -/
inductive Visit
  | request (now : Instant)
  | poll (now : Instant)
  | retry (now : Instant)
deriving DecidableEq

namespace Visit

def now : Visit → Instant
  | request now | poll now | retry now => now

def isRequest : Visit → Bool
  | request _ => true
  | _ => false

end Visit

/-- The bucket after a visit. -/
def visit (b : Bucket) : Visit → Bucket
  | .poll now => b.refill now
  | .request now | .retry now => (b.tryConsume now).2

def visitAll (b : Bucket) (visits : List Visit) : Bucket :=
  visits.foldl visit b

/-- The answers to the requests among the visits, each with the bucket that it leaves. -/
def answers (b : Bucket) : List Visit → List (Bool × Bucket)
  | [] => []
  | .request now :: rest => b.tryConsume now :: answers (b.visit (.request now)) rest
  | v :: rest => answers (b.visit v) rest

/-- All retries among the visits are denied. -/
def Denies (b : Bucket) : List Visit → Prop
  | [] => True
  | .retry now :: rest => (b.tryConsume now).1 = false ∧ Denies (b.visit (.retry now)) rest
  | v :: rest => Denies (b.visit v) rest

/-- From the instant `t` on the buckets are filled alike. -/
def Alike (t : Instant) (b b' : Bucket) : Prop :=
  ∀ now, t ≤ now → b.refill now = b'.refill now

variable {b b' : Bucket} {s t now : Instant} {visits : List Visit}

/-! ## Refilling -/

/-- A cap on the way takes away no more than the same cap at the end would. -/
theorem refill_refill (b : Bucket) (h : s ≤ t) : (b.refill s).refill t = b.refill t := by
  by_cases hle : s ≤ b.lastRefill
  · rw [refill_of_le hle]
  have hlast : b.lastRefill < s := Int.not_le.mp hle
  rcases Int.lt_or_eq_of_le h with hlt | rfl
  · have hsince : t.since b.lastRefill = s.since b.lastRefill + t.since s := by
      unfold Instant.since
      lia
    have hlevel : min (min (b.level + s.since b.lastRefill) b.limits.maxLevel + t.since s)
        b.limits.maxLevel = min (b.level + t.since b.lastRefill) b.limits.maxLevel := by
      rw [hsince]
      omega
    rw [refill_of_lt hlast, refill_of_lt hlt, refill_of_lt (Int.lt_trans hlast hlt), hlevel]
  · exact refill_of_le (le_lastRefill_refill b s)

/-- A request that is denied refills and does nothing else. -/
theorem snd_tryConsume_of_denied (h : (b.tryConsume now).1 = false) :
    (b.tryConsume now).2 = b.refill now := by
  have hunit : ¬b.limits.unit ≤ (b.refill now).level := by
    rw [← fst_tryConsume_iff, h]
    exact Bool.false_ne_true
  rw [tryConsume, limits_refill, if_neg hunit]

/-! ## Buckets that are filled alike -/

theorem Alike.refl (t : Instant) (b : Bucket) : Alike t b b :=
  fun _ _ => rfl

theorem Alike.poll (h : Alike t b b') (ht : t ≤ now) : Alike now (b.visit (.poll now)) b' := by
  intro later hlater
  calc
    (b.refill now).refill later = b.refill later := refill_refill b hlater
    _ = b'.refill later := h later (Int.le_trans ht hlater)

theorem Alike.retry (h : Alike t b b') (ht : t ≤ now) (hdenied : (b.tryConsume now).1 = false) :
    Alike now (b.visit (.retry now)) b' := by
  have hvisit : b.visit (.retry now) = b.visit (.poll now) := snd_tryConsume_of_denied hdenied
  rw [hvisit]
  exact h.poll ht

/-- A request looks at the refilled bucket only. -/
theorem Alike.request (h : Alike t b b') (ht : t ≤ now) : b.tryConsume now = b'.tryConsume now := by
  unfold tryConsume
  rw [h now ht]

/-- Of two buckets that are filled alike, one gets all visits in the order of their instants
and the other one the requests only. The induction is on the visits; looks and denied retries
keep up the likeness, and a request leaves the same bucket on both sides. -/
theorem Alike.run (h : Alike t b b') (hfrom : ∀ v ∈ visits, t ≤ v.now)
    (horder : visits.Pairwise fun v w => v.now ≤ w.now) (hdenied : b.Denies visits) :
    b.answers visits = b'.answers (visits.filter Visit.isRequest) ∧
    ∀ later, t ≤ later → (∀ v ∈ visits, v.now ≤ later) →
      (b.visitAll visits).refill later =
        (b'.visitAll (visits.filter Visit.isRequest)).refill later := by
  induction visits generalizing t b b' with
  | nil => exact ⟨rfl, fun later hlater _ => h later hlater⟩
  | cons v rest ih =>
    have ht := hfrom v List.mem_cons_self
    have hnext := (List.pairwise_cons.mp horder).1
    have hrest := (List.pairwise_cons.mp horder).2
    cases v with
    | request now =>
      have hsame : b.tryConsume now = b'.tryConsume now := h.request ht
      have hvisit : b.visit (.request now) = b'.visit (.request now) := congrArg Prod.snd hsame
      obtain ⟨hanswers, hstate⟩ := ih (Alike.refl now (b.visit (.request now))) hnext hrest hdenied
      refine ⟨?_, fun later _ hlater => ?_⟩
      · rw [List.filter_cons_of_pos rfl, answers, answers, hanswers, hsame, hvisit]
      · rw [List.filter_cons_of_pos rfl, visitAll, visitAll, List.foldl_cons, List.foldl_cons,
          ← hvisit]
        exact hstate later (hlater _ List.mem_cons_self)
          fun w hw => hlater w (List.mem_cons_of_mem _ hw)
    | poll now =>
      obtain ⟨hanswers, hstate⟩ := ih (h.poll ht) hnext hrest hdenied
      exact ⟨hanswers, fun later _ hlater => hstate later (hlater _ List.mem_cons_self)
        fun w hw => hlater w (List.mem_cons_of_mem _ hw)⟩
    | retry now =>
      obtain ⟨hanswers, hstate⟩ := ih (h.retry ht hdenied.1) hnext hrest hdenied.2
      exact ⟨hanswers, fun later _ hlater => hstate later (hlater _ List.mem_cons_self)
        fun w hw => hlater w (List.mem_cons_of_mem _ hw)⟩

/-- Refilling twice is refilling once at the later instant. So with visits in the order of
their instants, looks and denied retries change neither an answer to a request nor a bucket
that a request leaves, nor what the bucket holds at any instant afterwards. -/
theorem polling_invisible (b : Bucket) :
    (∀ s t, s ≤ t → (b.refill s).refill t = b.refill t) ∧
    ∀ visits : List Visit, visits.Pairwise (fun v w => v.now ≤ w.now) → b.Denies visits →
      b.answers visits = b.answers (visits.filter Visit.isRequest) ∧
      ∀ t, (∀ v ∈ visits, v.now ≤ t) →
        (b.visitAll visits).refill t =
          (b.visitAll (visits.filter Visit.isRequest)).refill t := by
  refine ⟨fun s t hst => refill_refill b hst, fun visits horder hdenied => ?_⟩
  cases visits with
  | nil => exact ⟨rfl, fun t _ => rfl⟩
  | cons v rest =>
    have hfirst : ∀ w ∈ v :: rest, v.now ≤ w.now :=
      List.forall_mem_cons.mpr ⟨Int.le_refl _, (List.pairwise_cons.mp horder).1⟩
    obtain ⟨hanswers, hstate⟩ := (Alike.refl v.now b).run hfirst horder hdenied
    exact ⟨hanswers, fun t ht => hstate t (ht v List.mem_cons_self) ht⟩

/-- Two tokens of ten nanoseconds at most. The second retry comes when nine nanoseconds of
credit are there. -/
def exVisits : List Bucket.Visit :=
  [.request 0, .request 0, .retry 4, .poll 7, .retry 9, .request 10, .poll 15, .request 19,
    .request 20]

theorem polling_exVisits :
    ((full ⟨2, .ofNanos 10⟩ 0).answers exVisits).map Prod.fst = [true, true, true, false, true] ∧
    (full ⟨2, .ofNanos 10⟩ 0).answers exVisits =
      (full ⟨2, .ofNanos 10⟩ 0).answers
        [.request 0, .request 0, .request 10, .request 19, .request 20] ∧
    ((full ⟨2, .ofNanos 10⟩ 0).refill 4).refill 9 = (full ⟨2, .ofNanos 10⟩ 0).refill 9 := by
  have hdenied : (full ⟨2, .ofNanos 10⟩ 0).Denies exVisits := by
    simp only [exVisits, Denies]
    decide
  obtain ⟨hrefill, hvisits⟩ := polling_invisible (full ⟨2, .ofNanos 10⟩ 0)
  obtain ⟨hanswers, -⟩ := hvisits exVisits (by decide) hdenied
  exact ⟨by decide, hanswers, hrefill 4 9 (by decide)⟩

end Tollgate.Rate.Bucket
