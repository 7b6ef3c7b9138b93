import Tollgate.Proofs.Rate.Occupancy

/-!
# Callers do not interfere

What a caller is told depends on its own actions, on the policies and on the
purges, and on nothing that others do, unless they get its bucket evicted. How
many shards and how much room there is does not show either.

Two limiters agree on a key if they have the same entry for it, under the same
edition and idle time. Actions that concern the key keep up the agreement, and
all others may be left out on either side.

Results:
1. `Agree.perform`, `Agree.answer_eq`: actions that concern the key keep up the
   agreement and get the same answer.
2. `Agree.of_unconcerned`: other actions change nothing about it.
3. `answersAbout_filter`: a caller is told the same as if it were alone.
4. `answersAbout_eq`: two runs with the same actions of one caller.
-/

namespace Tollgate.Rate

/-! ## Definitions -/

namespace Action

variable {K : Type} [DecidableEq K]

/-- Whether the action is a request, a promotion or a look-up of `k`. -/
def isAbout (k : K) : Action K → Bool
  | .request k' _ | .promote k' _ | .promoteCaller k' _ _ | .retryAfter k' _ | .isPromoted k'
  | .contains k' | .tokens k' => k' = k
  | _ => false

/-- Whether the action is about `k` or about all keys. -/
def concerns (k : K) : Action K → Bool
  | .updatePolicy _ | .purgeIdle _ => true
  | a => a.isAbout k

end Action

theorem Admission.eq_of_isAllowed_eq {decision decision' : Admission}
    (h : decision.isAllowed = decision'.isAllowed) : decision = decision' := by
  cases decision <;> cases decision' <;> first | rfl | cases h

namespace Limiter

variable {K : Type} [DecidableEq K]

/-- What is answered to the actions about `k`. -/
def answersAbout (l : Limiter K) (k : K) (actions : List (Action K)) : List Answer :=
  ((actions.zip (l.answers actions)).filter (·.1.isAbout k)).map Prod.snd

/-- No action but a purge drops the bucket of `k`: it is never evicted
(`evicts_iff_dropped`). -/
def Spares (k : K) : Limiter K → List (Action K) → Prop
  | _, [] => True
  | l, a :: rest =>
    (a.purges = false → l.contains k = true → (l.perform a).2.contains k = true) ∧
      Spares k (l.perform a).2 rest

instance Spares.decidable (k : K) : (l : Limiter K) → (actions : List (Action K)) →
    Decidable (Spares k l actions)
  | _, [] => isTrue trivial
  | l, a :: rest =>
    have := Spares.decidable k (l.perform a).2 rest
    inferInstanceAs (Decidable (_ ∧ _))

/-- The limiters cannot be told apart by actions that concern `k`. -/
structure Agree (k : K) (l l' : Limiter K) : Prop where
  edition_eq : l.edition = l'.edition
  idleTtl_eq : l.idleTtl = l'.idleTtl
  find?_eq : l.find? k = l'.find? k

variable {l l' : Limiter K} {k : K} {a : Action K} {actions : List (Action K)}

/-! ## Actions -/

theorem Agree.refl (k : K) (l : Limiter K) : Agree k l l :=
  ⟨rfl, rfl, rfl⟩

theorem Agree.trans {l'' : Limiter K} (h : Agree k l l') (h' : Agree k l' l'') : Agree k l l'' :=
  ⟨h.edition_eq.trans h'.edition_eq, h.idleTtl_eq.trans h'.idleTtl_eq,
    h.find?_eq.trans h'.find?_eq⟩

theorem idleTtl_perform (l : Limiter K) (a : Action K) : (l.perform a).2.idleTtl = l.idleTtl :=
  congrArg Frame.idleTtl (frame_perform l a)

theorem edition_setTier (l : Limiter K) (k : K) (tier : Tier) (now : Instant) :
    (l.setTier k tier now).edition = l.edition := by
  obtain ⟨counts, heq⟩ := setTier_eq l k tier now
  simp [heq, put, setShard]

theorem find?_setTier_self (h : l.Sound) (k : K) (tier : Tier) (now : Instant) :
    (l.setTier k tier now).find? k =
      some (((l.find? k).getD (.fresh tier l.edition now)).retier tier l.edition now) := by
  obtain ⟨counts, heq⟩ := setTier_eq l k tier now
  rw [heq, ← fst_entryFor]
  exact find?_put_self (h.snd_entryFor k tier now).shards_pos k _

theorem Agree.deciding_eq (h : Agree k l l') (now : Instant) :
    l.deciding k now = l'.deciding k now := by
  rw [deciding, deciding, h.find?_eq, h.edition_eq]

theorem Agree.perform (h : Agree k l l') (hl : l.Sound) (hl' : l'.Sound)
    (ha : a.concerns k = true) : Agree k (l.perform a).2 (l'.perform a).2 := by
  have hidle : (l.perform a).2.idleTtl = (l'.perform a).2.idleTtl := by
    rw [idleTtl_perform, idleTtl_perform, h.idleTtl_eq]
  cases a with
  | request k' now =>
    obtain rfl : k' = k := of_decide_eq_true ha
    refine ⟨?_, hidle, ?_⟩
    · rw [edition_perform (k := k') rfl, edition_perform (k := k') rfl, h.edition_eq]
    · rw [find?_request_self hl, find?_request_self hl', h.deciding_eq]
  | promote k' now | promoteCaller k' limits now =>
    obtain rfl : k' = k := of_decide_eq_true ha
    refine ⟨?_, hidle, ?_⟩
    · simp only [Limiter.perform, promote, promoteCaller, edition_setTier, h.edition_eq]
    · simp only [Limiter.perform, promote, promoteCaller, find?_setTier_self hl,
        find?_setTier_self hl', h.edition_eq, h.find?_eq]
  | updatePolicy policy =>
    refine ⟨?_, hidle, h.find?_eq⟩
    simp only [Limiter.perform, updatePolicy, h.edition_eq]
  | purgeIdle now =>
    refine ⟨h.edition_eq, hidle, ?_⟩
    simp only [Limiter.perform, find?_purgeIdle hl, find?_purgeIdle hl', h.find?_eq, isIdle,
      h.idleTtl_eq]
  | shutDown => cases ha
  | retryAfter | isPromoted | contains | tokens => exact h

theorem Agree.answer_eq (h : Agree k l l') (ha : a.isAbout k = true) :
    (l.perform a).1 = (l'.perform a).1 := by
  cases a with
  | request k' now =>
    obtain rfl : k' = k := of_decide_eq_true ha
    refine congrArg Answer.admission (Admission.eq_of_isAllowed_eq ?_)
    rw [isAllowed_admitAt, isAllowed_admitAt, h.deciding_eq]
  | promote | promoteCaller => rfl
  | retryAfter k' now | isPromoted k' | contains k' | tokens k' =>
    obtain rfl : k' = k := of_decide_eq_true ha
    simp only [Limiter.perform, retryAfter, isPromoted, Limiter.contains, tokens?, h.find?_eq]
  | updatePolicy | purgeIdle | shutDown => cases ha

/-- An action that does not concern `k` could only have dropped its bucket. -/
theorem Agree.of_unconcerned (h : l.Sound) (ha : a.concerns k = false)
    (hkept : l.contains k = true → (l.perform a).2.contains k = true) :
    Agree k (l.perform a).2 l := by
  have hreq : a.requests k = false := by
    cases a with
    | request => exact ha
    | _ => rfl
  have hlim : a.relimits k = false := by
    cases a with
    | promote | promoteCaller => exact ha
    | updatePolicy => cases ha
    | _ => rfl
  exact ⟨edition_perform hlim, idleTtl_perform l a, find?_perform_of_contains h hreq hlim hkept⟩

/-! ## Runs -/

theorem isAbout_of_unconcerned (ha : a.concerns k = false) : a.isAbout k = false := by
  cases a with
  | updatePolicy | purgeIdle | shutDown => rfl
  | _ => exact ha

theorem purges_of_unconcerned (ha : a.concerns k = false) : a.purges = false := by
  cases a with
  | purgeIdle => cases ha
  | _ => rfl

theorem answersAbout_cons (l : Limiter K) (k : K) (a : Action K) (rest : List (Action K)) :
    l.answersAbout k (a :: rest) =
      (if a.isAbout k = true then [(l.perform a).1] else []) ++
        (l.perform a).2.answersAbout k rest := by
  rw [answersAbout, answers, List.zip_cons_cons, List.filter_cons]
  split <;> rfl

/-- Of a run that spares `k`, the actions that do not concern it may be left out. The
induction is on the run; both sides go on only where the action concerns `k`. -/
theorem answersAbout_filter (hl : l.Sound) (hl' : l'.Sound) (h : Agree k l l')
    (hspared : l.Spares k actions) :
    l.answersAbout k actions = l'.answersAbout k (actions.filter (·.concerns k)) := by
  induction actions generalizing l l' with
  | nil => rfl
  | cons a rest ih =>
    rw [answersAbout_cons]
    cases hconcerns : a.concerns k with
    | false =>
      have hkept := hspared.1 (purges_of_unconcerned hconcerns)
      have hagree := (Agree.of_unconcerned hl hconcerns hkept).trans h
      rw [List.filter_cons_of_neg (by simp [hconcerns]), isAbout_of_unconcerned hconcerns]
      exact ih (hl.perform a) hl' hagree hspared.2
    | true =>
      have hagree := h.perform hl hl' hconcerns
      rw [List.filter_cons_of_pos hconcerns, answersAbout_cons,
        ih (hl.perform a) (hl'.perform a) hagree hspared.2]
      cases habout : a.isAbout k with
      | false => rw [if_neg Bool.false_ne_true, if_neg Bool.false_ne_true]
      | true => rw [h.answer_eq habout]

theorem find?_new (settings : LimiterSettings) (place : K → Nat) (k : K) :
    (new settings place).find? k = none := by
  refine Option.not_isSome_iff_eq_none.mp fun hk => ?_
  have hin := (mem_keys_iff_contains (occupied_new settings place).homed).mpr hk
  rw [keys_new] at hin
  exact List.not_mem_nil hin

/-- Two limiters that differ in their shards, in their room and in where they place
keys answer a caller alike, whatever other callers do in either, as long as its
bucket is evicted in neither. -/
theorem answersAbout_eq {settings settings' : LimiterSettings} {place place' : K → Nat}
    {actions actions' : List (Action K)} (hpolicy : settings.policy = settings'.policy)
    (hidle : settings.idleTtl = settings'.idleTtl)
    (hsame : actions.filter (·.concerns k) = actions'.filter (·.concerns k))
    (hspared : (new settings place).Spares k actions)
    (hspared' : (new settings' place').Spares k actions') :
    (new settings place).answersAbout k actions =
      (new settings' place').answersAbout k actions' := by
  have hl := sound_new settings place
  have hl' := sound_new settings' place'
  have hagree : Agree k (new settings place) (new settings' place') :=
    ⟨congrArg (Edition.mk 0) hpolicy, hidle, (find?_new ..).trans (find?_new ..).symm⟩
  rw [answersAbout_filter hl hl' hagree hspared, hsame,
    ← answersAbout_filter hl' hl' (Agree.refl k _) hspared']

/-- Room for two callers, all in one shard. -/
def exCramped : LimiterSettings :=
  { maxBuckets := 2, shards := 1, idleTtl := .ofNanos 50,
    policy := ⟨⟨1, .ofNanos 10⟩, ⟨4, .ofNanos 5⟩⟩ }

/-- The bucket of caller `2` is evicted, and that of caller `1` is purged. -/
def exCrowd : List (Action Nat) :=
  [.request 1 0, .request 2 1, .request 1 2, .request 3 3, .updatePolicy .standard, .request 1 12,
    .promote 1 13, .tokens 3, .retryAfter 1 13, .purgeIdle 70, .isPromoted 1, .request 1 71]

/-- Caller `1` does the same, and others do nothing but shut the limiter down and
make caller `5` wait. -/
def exCalm : List (Action Nat) :=
  [.shutDown, .request 5 0, .request 1 0, .request 5 0, .request 1 2, .updatePolicy .standard,
    .request 1 12, .promote 1 13, .retryAfter 1 13, .purgeIdle 70, .isPromoted 1, .request 1 71]

theorem answersAbout_exCrowd :
    ((new exCramped id).answersAbout 1 exCrowd).map Answer.isAllowed =
      [true, false, true, false, false, false, true] ∧
    (new exCramped id).answersAbout 1 exCrowd =
      (new { exCramped with maxBuckets := 9, shards := 4 } (· + 3)).answersAbout 1 exCalm :=
  ⟨by decide, answersAbout_eq rfl rfl (by decide) (by decide) (by decide)⟩

end Limiter

end Tollgate.Rate
