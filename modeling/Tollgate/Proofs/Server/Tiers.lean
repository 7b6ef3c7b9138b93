import Mathlib.Data.List.Induction
import Tollgate.Proofs.Server.Denial

/-!
# The tiers of a service's callers

The tier of a caller is lost with its bucket. A caller with an API key does not notice: where
its bucket is gone, its next request promotes it before the request is decided, and where it
has one in a higher tier, the request leaves that tier as it is. An address has to be promoted
by an administrator, and has its tier for as long as it keeps the bucket.

Results:
1. `settings_run`: the API keys that a service knows do not change.
2. `exists_decided_of_apiKey`: what decides the request of a caller with an API key.
3. `exists_tier_of_step`, `promotedWithin_run`: how an address comes to a higher tier.
4. `promoted_step`, `promoted_run`: which events count as promotions.
5. `tiers_run`: all of it.
-/

namespace Tollgate.Server

/-! ## Definitions -/

/-- The caller that the event promotes, and its own limits if it gets any, if the event is an
administrator's request to promote one. -/
def Event.promotion? : Event → Option (String × Option Rate.Limits)
  | .request r _ => r.promotion?
  | _ => none

/-- The caller has an API key, and no bucket yet or an ordinary one. -/
def isUnraised (s : Server) (caller : Caller) : Bool :=
  match caller with
  | .apiKey _ => (s.limiter.find? caller.limiterKey).all (·.tier = .default)
  | .address _ => false

/-- The event is a request that takes admission, of such a caller. -/
def meetsUnraised (s : Server) (e : Event × Moment) : Bool :=
  match e.1 with
  | .request r _ => r.demand?.isSome && s.isUnraised (s.callerOf r)
  | _ => false

/-- The key has a bucket, and has one after each of the events. -/
def Holds (s : Server) (k : String) : List (Event × Moment) → Prop
  | [] => s.limiter.contains k = true
  | e :: rest => s.limiter.contains k = true ∧ (s.step e).Holds k rest

/-- One of the events has promoted the key to the tier, and it has had a bucket ever since. -/
def PromotedWithin (s : Server) (k : String) (tier : Rate.Tier) (events : List (Event × Moment)) :
    Prop :=
  ∃ before e own after, events = before ++ e :: after ∧ e.1.promotion? = some (k, own) ∧
    tier = .raised own ∧ ((s.run before).step e).Holds k after

/-- The request is decided by what the entry holds, under the limits that its tier has now, and
the key has the entry from then on. -/
structure DecidedBy (s : Server) (r : Http.Request) (chance : Chance) (now : Moment) (k : String)
    (e : Rate.Entry) : Prop where
  limits_eq : e.bucket.limits = e.tier.limits s.limiter.policy
  admits_eq : s.admits r now = (e.bucket.tryConsume now.clock).1
  found : (s.handle r chance now).2.limiter.find? k = some (e.consume now.clock)

variable {s : Server} {settings : Settings} {r : Http.Request} {d : Demand} {k : String}
  {tier : Rate.Tier}

/-! ## Settings -/

theorem settings_admitCaller (s : Server) (caller : Caller) (now : Instant) :
    (s.admitCaller caller now).2.settings = s.settings := by
  simp only [admitCaller]
  split
  · rfl
  · rfl

theorem settings_verify (s : Server) (siteKey : String) (submission : Submission) (now : Moment) :
    (s.verify siteKey submission now).2.settings = s.settings := by
  obtain ⟨finding, verifier, ledger, store, hverify, -⟩ := exists_verify s siteKey submission now
  rw [hverify]

theorem settings_judge (s : Server) (body : Except Http.BodyFault VerifyRequest) (now : Moment) :
    (s.judge body now).2.settings = s.settings := by
  unfold judge
  split
  · rfl
  · split
    · rfl
    · exact settings_verify s _ _ now

theorem settings_meet (s : Server) (caller : Caller) (chance : Chance) (now : Moment)
    (d : Demand) : (s.meet caller chance now d).2.settings = s.settings := by
  have hadmit := settings_admitCaller s caller now.clock
  cases hcaller : s.admitCaller caller now.clock with
  | mk admission s' =>
    rw [hcaller] at hadmit
    cases admission with
    | error fault =>
      rw [meet_of_denied hcaller]
      exact hadmit
    | ok _ =>
      cases d with
      | puzzle query =>
        rw [(meet_puzzle hcaller query).2]
        exact hadmit
      | verdict body =>
        rw [(meet_verdict hcaller body).2, settings_judge]
        exact hadmit

theorem settings_handle (s : Server) (r : Http.Request) (chance : Chance) (now : Moment) :
    (s.handle r chance now).2.settings = s.settings :=
  Kept.handle (P := fun s' => s'.settings = s.settings)
    { self := rfl
      handOut := fun query => by
        have hmeet := settings_meet s (s.callerOf r) chance now (.puzzle query)
        rw [meet] at hmeet
        exact hmeet
      checkSubmission := fun body => by
        have hmeet := settings_meet s (s.callerOf r) chance now (.verdict body)
        rw [meet] at hmeet
        exact hmeet
      changePolicy := fun body => by
        unfold changePolicy
        split
        · rfl
        · rfl
      promote := fun request => by
        unfold promote
        split
        · rfl
        · rfl
      refresh := fun siteKey => by
        unfold refresh
        split
        · rfl
        · dsimp only
          split
          · rfl
          · rfl }

theorem settings_step (s : Server) (e : Event × Moment) : (s.step e).settings = s.settings := by
  obtain ⟨event, now⟩ := e
  cases event with
  | request r chance => exact settings_handle s r chance now
  | refresh siteKey sample =>
    simp only [step]
    split
    · rfl
    · rfl
  | sweep => rfl
  | share store => rfl

theorem settings_run (s : Server) (events : List (Event × Moment)) :
    (s.run events).settings = s.settings := by
  induction events generalizing s with
  | nil => rfl
  | cons e rest ih => exact (ih (s.step e)).trans (settings_step s e)

theorem callerOf_of_apiKey {key : String} (hkey : r.headers.word? Caller.keyHeader = some key)
    (hknown : key ∈ s.settings.apiKeys) : s.callerOf r = .apiKey key := by
  rw [callerOf, Caller.identify, hkey, Option.filter_some,
    if_pos (List.contains_iff_mem.mpr hknown)]

/-! ## Callers with an API key -/

theorem admits_eq_isAllowed (s : Server) (r : Http.Request) (now : Moment) :
    s.admits r now = ((s.limiterFor (s.callerOf r) now.clock).admitAt (s.callerOf r).limiterKey
      now.clock).1.isAllowed := by
  simp only [admits, admitCaller]
  split
  · next h =>
    rw [h]
    rfl
  · next h =>
    rw [h]
    rfl

theorem policy_limiterFor (s : Server) (caller : Caller) (now : Instant) :
    (s.limiterFor caller now).policy = s.limiter.policy := by
  unfold limiterFor
  split
  · split
    · rfl
    · exact congrArg Rate.Edition.policy (Rate.Limiter.edition_setTier _ _ _ _)
  · rfl

/-- Before a request with an API key is decided, its caller is in a higher tier: in the one that
it was in, or promoted if it was in none. -/
theorem tierOf_limiterFor (h : s.limiter.Sound) (key : String) (now : Instant) :
    (s.limiterFor (.apiKey key) now).tierOf (Caller.apiKey key).limiterKey ≠ .default ∧
      ∀ old, s.limiter.find? (Caller.apiKey key).limiterKey = some old → old.tier ≠ .default →
        (s.limiterFor (.apiKey key) now).tierOf (Caller.apiKey key).limiterKey = old.tier := by
  unfold limiterFor
  dsimp only
  rw [Rate.Limiter.isPromoted_eq]
  cases hfind : s.limiter.find? (Caller.apiKey key).limiterKey with
  | none =>
    rw [Option.all_none, Bool.not_true, if_neg Bool.false_ne_true, Rate.Limiter.tierOf_promote h]
    exact ⟨nofun, nofun⟩
  | some old =>
    rw [Option.all_some]
    by_cases hold : old.tier = .default
    · rw [decide_eq_true hold, Bool.not_true, if_neg Bool.false_ne_true,
        Rate.Limiter.tierOf_promote h]
      refine ⟨nofun, fun old' hsame hne => ?_⟩
      obtain rfl := Option.some.inj hsame
      exact absurd hold hne
    · rw [decide_eq_false hold, Bool.not_false, if_pos rfl, Rate.Limiter.tierOf, hfind]
      refine ⟨hold, fun old' hsame _ => ?_⟩
      obtain rfl := Option.some.inj hsame
      rfl

/-- The entry that decides a request with an API key. -/
theorem exists_decided_of_apiKey (h : s.limiter.Sound) (hdemand : r.demand? = some d) {key : String}
    (hcaller : s.callerOf r = .apiKey key) (chance : Chance) (now : Moment) :
    ∃ e, s.DecidedBy r chance now (Caller.apiKey key).limiterKey e ∧ e.tier ≠ .default ∧
      ∀ old, s.limiter.find? (Caller.apiKey key).limiterKey = some old → old.tier ≠ .default →
        e.tier = old.tier := by
  have hfor := sound_limiterFor h (.apiKey key) now.clock
  have htier : ((s.limiterFor (.apiKey key) now.clock).deciding (Caller.apiKey key).limiterKey
      now.clock).tier =
      (s.limiterFor (.apiKey key) now.clock).tierOf (Caller.apiKey key).limiterKey := by
    rw [Rate.Limiter.deciding, Rate.Entry.tier_sync, Rate.Limiter.tier_found_default]
  obtain ⟨hraised, hkept⟩ := tierOf_limiterFor h key now.clock
  refine ⟨(s.limiterFor (.apiKey key) now.clock).deciding (Caller.apiKey key).limiterKey now.clock,
    ⟨?_, ?_, ?_⟩, htier ▸ hraised, htier ▸ hkept⟩
  · rw [Rate.Limiter.BoundLemmas.limits_deciding hfor, htier, Rate.Limiter.limitsOf,
      policy_limiterFor]
  · rw [admits_eq_isAllowed, hcaller, Rate.Limiter.isAllowed_admitAt]
  · have hfound := Rate.Limiter.find?_request_self hfor (Caller.apiKey key).limiterKey now.clock
    simp only [Rate.Limiter.perform] at hfound
    rw [limiter_handle_of_demand hdemand, ← limiter_admitCaller_eq_run, limiter_admitCaller,
      hcaller]
    exact hfound

/-! ## Promotions -/

theorem demand?_of_promotion {caller : String} {own : Option Rate.Limits}
    (h : r.promotion? = some (caller, own)) : r.demand? = none := by
  obtain ⟨-, hroute, -⟩ := Http.Request.promotion?_eq_some_iff.mp h
  rw [Http.Request.demand?, hroute]

/-- An event that promotes a caller does nothing else. -/
theorem actions_of_promotion {e : Event × Moment} {own : Option Rate.Limits}
    (h : e.1.promotion? = some (k, own)) : s.actions e = [.raise k own e.2.clock] := by
  obtain ⟨event, now⟩ := e
  cases event with
  | request r chance =>
    have hpromotion : r.promotion? = some (k, own) := h
    simp only [actions, demand?_of_promotion hpromotion, Option.isSome_none,
      Bool.false_eq_true, if_false]
    exact Http.Request.orders_of_promotion hpromotion now.clock
  | _ => cases h

theorem exists_promotion_of_mem_orders {a : Rate.Action String} {now : Instant}
    (hin : a ∈ r.orders now) (ha : a.promoted? = some k) : ∃ own, r.promotion? = some (k, own) := by
  cases hpromotion : r.promotion? with
  | none =>
    rw [Http.Request.orders, hpromotion] at hin
    cases hpolicy : r.policy? with
    | none =>
      rw [hpolicy] at hin
      cases hin
    | some policy =>
      rw [hpolicy] at hin
      obtain rfl := List.mem_singleton.mp hin
      cases ha
  | some promotion =>
    obtain ⟨caller, own⟩ := promotion
    rw [Http.Request.orders_of_promotion hpromotion] at hin
    obtain rfl := List.mem_singleton.mp hin
    rw [Rate.Action.promoted?_raise] at ha
    obtain rfl := Option.some.inj ha
    exact ⟨own, rfl⟩

theorem exists_apiKey_of_mem_admission {a : Rate.Action String} {caller : Caller} {now : Instant}
    (hin : a ∈ s.admission caller now) (ha : a.promoted? = some k) :
    ∃ key, k = (Caller.apiKey key).limiterKey := by
  cases caller with
  | address client =>
    obtain rfl := List.mem_singleton.mp hin
    cases ha
  | apiKey key =>
    unfold admission at hin
    dsimp only at hin
    split at hin
    · obtain rfl := List.mem_singleton.mp hin
      cases ha
    · rcases List.mem_cons.mp hin with rfl | hrequest
      · exact ⟨key, (Option.some.inj ha).symm⟩
      · obtain rfl := List.mem_singleton.mp hrequest
        cases ha

/-- What promotes a key is an administrator's event, or admission of an API key. -/
theorem promotion_of_mem_actions {a : Rate.Action String} {e : Event × Moment}
    (hin : a ∈ s.actions e) (ha : a.promoted? = some k) :
    (∃ own, e.1.promotion? = some (k, own)) ∨ ∃ key, k = (Caller.apiKey key).limiterKey := by
  obtain ⟨event, now⟩ := e
  cases event with
  | request r chance =>
    unfold actions at hin
    dsimp only at hin
    split at hin
    · exact .inr (exists_apiKey_of_mem_admission hin ha)
    · exact .inl (exists_promotion_of_mem_orders hin ha)
  | sweep =>
    obtain rfl := List.mem_singleton.mp hin
    cases ha
  | _ => cases hin

/-! ## Addresses -/

/-- An address in a higher tier has been promoted to it by the event, or was in it before. -/
theorem exists_tier_of_step (h : s.limiter.Sound) {client : Address} {e : Event × Moment}
    {entry : Rate.Entry}
    (hentry : (s.step e).limiter.find? (Caller.address client).limiterKey = some entry)
    (htier : entry.tier ≠ .default) :
    (∃ own, e.1.promotion? = some ((Caller.address client).limiterKey, own) ∧
      entry.tier = .raised own) ∨
    ∃ old, s.limiter.find? (Caller.address client).limiterKey = some old ∧
      old.tier = entry.tier := by
  rw [limiter_step] at hentry
  by_cases hpromotion : ∃ own, e.1.promotion? = some ((Caller.address client).limiterKey, own)
  · obtain ⟨own, hpromotion⟩ := hpromotion
    refine .inl ⟨own, hpromotion, ?_⟩
    rw [actions_of_promotion hpromotion, Rate.Limiter.run, List.foldl_cons, List.foldl_nil,
      Rate.Limiter.perform_raise] at hentry
    obtain ⟨raised, hraised, hsame, -⟩ := Rate.Limiter.exists_setTier h
      (Caller.address client).limiterKey (.raised own) e.2.clock
    obtain rfl := Option.some.inj (hentry.symm.trans hraised)
    exact hsame
  · refine .inr (Rate.Limiter.exists_tier_of_run h (fun a hin ha => ?_) hentry htier)
    rcases promotion_of_mem_actions hin ha with hadmin | ⟨key, hkey⟩
    · exact hpromotion hadmin
    · exact Caller.limiterKey_apiKey_ne_address key client hkey.symm

theorem Holds.concat {events : List (Event × Moment)} {e : Event × Moment}
    (h : s.Holds k events) (hlast : ((s.run events).step e).limiter.contains k = true) :
    s.Holds k (events ++ [e]) := by
  induction events generalizing s with
  | nil => exact ⟨h, hlast⟩
  | cons first rest ih => exact ⟨h.1, ih h.2 hlast⟩

/-- A service starts without callers, and so without promoted ones. -/
theorem start_promoted {fresh : PuzzleKey} {place : String → Nat} {store : Store}
    {started : Instant} (hstart : start settings fresh place store started = .ok (.ok s)) :
    (∀ k, s.limiter.find? k = none) ∧ s.limiter.counts.promoted = 0 := by
  obtain ⟨key, rates, networks, rfl⟩ := exists_start hstart
  exact ⟨Rate.Limiter.find?_new rates place, rfl⟩

/-- By induction on the events from the last one: either it is the promotion, or the tier is from
before it. -/
theorem promotedWithin_run {fresh : PuzzleKey} {place : String → Nat} {store : Store}
    {started : Instant} (hstart : start settings fresh place store started = .ok (.ok s))
    (events : List (Event × Moment)) {client : Address} {entry : Rate.Entry}
    (hentry : (s.run events).limiter.find? (Caller.address client).limiterKey = some entry)
    (htier : entry.tier ≠ .default) :
    s.PromotedWithin (Caller.address client).limiterKey entry.tier events := by
  induction events using List.reverseRecOn generalizing entry with
  | nil =>
    rw [run, List.foldl_nil, (start_promoted hstart).1] at hentry
    cases hentry
  | append_singleton events e ih =>
    rw [run_concat] at hentry
    have hcontains : ((s.run events).step e).limiter.contains
        (Caller.address client).limiterKey = true := congrArg Option.isSome hentry
    rcases exists_tier_of_step (Rate.Limiter.sound_of_reachable (reachable_run hstart events))
      hentry htier with ⟨own, hpromotion, hraised⟩ | ⟨old, hold, hsame⟩
    · exact ⟨events, e, own, [], rfl, hpromotion, hraised, hcontains⟩
    · obtain ⟨before, p, own, after, hevents, hpromotion, hraised, hholds⟩ :=
        ih hold (hsame ▸ htier)
      refine ⟨before, p, own, after ++ [e], ?_, hpromotion, hsame ▸ hraised, hholds.concat ?_⟩
      · rw [hevents, List.append_assoc, List.cons_append]
      · rw [hevents, run_append] at hcontains
        exact hcontains

/-! ## Counts -/

theorem countP_orders (r : Http.Request) (now : Instant) :
    (r.orders now).countP (·.promoted?.isSome) =
      if r.promotion?.isSome = true then 1 else 0 := by
  cases hpromotion : r.promotion? with
  | some promotion =>
    obtain ⟨caller, own⟩ := promotion
    rw [Http.Request.orders_of_promotion hpromotion, List.countP_singleton,
      Rate.Action.promoted?_raise]
    rfl
  | none =>
    rw [Http.Request.orders, hpromotion]
    cases r.policy? with
    | none => rfl
    | some policy => rfl

/-- An API key is promoted by its own request exactly if it is not yet in a higher tier. -/
theorem countP_admission (s : Server) (caller : Caller) (now : Instant) :
    (s.admission caller now).countP (·.promoted?.isSome) =
      if s.isUnraised caller = true then 1 else 0 := by
  cases caller with
  | address client => rfl
  | apiKey key =>
    unfold admission isUnraised
    dsimp only
    rw [Rate.Limiter.isPromoted_eq]
    by_cases hordinary :
        (s.limiter.find? (Caller.apiKey key).limiterKey).all (·.tier = .default) = true
    · rw [hordinary, Bool.not_true, if_neg Bool.false_ne_true, if_pos rfl]
      rfl
    · rw [Bool.not_eq_true] at hordinary
      rw [hordinary, Bool.not_false, if_pos rfl, if_neg Bool.false_ne_true]
      rfl

/-- A promotion is counted where an administrator orders one and where a request with an API key
finds no bucket or an ordinary one, and nowhere else. -/
theorem promoted_step (s : Server) (e : Event × Moment) :
    (s.step e).limiter.counts.promoted = s.limiter.counts.promoted +
      (if e.1.promotion?.isSome = true then 1 else 0) +
      (if s.meetsUnraised e = true then 1 else 0) := by
  rw [limiter_step, Rate.Limiter.promoted_run, Nat.add_assoc]
  congr 1
  obtain ⟨event, now⟩ := e
  cases event with
  | request r chance =>
    cases hdemand : r.demand? with
    | none =>
      simp only [actions, meetsUnraised, hdemand, Option.isSome_none, Bool.false_and,
        Bool.false_eq_true, if_false]
      exact countP_orders r now.clock
    | some d =>
      have hpromotion : r.promotion? = none := by
        cases hpromotion : r.promotion? with
        | none => rfl
        | some promotion =>
          rw [demand?_of_promotion hpromotion] at hdemand
          cases hdemand
      simp only [actions, meetsUnraised, Event.promotion?, hdemand, hpromotion, Option.isSome_some,
        Option.isSome_none, Bool.true_and, Bool.false_eq_true, if_true, if_false, Nat.zero_add]
      exact countP_admission s (s.callerOf r) now.clock
  | refresh | sweep | share => rfl

theorem promoted_run (s : Server) (events : List (Event × Moment)) :
    (s.run events).limiter.counts.promoted = s.limiter.counts.promoted +
      events.countP (·.1.promotion?.isSome) + countAlong meetsUnraised s events := by
  induction events generalizing s with
  | nil => rfl
  | cons e rest ih =>
    have hrest := ih (s.step e)
    have hfirst := promoted_step s e
    rw [List.countP_cons, countAlong]
    show ((s.step e).run rest).limiter.counts.promoted = _
    omega

/-! ## Results -/

/-- A request with an API key that the service knows is decided by a bucket in a higher tier, in
the one that it was in if it was in any. An address is in a higher tier only where one of the
events has promoted it and its bucket has been kept ever since. Promotions are counted where an
administrator orders one and where a request with an API key meets no bucket or an ordinary one,
and nowhere else. -/
theorem tiers_run {fresh : PuzzleKey} {place : String → Nat} {store : Store} {started : Instant}
    (hstart : start settings fresh place store started = .ok (.ok s))
    (events : List (Event × Moment)) :
    (∀ r d key chance now, r.demand? = some d → r.headers.word? Caller.keyHeader = some key →
      key ∈ settings.apiKeys →
      ∃ e, (s.run events).DecidedBy r chance now (Caller.apiKey key).limiterKey e ∧
        e.tier ≠ .default ∧
        ∀ old, (s.run events).limiter.find? (Caller.apiKey key).limiterKey = some old →
          old.tier ≠ .default → e.tier = old.tier) ∧
    (∀ client e, (s.run events).limiter.find? (Caller.address client).limiterKey = some e →
      e.tier ≠ .default → s.PromotedWithin (Caller.address client).limiterKey e.tier events) ∧
    (∀ e, ((s.run events).step e).limiter.counts.promoted =
      (s.run events).limiter.counts.promoted +
        (if e.1.promotion?.isSome = true then 1 else 0) +
        (if (s.run events).meetsUnraised e = true then 1 else 0)) ∧
    (s.run events).limiter.counts.promoted =
      events.countP (·.1.promotion?.isSome) + countAlong meetsUnraised s events := by
  have hsound := Rate.Limiter.sound_of_reachable (reachable_run hstart events)
  refine ⟨?_, ?_, promoted_step (s.run events), ?_⟩
  · intro r d key chance now hdemand hkey hknown
    have hsettings : (s.run events).settings = settings :=
      (settings_run s events).trans (start_eq_ok hstart).1
    exact exists_decided_of_apiKey hsound hdemand
      (callerOf_of_apiKey hkey (hsettings ▸ hknown)) chance now
  · intro client e he htier
    exact promotedWithin_run hstart events he htier
  · rw [promoted_run, (start_promoted hstart).2, Nat.zero_add]

/-! ## A service with an API key -/

def exKeySettings : Settings :=
  { exSettings exApart with apiKeys := ["k1"] }

def exKeyServer : Server :=
  { exServer exApart Verifier.exVerifier.key with settings := exKeySettings }

theorem start_exKeySettings :
    start exKeySettings Verifier.exVerifier.key (fun _ => 0) .empty 0 = .ok (.ok exKeyServer) := by
  have hrates : exKeySettings.rates.limiter = .ok exRates :=
    toOption_eq_some_iff.mp
      (by decide +kernel : ({} : RateSettings).limiter.toOption = some exRates)
  unfold start
  rw [hrates]
  rfl

/-- A form with the API key. -/
def exKeyForm : Http.Request :=
  ⟨.post, "/verify", [("x-api-key", "k1")], .v4 0x01020304, "sitekey=a&solution=b"⟩

theorem demand?_exKeyForm : exKeyForm.demand? = some (.verdict (.error .otherType)) := by
  have hroute : Route.ofRequest? exKeyForm = some .verify := by decide
  have hread : exKeyForm.read VerifyRequest.codec = .error .otherType :=
    if_pos (by decide +kernel)
  unfold Http.Request.demand?
  rw [hroute, hread]
  rfl

/-- The API key comes by, an address is promoted, and a sweep drops the bucket of the key. -/
def exSwept : List (Event × Moment) := [
  (.request exKeyForm Verifier.exChance, ⟨0, .ofSeconds 1000⟩),
  (.request exRaise Verifier.exChance, ⟨1000000000000, .ofSeconds 2000⟩),
  (.sweep, ⟨1200000000000, .ofSeconds 2200⟩)]

/-- The API key is in a higher tier again when its next request is decided, the address has kept
its tier, and two promotions have been counted. -/
theorem tiers_exSwept :
    (exKeyServer.run exSwept).limiter.find? (Caller.apiKey "k1").limiterKey = none ∧
    (∃ e, (exKeyServer.run exSwept).DecidedBy exKeyForm Verifier.exChance
        ⟨1200000000000, .ofSeconds 2200⟩ (Caller.apiKey "k1").limiterKey e ∧ e.tier ≠ .default) ∧
    exKeyServer.PromotedWithin (Caller.address (.v4 0xc0000207)).limiterKey
      (.custom ⟨50, .ofNanos 500000000⟩) exSwept ∧
    (exKeyServer.run exSwept).limiter.counts.promoted = 1 + 1 := by
  obtain ⟨hkey, haddress, -, hcount⟩ := tiers_run start_exKeySettings exSwept
  obtain ⟨e, hdecided, htier, -⟩ := hkey exKeyForm _ "k1" Verifier.exChance
    ⟨1200000000000, .ofSeconds 2200⟩ demand?_exKeyForm (by decide +kernel) List.mem_cons_self
  have hraised : ((exKeyServer.run exSwept).limiter.find?
      (Caller.address (.v4 0xc0000207)).limiterKey).map (·.tier) =
        some (.custom ⟨50, .ofNanos 500000000⟩) := by
    decide +kernel
  obtain ⟨entry, hentry, hsame⟩ := Option.map_eq_some_iff.mp hraised
  have hpromoted := haddress _ entry hentry (hsame ▸ nofun)
  have hordered : exSwept.countP (·.1.promotion?.isSome) = 1 := by decide +kernel
  have hmet : countAlong meetsUnraised exKeyServer exSwept = 1 := by decide +kernel
  rw [hordered, hmet] at hcount
  exact ⟨by decide +kernel, ⟨e, hdecided, htier⟩, hsame ▸ hpromoted, hcount⟩

end Tollgate.Server
