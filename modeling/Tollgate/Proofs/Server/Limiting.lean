import Tollgate.Proofs.Server.Accounting
import Tollgate.Proofs.Server.Administration

/-!
# How a service uses its limiter

All that a service does to its limiter are actions of it: admitting a caller is a
request, preceded by a promotion for an API key that is seen for the first time;
administrators promote callers and publish policies, and a sweep purges what is idle.
What holds of a limiter after every run of actions therefore holds of a service's
limiter after every run of events.

Results:
1. `limiter_admitCaller_eq_run`: the actions that admission takes.
2. `policy?_eq_some_iff`, `promotion?_eq_some_iff`: what administrators order.
3. `limiter_step`: the limiter after an event is the limiter before it after the
   actions of the event.
4. `reachable_run`: the limiter of a service that has started is reachable ever after.
-/

namespace Tollgate

/-! ## Definitions -/

namespace Http.Request

/-- The policy that a request publishes. -/
def policy? (r : Request) : Option Rate.Policy :=
  if r.method = .post ∧ Route.ofRequest? r = some .rateLimits then
    (r.read PolicyBody.codec).toOption.bind (·.policy.toOption)
  else none

/-- The caller that a request promotes, and its own limits if it gets any. -/
def promotion? (r : Request) : Option (String × Option Rate.Limits) :=
  if r.method = .post ∧ Route.ofRequest? r = some .promote then
    (r.read PromoteRequest.codec).toOption.bind fun request =>
      request.limits.toOption.map (request.caller, ·)
  else none

/-- The actions that an administrator's request takes. -/
def orders (r : Request) (now : Instant) : List (Rate.Action String) :=
  (r.policy?.map .updatePolicy).toList ++
    (r.promotion?.map fun (caller, own) => .raise caller own now).toList

end Http.Request

namespace Server

/-- The actions that admitting a caller takes. -/
def admission (s : Server) (caller : Caller) (now : Instant) : List (Rate.Action String) :=
  match caller with
  | .apiKey _ =>
    if s.limiter.isPromoted caller.limiterKey then [.request caller.limiterKey now]
    else [.promote caller.limiterKey now, .request caller.limiterKey now]
  | .address _ => [.request caller.limiterKey now]

/-- The actions that an event takes. -/
def actions (s : Server) (e : Event × Moment) : List (Rate.Action String) :=
  match e.1 with
  | .request r _ =>
    if r.demand?.isSome then s.admission (s.callerOf r) e.2.clock else r.orders e.2.clock
  | .sweep => [.purgeIdle e.2.clock]
  | .refresh _ _ | .share _ => []

end Server

/-! ## Orders -/

namespace Http.Request

variable {r : Request} {policy : Rate.Policy} {caller : String} {own : Option Rate.Limits}

theorem policy?_eq_some_iff : r.policy? = some policy ↔
    r.method = .post ∧ Route.ofRequest? r = some .rateLimits ∧
      ∃ body, r.read PolicyBody.codec = .ok body ∧ body.Tells policy := by
  unfold policy?
  split
  · next h =>
    simp only [Option.bind_eq_some_iff, toOption_eq_some_iff, PolicyBody.policy_eq_ok_iff]
    exact ⟨fun htells => ⟨h.1, h.2, htells⟩, fun htells => htells.2.2⟩
  · next h =>
    constructor
    · exact nofun
    · rintro ⟨hpost, hroute, -⟩
      exact absurd ⟨hpost, hroute⟩ h

theorem promotion?_eq_some_iff : r.promotion? = some (caller, own) ↔
    r.method = .post ∧ Route.ofRequest? r = some .promote ∧
      ∃ request, r.read PromoteRequest.codec = .ok request ∧ request.caller = caller ∧
        request.Asks own := by
  unfold promotion?
  split
  · next h =>
    simp only [Option.bind_eq_some_iff, Option.map_eq_some_iff, toOption_eq_some_iff,
      PromoteRequest.limits_eq_ok_iff, Prod.mk.injEq]
    constructor
    · rintro ⟨request, hread, own', hasks, hcaller, rfl⟩
      exact ⟨h.1, h.2, request, hread, hcaller, hasks⟩
    · rintro ⟨-, -, request, hread, hcaller, hasks⟩
      exact ⟨request, hread, own, hasks, hcaller, rfl⟩
  · next h =>
    constructor
    · exact nofun
    · rintro ⟨hpost, hroute, -⟩
      exact absurd ⟨hpost, hroute⟩ h

theorem policy?_of_route (h : Route.ofRequest? r ≠ some .rateLimits) : r.policy? = none :=
  if_neg fun hboth => h hboth.2

theorem promotion?_of_route (h : Route.ofRequest? r ≠ some .promote) : r.promotion? = none :=
  if_neg fun hboth => h hboth.2

theorem orders_of_none (hpolicy : r.policy? = none) (hpromotion : r.promotion? = none)
    (now : Instant) : r.orders now = [] := by
  rw [orders, hpolicy, hpromotion]
  rfl

theorem orders_of_policy (h : r.policy? = some policy) (now : Instant) :
    r.orders now = [.updatePolicy policy] := by
  obtain ⟨-, hroute, -⟩ := policy?_eq_some_iff.mp h
  rw [orders, h, promotion?_of_route (by rw [hroute]; exact nofun)]
  rfl

theorem orders_of_promotion (h : r.promotion? = some (caller, own)) (now : Instant) :
    r.orders now = [.raise caller own now] := by
  obtain ⟨-, hroute, -⟩ := promotion?_eq_some_iff.mp h
  rw [orders, h, policy?_of_route (by rw [hroute]; exact nofun)]
  rfl

end Http.Request

namespace Server

variable {s : Server} {settings : Settings} {r : Http.Request}

/-! ## Admission -/

theorem limiter_admitCaller (s : Server) (caller : Caller) (now : Instant) :
    (s.admitCaller caller now).2.limiter =
      ((s.limiterFor caller now).admitAt caller.limiterKey now).2 := by
  simp only [admitCaller]
  split
  · rfl
  · rfl

theorem limiter_admitCaller_eq_run (s : Server) (caller : Caller) (now : Instant) :
    (s.admitCaller caller now).2.limiter = s.limiter.run (s.admission caller now) := by
  rw [limiter_admitCaller]
  unfold limiterFor admission Rate.Limiter.run
  cases caller with
  | address client => simp only [List.foldl_cons, List.foldl_nil, Rate.Limiter.perform]
  | apiKey key =>
    dsimp only
    split
    · simp only [List.foldl_cons, List.foldl_nil, Rate.Limiter.perform]
    · simp only [List.foldl_cons, List.foldl_nil, Rate.Limiter.perform]

/-- Whatever is demanded, the limiter admits its caller and is left alone from then on. -/
theorem limiter_handle_of_demand {d : Demand} (hdemand : r.demand? = some d) (chance : Chance)
    (now : Moment) : (s.handle r chance now).2.limiter =
      s.limiter.run (s.admission (s.callerOf r) now.clock) := by
  rw [← limiter_admitCaller_eq_run]
  rcases handle_cases s r chance now with ⟨hnone, -⟩ | ⟨query, -, -, -, hstate⟩ |
    ⟨body, -, -, -, hstate⟩ | ⟨d, -, -, hstate, -⟩
  · rw [hdemand] at hnone
    cases hnone
  · rw [hstate]
    dsimp only
    rw [afterAdmission]
  · rw [hstate, (judge_keeps _ body now).1, afterAdmission]
  · rw [hstate, afterAdmission]

/-! ## Other requests -/

theorem get_of_no_demand {route : Route} (s : Server) (chance : Chance) (now : Moment)
    (hdemand : route = .puzzle → PuzzleQuery.ofQuery? r.query = none) :
    (s.get r chance now route).2 = s := by
  cases route with
  | puzzle => rw [get, hdemand rfl]
  | _ => rfl

/-- Who only looks at something and takes no admission changes nothing. -/
theorem handle_of_ne_post (hpost : r.method ≠ .post) (hdemand : r.demand? = none) (s : Server)
    (chance : Chance) (now : Moment) : (s.handle r chance now).2 = s := by
  unfold handle
  split
  · rfl
  · next route hroute =>
    unfold Http.Request.demand? at hdemand
    rw [hroute] at hdemand
    simp only [dispatch]
    split
    · next hmethod =>
      rw [hmethod] at hdemand
      split
      · refine get_of_no_demand s chance now fun hpuzzle => ?_
        subst hpuzzle
        exact Option.map_eq_none_iff.mp hdemand
      · rfl
    · next hmethod =>
      rw [hmethod] at hdemand
      split
      · refine get_of_no_demand s chance now fun hpuzzle => ?_
        subst hpuzzle
        exact Option.map_eq_none_iff.mp hdemand
      · rfl
    · next hmethod => exact absurd hmethod hpost
    · rfl
    · rfl

theorem limiter_refresh (s : Server) (siteKey : String) (now : Moment) :
    (s.refresh siteKey now).2.limiter = s.limiter := by
  unfold refresh
  split
  · rfl
  · dsimp only
    split
    · rfl
    · rfl

theorem limiter_handle_rateLimits (hpost : r.method = .post)
    (hroute : Route.ofRequest? r = some .rateLimits) (chance : Chance) (now : Moment) :
    (s.handle r chance now).2.limiter = s.limiter.run (r.orders now.clock) := by
  have hpromotion : r.promotion? = none :=
    Http.Request.promotion?_of_route (by rw [hroute]; exact nofun)
  rcases handle_rateLimits hpost hroute with ⟨body, policy, hread, htells, hdone⟩ |
    ⟨hnone, hrefused⟩
  · have hpolicy : r.policy? = some policy :=
      Http.Request.policy?_eq_some_iff.mpr ⟨hpost, hroute, body, hread, htells⟩
    rw [hdone, Http.Request.orders_of_policy hpolicy]
    rfl
  · have hpolicy : r.policy? = none := by
      rw [Option.eq_none_iff_forall_ne_some]
      intro policy hsome
      obtain ⟨-, -, body, hread, htells⟩ := Http.Request.policy?_eq_some_iff.mp hsome
      exact hnone body policy hread htells
    rw [hrefused.unchanged, Http.Request.orders_of_none hpolicy hpromotion]
    rfl

theorem limiter_handle_promote (hpost : r.method = .post)
    (hroute : Route.ofRequest? r = some .promote) (chance : Chance) (now : Moment) :
    (s.handle r chance now).2.limiter = s.limiter.run (r.orders now.clock) := by
  have hpolicy : r.policy? = none :=
    Http.Request.policy?_of_route (by rw [hroute]; exact nofun)
  rcases handle_promote hpost hroute with ⟨request, own, hread, hasks, hdone⟩ | ⟨hnone, hrefused⟩
  · have hpromotion : r.promotion? = some (request.caller, own) :=
      Http.Request.promotion?_eq_some_iff.mpr ⟨hpost, hroute, request, hread, rfl, hasks⟩
    rw [hdone, Http.Request.orders_of_promotion hpromotion]
    exact (Rate.Limiter.perform_raise s.limiter request.caller own now.clock).symm
  · have hpromotion : r.promotion? = none := by
      rw [Option.eq_none_iff_forall_ne_some]
      rintro ⟨caller, own⟩ hsome
      obtain ⟨-, -, request, hread, -, hasks⟩ := Http.Request.promotion?_eq_some_iff.mp hsome
      exact hnone request own hread hasks
    rw [hrefused.unchanged, Http.Request.orders_of_none hpolicy hpromotion]
    rfl

/-- What else is posted is none of the limiter's business. -/
theorem limiter_handle_post (hpost : r.method = .post) (hdemand : r.demand? = none)
    (hrates : Route.ofRequest? r ≠ some .rateLimits) (hpromote : Route.ofRequest? r ≠ some .promote)
    (s : Server) (chance : Chance) (now : Moment) :
    (s.handle r chance now).2.limiter = s.limiter := by
  cases hroute : Route.ofRequest? r with
  | none =>
    unfold handle
    rw [hroute]
  | some route =>
    cases route with
    | rateLimits => exact absurd hroute hrates
    | promote => exact absurd hroute hpromote
    | verify =>
      unfold Http.Request.demand? at hdemand
      rw [hroute, hpost] at hdemand
      cases hdemand
    | refresh segment =>
      rw [handle_post hpost hroute rfl rfl, post]
      split
      · exact limiter_refresh s _ now
      · rfl
    | health | ready | metrics | puzzle | difficulty =>
      simp only [handle, dispatch, hroute, hpost, Route.isWritable]
      rfl

/-- Nothing happens to the limiter but what is ordered. -/
theorem limiter_handle_of_no_demand (hdemand : r.demand? = none) (chance : Chance)
    (now : Moment) :
    (s.handle r chance now).2.limiter = s.limiter.run (r.orders now.clock) := by
  by_cases hpost : r.method = .post
  · by_cases hrates : Route.ofRequest? r = some .rateLimits
    · exact limiter_handle_rateLimits hpost hrates chance now
    by_cases hpromote : Route.ofRequest? r = some .promote
    · exact limiter_handle_promote hpost hpromote chance now
    rw [limiter_handle_post hpost hdemand hrates hpromote,
      Http.Request.orders_of_none (Http.Request.policy?_of_route hrates)
        (Http.Request.promotion?_of_route hpromote)]
    rfl
  · rw [handle_of_ne_post hpost hdemand, Http.Request.orders_of_none
      (if_neg fun hboth => hpost hboth.1) (if_neg fun hboth => hpost hboth.1)]
    rfl

/-! ## Runs -/

/-- The limiter after an event is the limiter after the actions that the event takes. -/
theorem limiter_step (s : Server) (e : Event × Moment) :
    (s.step e).limiter = s.limiter.run (s.actions e) := by
  obtain ⟨event, now⟩ := e
  cases event with
  | request r chance =>
    unfold actions
    dsimp only
    cases hdemand : r.demand? with
    | none => exact limiter_handle_of_no_demand hdemand chance now
    | some d => exact limiter_handle_of_demand hdemand chance now
  | refresh siteKey sample =>
    simp only [step]
    split
    · rfl
    · rfl
  | sweep => rfl
  | share store => rfl

theorem reachable_start {fresh : PuzzleKey} {place : String → Nat} {store : Store}
    {now : Instant} (h : start settings fresh place store now = .ok (.ok s)) :
    s.limiter.Reachable := by
  obtain ⟨key, rates, networks, rfl⟩ := exists_start h
  exact ⟨rates, place, [], rfl⟩

theorem reachable_step (h : s.limiter.Reachable) (e : Event × Moment) :
    (s.step e).limiter.Reachable := by
  rw [limiter_step]
  exact h.run (s.actions e)

/-- What holds of every reachable limiter holds of the limiter of a service. -/
theorem reachable_run {fresh : PuzzleKey} {place : String → Nat} {store : Store} {now : Instant}
    (h : start settings fresh place store now = .ok (.ok s)) (events : List (Event × Moment)) :
    (s.run events).limiter.Reachable := by
  have hrun : ∀ s : Server, s.limiter.Reachable → (s.run events).limiter.Reachable := by
    induction events with
    | nil => exact fun _ hs => hs
    | cons e rest ih => exact fun s hs => ih (s.step e) (reachable_step hs e)
  exact hrun s (reachable_start h)

end Server

end Tollgate
