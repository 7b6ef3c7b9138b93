import Tollgate.Proofs.Rate.Tiers
import Tollgate.Proofs.Server.Admission

/-!
# What administrators change

A request to publish a policy or to promote a caller is done as a whole or not at all.
Whatever is wrong with it, with its form or with any of the limits that it tells, is found
before anything is changed, and it is answered as the client's fault. If it is done, the
answer tells what is now in force.

Results:
1. `policy_eq_ok_iff`, `limits_eq_ok_iff`: what a body has to tell.
2. `handle_rateLimits`, `handle_promote`: the two requests, done or refused.
3. `administration_exact`: all of it.
-/

namespace Tollgate

/-! ## Definitions -/

/-- The limits in both halves of the body are limits, and they make up the policy. -/
structure PolicyBody.Tells (b : PolicyBody) (policy : Rate.Policy) : Prop where
  default : Rate.Limits.ofSeconds b.default.capacity b.default.interval = .ok policy.default
  promoted : Rate.Limits.ofSeconds b.promoted.capacity b.promoted.interval = .ok policy.promoted

/-- Which limits of its own a caller is to be promoted to. They are told as a whole or not
at all. -/
inductive PromoteRequest.Asks (request : PromoteRequest) : Option Rate.Limits → Prop
  | shared : request.capacity = none → request.interval = none → Asks request none
  | own {capacity : UInt32} {interval : Float} {limits : Rate.Limits} :
      request.capacity = some capacity → request.interval = some interval →
      Rate.Limits.ofSeconds capacity interval = .ok limits → Asks request (some limits)

namespace Server

/-- The answer blames the client, and everything is as it was. -/
structure Refused (s : Server) (result : Answer × Server) : Prop where
  answer : ∃ response, result.1 = .ok response ∧ 400 ≤ response.status ∧ response.status < 500
  unchanged : result.2 = s

/-- The policy is in force as the next one, the answer tells it, and nothing else has changed. -/
structure Published (s : Server) (policy : Rate.Policy) (result : Answer × Server) : Prop where
  answer : result.1 = .ok (.json 200 result.2.limiter.policy.toJson)
  policy_eq : result.2.limiter.policy = policy
  generation_eq : result.2.limiter.edition.generation = s.limiter.edition.generation + 1
  rest_eq : result.2 = { s with
    limiter := { s.limiter with edition := result.2.limiter.edition } }

/-- The caller has a bucket in its new tier under the limits that the answer tells. It has the
whole tokens that it had by now, as far as they fit, and all if it is new. -/
def Promoted (s : Server) (caller : String) (own : Option Rate.Limits) (now : Instant)
    (result : Answer × Server) : Prop :=
  ∃ e, result.1 = .ok (.json 200 (.object
      [("caller", .text caller), ("limits", e.bucket.limits.toJson)])) ∧
    result.2.limiter.find? caller = some e ∧
    e.tier = .raised own ∧
    e.bucket.limits = own.getD s.limiter.policy.promoted ∧
    (∀ old, s.limiter.find? caller = some old → e.bucket.wholeTokens =
      min (old.bucket.refill now).wholeTokens
        (e.bucket.limits.maxLevel / e.bucket.limits.unit)) ∧
    (s.limiter.find? caller = none → e.bucket = .full e.bucket.limits now)

end Server

/-! ## Bodies -/

theorem LimitsBody.limits_eq_ok_iff {b : LimitsBody} {limits : Rate.Limits} :
    b.limits = .ok limits ↔ Rate.Limits.ofSeconds b.capacity b.interval = .ok limits :=
  mapError_eq_ok_iff

theorem PolicyBody.policy_eq_ok_iff {b : PolicyBody} {policy : Rate.Policy} :
    b.policy = .ok policy ↔ b.Tells policy := by
  unfold PolicyBody.policy
  simp only [bind_eq_ok_iff, pure_eq_ok_iff, LimitsBody.limits_eq_ok_iff]
  constructor
  · rintro ⟨default, hdefault, promoted, hpromoted, rfl⟩
    exact ⟨hdefault, hpromoted⟩
  · rintro ⟨hdefault, hpromoted⟩
    exact ⟨policy.default, hdefault, policy.promoted, hpromoted, rfl⟩

theorem PromoteRequest.limits_of_own {request : PromoteRequest} {capacity : UInt32}
    {interval : Float} (hcapacity : request.capacity = some capacity)
    (hinterval : request.interval = some interval) :
    request.limits = (LimitsBody.limits ⟨capacity, interval⟩).map some := by
  rw [limits, hcapacity, hinterval]
  rfl

theorem PromoteRequest.limits_eq_ok_iff {request : PromoteRequest} {own : Option Rate.Limits} :
    request.limits = .ok own ↔ request.Asks own := by
  constructor
  · intro h
    cases hcapacity : request.capacity with
    | none =>
      cases hinterval : request.interval with
      | none =>
        rw [limits, hcapacity, hinterval] at h
        obtain rfl := Except.ok.inj h
        exact .shared hcapacity hinterval
      | some interval =>
        rw [limits, hcapacity, hinterval] at h
        cases h
    | some capacity =>
      cases hinterval : request.interval with
      | none =>
        rw [limits, hcapacity, hinterval] at h
        cases h
      | some interval =>
        rw [limits_of_own hcapacity hinterval] at h
        obtain ⟨limits, hlimits, rfl⟩ := map_eq_ok_iff.mp h
        rw [LimitsBody.limits_eq_ok_iff] at hlimits
        exact .own hcapacity hinterval hlimits
  · intro h
    cases h with
    | shared hcapacity hinterval => rw [limits, hcapacity, hinterval]
    | @own capacity interval limits hcapacity hinterval hlimits =>
      have hown : LimitsBody.limits ⟨capacity, interval⟩ = .ok limits :=
        LimitsBody.limits_eq_ok_iff.mpr hlimits
      rw [limits_of_own hcapacity hinterval, hown]
      rfl

namespace Server

variable {s : Server} {r : Http.Request} {chance : Chance} {now : Moment} {route : Route}

/-! ## Requests -/

theorem json_no_error (value : Json) : ¬400 ≤ (Http.Response.json 200 value).status := by
  show ¬400 ≤ 200
  decide

theorem Refused.of_body (s : Server) (fault : Http.BodyFault) :
    s.Refused (.ok (.ofBodyFault fault), s) := by
  refine ⟨⟨_, rfl, ?_⟩, rfl⟩
  show 400 ≤ fault.status ∧ fault.status < 500
  cases fault <;> decide

theorem Refused.of_invalidInput (s : Server) {fault : ApiFault}
    (h : ∃ text, fault = .failed ⟨.invalidInput, text⟩) : s.Refused (fault.response, s) := by
  obtain ⟨text, rfl⟩ := h
  have hclient : 400 ≤ FailureKind.invalidInput.status ∧ FailureKind.invalidInput.status < 500 := by
    decide
  exact ⟨⟨_, rfl, hclient⟩, rfl⟩

theorem handle_post (hpost : r.method = .post) (hroute : Route.ofRequest? r = some route)
    (hwritable : route.isWritable = true) (hshared : route.isShared = false) :
    s.handle r chance now = s.post r now route := by
  simp only [handle, dispatch, hroute, hpost, hwritable, hshared, if_true]
  rfl

/-- A body that tells a policy publishes it, and any other is refused. -/
theorem handle_rateLimits (hpost : r.method = .post)
    (hroute : Route.ofRequest? r = some .rateLimits) :
    (∃ body policy, r.read PolicyBody.codec = .ok body ∧ body.Tells policy ∧
      s.handle r chance now = (.ok (.json 200 policy.toJson),
        { s with limiter := s.limiter.updatePolicy policy })) ∨
    ((∀ body policy, r.read PolicyBody.codec = .ok body → ¬body.Tells policy) ∧
      s.Refused (s.handle r chance now)) := by
  rw [handle_post hpost hroute rfl rfl, post, withBody]
  cases hread : r.read PolicyBody.codec with
  | error fault =>
    refine .inr ⟨fun _ _ hsame => ?_, .of_body s fault⟩
    cases hsame
  | ok body =>
    dsimp only
    unfold changePolicy
    cases hpolicy : body.policy with
    | ok policy => exact .inl ⟨body, policy, rfl, PolicyBody.policy_eq_ok_iff.mp hpolicy, rfl⟩
    | error fault =>
      refine .inr ⟨?_, .of_invalidInput s (PolicyBody.exists_invalidInput hpolicy)⟩
      intro body' policy hsame htells
      obtain rfl := Except.ok.inj hsame
      rw [PolicyBody.policy_eq_ok_iff.mpr htells] at hpolicy
      cases hpolicy

/-- A body that names limits of its own or none promotes the caller, and any other is
refused. -/
theorem handle_promote (hpost : r.method = .post) (hroute : Route.ofRequest? r = some .promote) :
    (∃ request own, r.read PromoteRequest.codec = .ok request ∧ request.Asks own ∧
      s.handle r chance now = (.ok (.json 200 (.object [("caller", .text request.caller),
          ("limits", (own.getD s.limiter.policy.promoted).toJson)])),
        { s with limiter := s.limiter.setTier request.caller (.raised own) now.clock })) ∨
    ((∀ request own, r.read PromoteRequest.codec = .ok request → ¬request.Asks own) ∧
      s.Refused (s.handle r chance now)) := by
  rw [handle_post hpost hroute rfl rfl, post, withBody]
  cases hread : r.read PromoteRequest.codec with
  | error fault =>
    refine .inr ⟨fun _ _ hsame => ?_, .of_body s fault⟩
    cases hsame
  | ok request =>
    dsimp only
    unfold promote
    cases hlimits : request.limits with
    | ok own =>
      refine .inl ⟨request, own, rfl, PromoteRequest.limits_eq_ok_iff.mp hlimits, ?_⟩
      cases own with
      | some limits => rfl
      | none =>
        have hpolicy : (s.limiter.promote request.caller now.clock).policy = s.limiter.policy :=
          congrArg Rate.Edition.policy
            (Rate.Limiter.edition_setTier s.limiter request.caller .promoted now.clock)
        dsimp only
        rw [hpolicy]
        rfl
    | error fault =>
      refine .inr ⟨?_, .of_invalidInput s (PromoteRequest.exists_invalidInput hlimits)⟩
      intro request' own hsame hasks
      obtain rfl := Except.ok.inj hsame
      rw [PromoteRequest.limits_eq_ok_iff.mpr hasks] at hlimits
      cases hlimits

/-! ## Promoted callers -/

theorem promoted_setTier (h : s.limiter.Reachable) (caller : String) (own : Option Rate.Limits)
    (now : Instant) :
    s.Promoted caller own now (.ok (.json 200 (.object [("caller", .text caller),
        ("limits", (own.getD s.limiter.policy.promoted).toJson)])),
      { s with limiter := s.limiter.setTier caller (.raised own) now }) := by
  obtain ⟨e, he, htier, hlimits, hheld, hnew⟩ := Rate.Limiter.exists_setTier
    (Rate.Limiter.sound_of_reachable h) caller (.raised own) now
  have hown : (Rate.Tier.raised own).limits s.limiter.policy =
      own.getD s.limiter.policy.promoted := by
    cases own with
    | none => rfl
    | some limits => rfl
  refine ⟨e, ?_, he, htier, hlimits.trans hown, hheld, ?_⟩
  · rw [hlimits, hown]
  · intro hnone
    rw [hlimits]
    exact hnew hnone

/-! ## Results -/

/-- A request to publish a policy or to promote a caller is answered. If the answer is an error,
everything is as it was. A policy is published exactly if both halves of the body tell limits;
then it is the next one in force, as the answer tells. A caller is promoted exactly if the body
tells limits of its own or does not name any; then it has a bucket in the tier that it is promoted
to, under the limits that the answer tells, with the whole tokens that it had as far as they fit,
or a full one. -/
theorem administration_exact (s : Server) (r : Http.Request) (chance : Chance) (now : Moment)
    (hpost : r.method = .post) :
    (Route.ofRequest? r = some .rateLimits ∨ Route.ofRequest? r = some .promote →
      ∃ response, (s.handle r chance now).1 = .ok response ∧
        (400 ≤ response.status → (s.handle r chance now).2 = s)) ∧
    (Route.ofRequest? r = some .rateLimits →
      (∃ body policy, r.read PolicyBody.codec = .ok body ∧ body.Tells policy ∧
        s.Published policy (s.handle r chance now)) ∨
      ((∀ body policy, r.read PolicyBody.codec = .ok body → ¬body.Tells policy) ∧
        s.Refused (s.handle r chance now))) ∧
    (Route.ofRequest? r = some .promote → s.limiter.Reachable →
      (∃ request own, r.read PromoteRequest.codec = .ok request ∧ request.Asks own ∧
        s.Promoted request.caller own now.clock (s.handle r chance now)) ∨
      ((∀ request own, r.read PromoteRequest.codec = .ok request → ¬request.Asks own) ∧
        s.Refused (s.handle r chance now))) := by
  refine ⟨?_, ?_, ?_⟩
  · rintro (hroute | hroute)
    · rcases handle_rateLimits hpost hroute with ⟨body, policy, -, -, hdone⟩ | ⟨-, hrefused⟩
      · rw [hdone]
        exact ⟨_, rfl, fun herror => absurd herror (json_no_error _)⟩
      · obtain ⟨response, hresponse, -⟩ := hrefused.answer
        exact ⟨response, hresponse, fun _ => hrefused.unchanged⟩
    · rcases handle_promote hpost hroute with ⟨request, own, -, -, hdone⟩ | ⟨-, hrefused⟩
      · rw [hdone]
        exact ⟨_, rfl, fun herror => absurd herror (json_no_error _)⟩
      · obtain ⟨response, hresponse, -⟩ := hrefused.answer
        exact ⟨response, hresponse, fun _ => hrefused.unchanged⟩
  · intro hroute
    rcases handle_rateLimits hpost hroute with ⟨body, policy, hread, htells, hdone⟩ | hrefused
    · refine .inl ⟨body, policy, hread, htells, ?_⟩
      rw [hdone]
      exact ⟨rfl, rfl, rfl, rfl⟩
    · exact .inr hrefused
  · intro hroute h
    rcases handle_promote hpost hroute with ⟨request, own, hread, hasks, hdone⟩ | hrefused
    · refine .inl ⟨request, own, hread, hasks, ?_⟩
      rw [hdone]
      exact promoted_setTier h request.caller own now.clock
    · exact .inr hrefused

/-- A body that is declared to be JSON. -/
def exOrder (target body : String) : Http.Request :=
  ⟨.post, target, [("content-type", "application/json")], .v4 0x7f000001, body⟩

/-- A caller is promoted to limits of its own. -/
def exRaise : Http.Request :=
  exOrder "/admin/promote"
    "\x7b\"caller\": \"ip:192.0.2.7\", \"capacity\": 50, \"interval_secs\": 0.5\x7d"

/-- Ordinary callers get other limits, and promoted ones a token every zero seconds. -/
def exZero : Http.Request :=
  exOrder "/admin/rate-limits"
    "\x7b\"default\": \x7b\"capacity\": 5, \"interval_secs\": 1\x7d, \"promoted\": \x7b\"capacity\": 9, \"interval_secs\": 0\x7d\x7d"

/-- The caller is promoted, and the policy is refused for its second half. -/
theorem administration_exRaise :
    (∃ request own, exRaise.read PromoteRequest.codec = .ok request ∧ request.Asks own ∧
      (exServer [] Verifier.exVerifier.key).Promoted request.caller own 0
        ((exServer [] Verifier.exVerifier.key).handle exRaise Verifier.exChance
          ⟨0, .ofSeconds 1000⟩)) ∧
    ((exServer [] Verifier.exVerifier.key).handle exZero Verifier.exChance
      ⟨0, .ofSeconds 1000⟩).2 = exServer [] Verifier.exVerifier.key := by
  have hreachable : (exServer [] Verifier.exVerifier.key).limiter.Reachable :=
    ⟨exRates, fun _ => 0, [], rfl⟩
  constructor
  · obtain ⟨-, -, hpromote⟩ := administration_exact (exServer [] Verifier.exVerifier.key) exRaise
      Verifier.exChance ⟨0, .ofSeconds 1000⟩ rfl
    rcases hpromote (by decide) hreachable with hdone | ⟨-, hrefused⟩
    · exact hdone
    · obtain ⟨response, hresponse, herror, -⟩ := hrefused.answer
      have hstatus : ((exServer [] Verifier.exVerifier.key).handle exRaise Verifier.exChance
          ⟨0, .ofSeconds 1000⟩).1.toOption.map (·.status) = some 200 := by
        decide +kernel
      rw [hresponse] at hstatus
      have hok : response.status = 200 := Option.some.inj hstatus
      omega
  · obtain ⟨hunchanged, -, -⟩ := administration_exact (exServer [] Verifier.exVerifier.key) exZero
      Verifier.exChance ⟨0, .ofSeconds 1000⟩ rfl
    obtain ⟨response, hresponse, hsame⟩ := hunchanged (.inl (by decide))
    have hstatus : ((exServer [] Verifier.exVerifier.key).handle exZero Verifier.exChance
        ⟨0, .ofSeconds 1000⟩).1.toOption.map (·.status) = some 400 := by
      decide +kernel
    rw [hresponse] at hstatus
    exact hsame (Option.some.inj hstatus).ge

end Server

end Tollgate
