import Tollgate.Proofs.Rate.Decisions
import Tollgate.Proofs.Server.HandOut

/-!
# What takes admission

Puzzles and verdicts are for admitted callers only. A request for one of them is
decided by the limiter, once; who is denied is told so, and nothing but the
limiter knows of it. All other requests pass the limiter by.

Results:
1. `aside_handle`: what requests leave as it was that take no admission.
2. `handle_of_demand`: a request for a puzzle or a verdict, taken out of its HTTP.
3. `admitCaller_cases`, `decisions_afterAdmission`: what admission does.
4. `handle_cases`: what a request does, in four cases.
5. `handle_tooMany`: what a request that is told to wait has left behind.
-/

namespace Tollgate

/-! ## Definitions -/

/-- What only admitted callers get. -/
inductive Demand
  | puzzle (query : PuzzleQuery)
  /-- Holds the body of the request, or why it is no submission. -/
  | verdict (body : Except Http.BodyFault VerifyRequest)

namespace Http.Request

/-- What a request asks for that takes admission. -/
def demand? (r : Request) : Option Demand :=
  match Route.ofRequest? r, r.method with
  | some .puzzle, .get | some .puzzle, .head => (PuzzleQuery.ofQuery? r.query).map .puzzle
  | some .verify, .post => some (.verdict (r.read VerifyRequest.codec))
  | _, _ => none

/-- A response as it is sent: for every origin, and without its body if only the head
is asked for. -/
def dress (r : Request) (response : Response) : Response :=
  (if r.method = .head then response.withoutBody else response).forEveryOrigin

end Http.Request

namespace Server

/-- Answers a demand. -/
def meet (s : Server) (caller : Caller) (chance : Chance) (now : Moment) :
    Demand → Answer × Server
  | .puzzle query => s.handOut query caller chance now
  | .verdict body => s.checkSubmission body caller now

/-- The caller of a request is admitted. -/
def admits (s : Server) (r : Http.Request) (now : Moment) : Bool :=
  (s.admitCaller (s.callerOf r) now.clock).1.isOk

/-- The service once it has decided about a request. -/
def afterAdmission (s : Server) (r : Http.Request) (now : Moment) : Server :=
  { s with limiter := (s.admitCaller (s.callerOf r) now.clock).2.limiter }

/-- The answer is not that there are too many requests. -/
def IsNoDenial (answer : Answer) : Prop :=
  ∀ response, answer = .ok response → response.status ≠ 429

/-- Nothing has been decided, no verdict reached and no presentation counted, and the
answer says so. -/
structure Aside (s : Server) (result : Answer × Server) : Prop where
  isNoDenial : IsNoDenial result.1
  decisions_eq : result.2.limiter.decisions = s.limiter.decisions
  verifier_eq : result.2.verifier = s.verifier
  ledger_eq : result.2.ledger = s.ledger

end Server

/-! ## Faults of administrators -/

theorem ApiFault.status_ne_of_failed (cause : Failure) : (failed cause).status ≠ 429 := by
  rw [status]
  cases cause.kind <;> decide

theorem LimitsBody.exists_invalidInput {b : LimitsBody} {fault : ApiFault}
    (h : b.limits = .error fault) : ∃ text, fault = .failed ⟨.invalidInput, text⟩ := by
  unfold limits at h
  cases hlimits : Rate.Limits.ofSeconds b.capacity b.interval with
  | ok limits =>
    rw [hlimits] at h
    cases h
  | error cause =>
    rw [hlimits] at h
    exact ⟨_, (Except.error.inj h).symm⟩

theorem PolicyBody.exists_invalidInput {b : PolicyBody} {fault : ApiFault}
    (h : b.policy = .error fault) : ∃ text, fault = .failed ⟨.invalidInput, text⟩ := by
  unfold policy at h
  cases hdefault : b.default.limits with
  | error cause =>
    rw [hdefault] at h
    obtain rfl := Except.error.inj h
    exact LimitsBody.exists_invalidInput hdefault
  | ok default =>
    rw [hdefault] at h
    cases hpromoted : b.promoted.limits with
    | error cause =>
      rw [hpromoted] at h
      obtain rfl := Except.error.inj h
      exact LimitsBody.exists_invalidInput hpromoted
    | ok promoted =>
      rw [hpromoted] at h
      cases h

theorem PromoteRequest.exists_invalidInput {request : PromoteRequest} {fault : ApiFault}
    (h : request.limits = .error fault) : ∃ text, fault = .failed ⟨.invalidInput, text⟩ := by
  unfold limits at h
  split at h
  · cases h
  · next capacity interval _ _ =>
    cases hlimits : LimitsBody.limits ⟨capacity, interval⟩ with
    | error cause =>
      rw [hlimits] at h
      obtain rfl := Except.error.inj h
      exact LimitsBody.exists_invalidInput hlimits
    | ok limits =>
      rw [hlimits] at h
      cases h
  · exact ⟨_, (Except.error.inj h).symm⟩

namespace Server

variable {s s' : Server} {r : Http.Request} {d : Demand} {caller : Caller} {chance : Chance}
  {now : Moment} {response : Http.Response}

/-! ## Requests without a demand -/

theorem isNoDenial_ok (hstatus : response.status ≠ 429) : IsNoDenial (.ok response) := by
  intro response' h
  obtain rfl := Except.ok.inj h
  exact hstatus

theorem isNoDenial_response {fault : ApiFault} (hstatus : fault.status ≠ 429) :
    IsNoDenial fault.response :=
  fun _ h => ApiFault.status_eq h ▸ hstatus

theorem IsNoDenial.map {answer : Answer} (h : IsNoDenial answer)
    {f : Http.Response → Http.Response} (hf : ∀ response, (f response).status = response.status) :
    IsNoDenial (answer.map f) := by
  intro response hresponse
  obtain ⟨handed, hhanded, rfl⟩ := map_eq_ok_iff.mp hresponse
  exact hf handed ▸ h handed hhanded

theorem Aside.plain (hstatus : response.status ≠ 429) : s.Aside (.ok response, s) :=
  ⟨isNoDenial_ok hstatus, rfl, rfl, rfl⟩

theorem Aside.refused {fault : ApiFault} {result : Server} (hstatus : fault.status ≠ 429)
    (hdecisions : result.limiter.decisions = s.limiter.decisions)
    (hverifier : result.verifier = s.verifier) (hledger : result.ledger = s.ledger) :
    s.Aside (fault.response, result) :=
  ⟨isNoDenial_response hstatus, hdecisions, hverifier, hledger⟩

theorem Aside.map {result : Answer × Server} (h : s.Aside result)
    {f : Http.Response → Http.Response} (hf : ∀ response, (f response).status = response.status) :
    s.Aside (result.1.map f, result.2) :=
  ⟨h.isNoDenial.map hf, h.decisions_eq, h.verifier_eq, h.ledger_eq⟩

theorem aside_changePolicy (s : Server) (body : PolicyBody) : s.Aside (s.changePolicy body) := by
  unfold changePolicy
  split
  · next hfault =>
    obtain ⟨text, rfl⟩ := PolicyBody.exists_invalidInput hfault
    exact .refused (ApiFault.status_ne_of_failed _) rfl rfl rfl
  · exact ⟨isNoDenial_ok (Nat.ne_of_beq_eq_false rfl), Rate.Limiter.decisions_updatePolicy _ _, rfl,
      rfl⟩

theorem aside_promote (s : Server) (request : PromoteRequest) (now : Instant) :
    s.Aside (s.promote request now) := by
  unfold promote
  split
  · next hfault =>
    obtain ⟨text, rfl⟩ := PromoteRequest.exists_invalidInput hfault
    exact .refused (ApiFault.status_ne_of_failed _) rfl rfl rfl
  · next own _ =>
    refine ⟨isNoDenial_ok (Nat.ne_of_beq_eq_false rfl), ?_, rfl, rfl⟩
    cases own with
    | none => exact Rate.Limiter.decisions_setTier _ _ _ _
    | some limits => exact Rate.Limiter.decisions_setTier _ _ _ _

theorem aside_refresh (s : Server) (siteKey : String) (now : Moment) :
    s.Aside (s.refresh siteKey now) := by
  unfold refresh
  split
  · exact .refused (Nat.ne_of_beq_eq_false rfl) rfl rfl rfl
  · dsimp only
    split
    · exact ⟨isNoDenial_ok (Nat.ne_of_beq_eq_false rfl), rfl, rfl, rfl⟩
    · exact .refused (ApiFault.status_ne_of_failed _) rfl rfl rfl

theorem aside_withBody {α : Type} (codec : Codec α) (r : Http.Request)
    {answer : α → Answer × Server} (hanswer : ∀ a, s.Aside (answer a)) :
    s.Aside (s.withBody codec r answer) := by
  unfold withBody
  split
  · exact hanswer _
  · next fault _ =>
    refine .plain ?_
    cases fault <;> exact Nat.ne_of_beq_eq_false rfl

theorem aside_get (s : Server) (r : Http.Request) (chance : Chance) (now : Moment) {route : Route}
    (hdemand : route = .puzzle → PuzzleQuery.ofQuery? r.query = none) :
    s.Aside (s.get r chance now route) := by
  cases route with
  | puzzle =>
    rw [get, hdemand rfl]
    exact .plain (Nat.ne_of_beq_eq_false rfl)
  | ready =>
    simp only [get, ready]
    split
    · exact .plain (Nat.ne_of_beq_eq_false rfl)
    · exact .plain (Nat.ne_of_beq_eq_false rfl)
  | _ => exact .plain (Nat.ne_of_beq_eq_false rfl)

theorem aside_post (s : Server) (r : Http.Request) (now : Moment) {route : Route}
    (hdemand : route ≠ .verify) : s.Aside (s.post r now route) := by
  cases route with
  | verify => exact absurd rfl hdemand
  | rateLimits => exact aside_withBody _ r fun body => aside_changePolicy s body
  | promote => exact aside_withBody _ r fun body => aside_promote s body now.clock
  | refresh segment =>
    rw [post]
    split
    · exact aside_refresh s _ now
    · exact .plain (Nat.ne_of_beq_eq_false rfl)
  | _ => exact .plain (Nat.ne_of_beq_eq_false rfl)

theorem aside_dispatch (s : Server) (chance : Chance) (now : Moment) {route : Route}
    (hroute : Route.ofRequest? r = some route) (hdemand : r.demand? = none) :
    s.Aside (s.dispatch r chance now route) := by
  have hrefusal : ((Http.Response.mk 405 [] .empty).withHeader "allow" route.allow).status ≠ 429 :=
    Nat.ne_of_beq_eq_false rfl
  unfold Http.Request.demand? at hdemand
  rw [hroute] at hdemand
  simp only [dispatch]
  split
  · next hmethod =>
    rw [hmethod] at hdemand
    split
    · exact aside_get s r chance now fun hpuzzle => by
        subst hpuzzle
        exact Option.map_eq_none_iff.mp hdemand
    · exact .plain hrefusal
  · next hmethod =>
    rw [hmethod] at hdemand
    split
    · have hget : s.Aside (s.get r chance now route) := aside_get s r chance now fun hpuzzle => by
        subst hpuzzle
        exact Option.map_eq_none_iff.mp hdemand
      exact hget.map fun _ => rfl
    · exact .plain hrefusal
  · next hmethod =>
    rw [hmethod] at hdemand
    split
    · exact aside_post s r now fun hverify => by
        subst hverify
        cases hdemand
    · exact .plain hrefusal
  · split
    · exact .plain (Nat.ne_of_beq_eq_false rfl)
    · exact .plain hrefusal
  · exact .plain hrefusal

/-- Without a demand nothing is decided and no verdict is reached. -/
theorem aside_handle (s : Server) (chance : Chance) (now : Moment) (hdemand : r.demand? = none) :
    s.Aside (s.handle r chance now) := by
  unfold handle
  split
  · refine .plain ?_
    split <;> exact Nat.ne_of_beq_eq_false rfl
  · next route hroute =>
    have hdispatch := aside_dispatch s chance now hroute hdemand
    dsimp only
    split
    · exact hdispatch.map fun _ => rfl
    · exact hdispatch

/-! ## Requests with a demand -/

theorem dress_of_ne_head (hmethod : r.method ≠ .head) :
    r.dress = Http.Response.forEveryOrigin := by
  funext response
  rw [Http.Request.dress, if_neg hmethod]

theorem map_dress_of_head (hmethod : r.method = .head) (answer : Answer) :
    answer.map r.dress = (answer.map (·.withoutBody)).map (·.forEveryOrigin) := by
  cases answer with
  | error crash => rfl
  | ok response =>
    refine congrArg Except.ok ?_
    rw [Http.Request.dress, if_pos hmethod]

theorem handle_of_demand (s : Server) (chance : Chance) (now : Moment)
    (hdemand : r.demand? = some d) :
    s.handle r chance now = ((s.meet (s.callerOf r) chance now d).1.map r.dress,
      (s.meet (s.callerOf r) chance now d).2) := by
  unfold Http.Request.demand? at hdemand
  unfold handle dispatch
  split at hdemand
  · next hroute hmethod =>
    obtain ⟨query, hquery, rfl⟩ := Option.map_eq_some_iff.mp hdemand
    have hne : r.method ≠ .head := by
      rw [hmethod]
      decide
    rw [dress_of_ne_head hne]
    simp only [hroute, hmethod, get, hquery, meet, Route.isReadable, Route.isShared, if_true]
  · next hroute hmethod =>
    obtain ⟨query, hquery, rfl⟩ := Option.map_eq_some_iff.mp hdemand
    rw [map_dress_of_head hmethod]
    simp only [hroute, hmethod, get, hquery, meet, Route.isReadable, Route.isShared, if_true]
  · next hroute hmethod =>
    obtain rfl := Option.some.inj hdemand
    have hne : r.method ≠ .head := by
      rw [hmethod]
      decide
    rw [dress_of_ne_head hne]
    simp only [hroute, hmethod, post, meet, Route.isWritable, Route.isShared, if_true]
  · cases hdemand

theorem status_dress (r : Http.Request) (response : Http.Response) :
    (r.dress response).status = response.status := by
  unfold Http.Request.dress
  split
  · rfl
  · rfl

theorem body_dress (r : Http.Request) (response : Http.Response) :
    (r.dress response).body = response.body ∨ (r.dress response).body = .empty := by
  unfold Http.Request.dress
  split
  · exact .inr rfl
  · exact .inl rfl

theorem decisions_afterAdmission (s : Server) (r : Http.Request) (now : Moment) :
    (s.afterAdmission r now).limiter.decisions = s.limiter.decisions + 1 := by
  have hfor : (s.limiterFor (s.callerOf r) now.clock).decisions = s.limiter.decisions := by
    unfold limiterFor
    split
    · split
      · rfl
      · exact Rate.Limiter.decisions_setTier _ _ _ _
    · rfl
  simp only [afterAdmission, admitCaller]
  split
  · rw [Rate.Limiter.decisions_admitAt, hfor]
  · rw [Rate.Limiter.decisions_admitAt, hfor]

theorem afterAdmission_eq (s : Server) (r : Http.Request) (now : Moment) :
    s.afterAdmission r now = { s with limiter := (s.afterAdmission r now).limiter } := by
  unfold afterAdmission
  dsimp only

/-- A caller is admitted or told to wait. -/
theorem admitCaller_cases (s : Server) (r : Http.Request) (now : Moment) :
    (s.admits r now = true ∧
      s.admitCaller (s.callerOf r) now.clock = (.ok (), s.afterAdmission r now)) ∨
    (s.admits r now = false ∧ ∃ wait, s.admitCaller (s.callerOf r) now.clock =
      (.error (.rateLimited wait), s.afterAdmission r now)) := by
  simp only [admits, afterAdmission, admitCaller]
  split
  · dsimp only
    exact .inl ⟨rfl, rfl⟩
  · dsimp only
    exact .inr ⟨rfl, _, rfl⟩

theorem meet_of_denied {fault : ApiFault}
    (h : s.admitCaller caller now.clock = (.error fault, s')) :
    s.meet caller chance now d = (fault.response, s') := by
  cases d with
  | puzzle query => simp only [meet, handOut, h]
  | verdict body => simp only [meet, checkSubmission, h]

theorem issueFor_keeps (s : Server) (site : Site) (floor : Option Tier) (caller : Caller)
    (chance : Chance) (now : Moment) :
    IsNoDenial (s.issueFor site floor caller chance now).1 ∧
      (s.issueFor site floor caller chance now).2 =
        { s with store := (s.issueFor site floor caller chance now).2.store } := by
  simp only [issueFor]
  split
  · exact ⟨isNoDenial_ok (Nat.ne_of_beq_eq_false rfl), rfl⟩
  · dsimp only
    exact ⟨isNoDenial_response (ApiFault.status_ne_of_failed _), rfl⟩

/-- Once a caller is admitted, a puzzle changes no more than the counts of load. -/
theorem meet_puzzle (h : s.admitCaller caller now.clock = (.ok (), s')) (query : PuzzleQuery) :
    IsNoDenial (s.meet caller chance now (.puzzle query)).1 ∧
      (s.meet caller chance now (.puzzle query)).2 =
        { s' with store := (s.meet caller chance now (.puzzle query)).2.store } := by
  simp only [meet, handOut, h]
  split
  · dsimp only
    exact ⟨isNoDenial_response (Nat.ne_of_beq_eq_false rfl), rfl⟩
  · exact issueFor_keeps s' _ _ _ _ _

theorem meet_verdict (h : s.admitCaller caller now.clock = (.ok (), s'))
    (body : Except Http.BodyFault VerifyRequest) :
    IsNoDenial (s.meet caller chance now (.verdict body)).1 ∧
      (s.meet caller chance now (.verdict body)).2 = (s'.judge body now).2 := by
  simp only [meet, checkSubmission, h]
  split
  · next hjudge =>
    rw [hjudge]
    exact ⟨isNoDenial_ok (Nat.ne_of_beq_eq_false rfl), rfl⟩
  · next hjudge =>
    rw [hjudge]
    dsimp only
    exact ⟨isNoDenial_response (ApiFault.status_ne_of_failed _), rfl⟩
  · next hjudge =>
    rw [hjudge]
    exact ⟨nofun, rfl⟩

/-- What a request does, in four cases. -/
theorem handle_cases (s : Server) (r : Http.Request) (chance : Chance) (now : Moment) :
    -- It asks for nothing that takes admission.
    (r.demand? = none ∧ s.Aside (s.handle r chance now)) ∨
    -- It asks for a puzzle and is admitted.
    (∃ query, r.demand? = some (.puzzle query) ∧ s.admits r now = true ∧
      IsNoDenial (s.handle r chance now).1 ∧ (s.handle r chance now).2 =
        { s.afterAdmission r now with store := (s.handle r chance now).2.store }) ∨
    -- It asks for a verdict and is admitted; then its body is judged.
    (∃ body, r.demand? = some (.verdict body) ∧ s.admits r now = true ∧
      IsNoDenial (s.handle r chance now).1 ∧
      (s.handle r chance now).2 = ((s.afterAdmission r now).judge body now).2) ∨
    -- It is denied.
    (∃ d, r.demand? = some d ∧ s.admits r now = false ∧
      (s.handle r chance now).2 = s.afterAdmission r now ∧
      ∀ response, (s.handle r chance now).1 = .ok response →
        ∀ token, response.body ≠ .text token) := by
  cases hdemand : r.demand? with
  | none => exact .inl ⟨rfl, aside_handle s chance now hdemand⟩
  | some d =>
    rw [handle_of_demand s chance now hdemand]
    dsimp only
    rcases admitCaller_cases s r now with ⟨hadmitted, hcaller⟩ | ⟨hdenied, wait, hcaller⟩
    · cases d with
      | puzzle query =>
        obtain ⟨hanswer, hstate⟩ := @meet_puzzle _ _ _ chance _ hcaller query
        exact .inr (.inl ⟨query, rfl, hadmitted, hanswer.map (status_dress r), hstate⟩)
      | verdict body =>
        obtain ⟨hanswer, hstate⟩ := @meet_verdict _ _ _ chance _ hcaller body
        exact .inr (.inr (.inl ⟨body, rfl, hadmitted, hanswer.map (status_dress r), hstate⟩))
    · rw [meet_of_denied hcaller]
      refine .inr (.inr (.inr ⟨d, rfl, hdenied, rfl, fun response hresponse token => ?_⟩))
      obtain ⟨handed, hhanded, rfl⟩ := map_eq_ok_iff.mp hresponse
      have hwaits : (ApiFault.rateLimited wait).response = .ok handed := hhanded
      obtain ⟨headers, rfl⟩ := ApiFault.exists_headers hwaits
      rcases body_dress r ⟨(ApiFault.rateLimited wait).status, headers, .json _⟩ with hbody | hbody
      · rw [hbody]
        exact nofun
      · rw [hbody]
        exact nofun

/-- A request that is answered with 429 was denied: it has changed the limiter alone,
and what it is sent is no token. -/
theorem handle_tooMany (hresponse : (s.handle r chance now).1 = .ok response)
    (hstatus : response.status = 429) :
    r.demand?.isSome = true ∧ s.admits r now = false ∧
      (s.handle r chance now).2 = { s with limiter := (s.handle r chance now).2.limiter } ∧
      ∀ token, response.body ≠ .text token := by
  rcases handle_cases s r chance now with ⟨-, haside⟩ | ⟨query, -, -, hanswer, -⟩ |
    ⟨body, -, -, hanswer, -⟩ | ⟨d, hdemand, hdenied, hstate, hbody⟩
  · exact absurd hstatus (haside.isNoDenial response hresponse)
  · exact absurd hstatus (hanswer response hresponse)
  · exact absurd hstatus (hanswer response hresponse)
  · rw [hstate, hdemand]
    exact ⟨rfl, hdenied, afterAdmission_eq s r now, hbody response hresponse⟩

end Server

end Tollgate
