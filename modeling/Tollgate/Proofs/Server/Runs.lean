import Tollgate.Proofs.Server.Sites
import Tollgate.Server.Routes

/-!
# Runs of a service

A service runs by answering requests, refreshing the level of a site on its own
account, and sweeping what is idle or expired, while other nodes use the shared
store. None of this touches its settings, its key, or anything of its sites but
their levels.

Results:
1. `Kept.handle`: a property that nothing breaks of what a request may do holds after
   the request.
2. `Serves.handle`: what every request leaves as it was.
3. `serves_start`, `Serves.run`: a service that starts from accepted settings has
   these settings, its key and their sites ever after.
-/

namespace Tollgate.Server

/-! ## Definitions -/

/-- What happens to a service. -/
inductive Event
  /-- A request is answered. -/
  | request (r : Http.Request) (chance : Chance)
  /-- A controller of the service takes in a sample of the load, or the failure to
  get one. -/
  | refresh (siteKey : String) (sample : Except Failure LoadSample)
  /-- Idle buckets and expired counters are dropped. -/
  | sweep
  /-- Others use the shared store, or it goes down or comes back. -/
  | share (store : Store)

/-- The service after an event. -/
def step (s : Server) (e : Event × Moment) : Server :=
  match e.1 with
  | .request r chance => (s.handle r chance e.2).2
  | .refresh siteKey sample =>
    match s.sites.get? siteKey with
    | some site => { s with sites := s.sites.put (site.refresh sample e.2.clock).2 }
    | none => s
  | .sweep =>
    { s with
      limiter := (s.limiter.purgeIdle e.2.clock).2
      ledger := s.ledger.map (·.purge e.2.clock) }
  | .share store => { s with store }

/-- The service after some events. The clocks may show anything at each. -/
def run (s : Server) (events : List (Event × Moment)) : Server :=
  events.foldl step s

/-- A property that the service has before a request and after each of the things that
the request may do. -/
structure Kept (P : Server → Prop) (s : Server) (r : Http.Request) (chance : Chance)
    (now : Moment) : Prop where
  self : P s
  handOut : ∀ query, P (s.handOut query (s.callerOf r) chance now).2
  checkSubmission : ∀ body, P (s.checkSubmission body (s.callerOf r) now).2
  changePolicy : ∀ body, P (s.changePolicy body).2
  promote : ∀ request, P (s.promote request now.clock).2
  refresh : ∀ siteKey, P (s.refresh siteKey now).2

/-- The service has these settings, this key and the sites of the settings. -/
structure Serves (s : Server) (settings : Settings) (key : PuzzleKey) : Prop where
  settings_eq : s.settings = settings
  key_eq : s.key = key
  sites : s.sites.Follows settings.sites

variable {s : Server} {settings : Settings} {key : PuzzleKey}

/-! ## Whatever a request does -/

section Kept

variable {P : Server → Prop} {r : Http.Request} {chance : Chance} {now : Moment}

theorem keep_withBody {α : Type} (h : P s) (codec : Codec α) (r : Http.Request)
    {answer : α → Answer × Server} (hanswer : ∀ a, P (answer a).2) :
    P (s.withBody codec r answer).2 := by
  unfold Server.withBody
  split
  · exact hanswer _
  · exact h

theorem Kept.get (h : s.Kept P r chance now) (route : Route) :
    P (s.get r chance now route).2 := by
  cases route with
  | puzzle =>
    simp only [Server.get]
    split
    · exact h.handOut _
    · exact h.self
  | _ =>
    simp only [Server.get]
    exact h.self

theorem Kept.post (h : s.Kept P r chance now) (route : Route) : P (s.post r now route).2 := by
  cases route with
  | verify =>
    simp only [Server.post]
    exact h.checkSubmission _
  | rateLimits =>
    simp only [Server.post]
    exact keep_withBody h.self _ _ h.changePolicy
  | promote =>
    simp only [Server.post]
    exact keep_withBody h.self _ _ h.promote
  | refresh segment =>
    simp only [Server.post]
    split
    · exact h.refresh _
    · exact h.self
  | _ =>
    simp only [Server.post]
    exact h.self

theorem Kept.dispatch (h : s.Kept P r chance now) (route : Route) :
    P (s.dispatch r chance now route).2 := by
  simp only [Server.dispatch]
  split
  · split
    · exact h.get _
    · exact h.self
  · split
    · exact h.get _
    · exact h.self
  · split
    · exact h.post _
    · exact h.self
  · exact h.self
  · exact h.self

theorem Kept.handle (h : s.Kept P r chance now) : P (s.handle r chance now).2 := by
  unfold Server.handle
  split
  · exact h.self
  · exact h.dispatch _

end Kept

/-! ## Requests -/

theorem Serves.admitCaller (h : s.Serves settings key) (caller : Caller) (now : Instant) :
    (s.admitCaller caller now).2.Serves settings key := by
  simp only [Server.admitCaller]
  split
  · exact ⟨h.settings_eq, h.key_eq, h.sites⟩
  · exact ⟨h.settings_eq, h.key_eq, h.sites⟩

theorem Serves.issueFor (h : s.Serves settings key) (site : Site) (floor : Option Tier)
    (caller : Caller) (chance : Chance) (now : Moment) :
    (s.issueFor site floor caller chance now).2.Serves settings key := by
  simp only [Server.issueFor]
  split
  · exact ⟨h.settings_eq, h.key_eq, h.sites⟩
  · exact ⟨h.settings_eq, h.key_eq, h.sites⟩

theorem Serves.handOut (h : s.Serves settings key) (query : PuzzleQuery) (caller : Caller)
    (chance : Chance) (now : Moment) :
    (s.handOut query caller chance now).2.Serves settings key := by
  have hadmit := h.admitCaller caller now.clock
  unfold Server.handOut
  cases hs : s.admitCaller caller now.clock with
  | mk admission s' =>
    rw [hs] at hadmit
    cases admission with
    | error fault => exact hadmit
    | ok _ =>
      dsimp only
      split
      · exact hadmit
      · exact hadmit.issueFor _ _ _ _ _

/-- Verifications count outcomes, and leave the key as it is. -/
theorem key_verify {σ : Type} (v : Verifier) (tracker : Tracker σ) (store : σ)
    (submission : Submission) (resource : Resource) (now : Timestamp) :
    (v.verify tracker store submission resource now).2.1.key = v.key := by
  unfold Verifier.verify
  split
  · rfl
  · split
    · rfl
    · rfl

theorem key_verifyWithin {σ : Type} (v : Verifier) (budget : Duration) (tracker : Tracker σ)
    (store : σ) (submission : Submission) (resource : Resource) (now : Timestamp)
    (trip : Duration) :
    (v.verifyWithin budget tracker store submission resource now trip).2.1.key = v.key := by
  simp only [Verifier.verifyWithin]
  split
  · rfl
  · split
    · rfl
    · exact key_verify v tracker store submission resource now

theorem Serves.with_verifier (h : s.Serves settings key) {verifier : Verifier}
    (hkey : verifier.key = key) (ledger : Option ReplayLedger) (store : Store) :
    { s with verifier, ledger, store }.Serves settings key :=
  ⟨h.settings_eq, hkey, h.sites⟩

theorem Serves.verify (h : s.Serves settings key) (siteKey : String) (submission : Submission)
    (now : Moment) : (s.verify siteKey submission now).2.Serves settings key := by
  unfold Server.verify
  dsimp only
  split
  · exact h.with_verifier ((key_verifyWithin _ _ _ _ _ _ _ _).trans h.key_eq) _ _
  · exact h.with_verifier ((key_verifyWithin _ _ _ _ _ _ _ _).trans h.key_eq) _ _

theorem Serves.judge (h : s.Serves settings key) (body : Except Http.BodyFault VerifyRequest)
    (now : Moment) : (s.judge body now).2.Serves settings key := by
  unfold Server.judge
  split
  · exact ⟨h.settings_eq, h.key_eq, h.sites⟩
  · split
    · exact ⟨h.settings_eq, h.key_eq, h.sites⟩
    · exact h.verify _ _ _

theorem Serves.checkSubmission (h : s.Serves settings key)
    (body : Except Http.BodyFault VerifyRequest) (caller : Caller) (now : Moment) :
    (s.checkSubmission body caller now).2.Serves settings key := by
  have hadmit := h.admitCaller caller now.clock
  unfold Server.checkSubmission
  cases hs : s.admitCaller caller now.clock with
  | mk admission s' =>
    rw [hs] at hadmit
    cases admission with
    | error fault => exact hadmit
    | ok _ =>
      have hjudge := hadmit.judge body now
      dsimp only
      split
      all_goals
        next hs' =>
          rw [hs'] at hjudge
          exact hjudge

theorem Serves.changePolicy (h : s.Serves settings key) (body : PolicyBody) :
    (s.changePolicy body).2.Serves settings key := by
  unfold Server.changePolicy
  split
  · exact h
  · exact ⟨h.settings_eq, h.key_eq, h.sites⟩

theorem Serves.promote (h : s.Serves settings key) (request : PromoteRequest) (now : Instant) :
    (s.promote request now).2.Serves settings key := by
  unfold Server.promote
  split
  · exact h
  · exact ⟨h.settings_eq, h.key_eq, h.sites⟩

theorem Serves.put_refresh (h : s.Serves settings key) {siteKey : String} {site : Site}
    (hsite : s.sites.get? siteKey = some site) (sample : Except Failure LoadSample)
    (now : Instant) :
    { s with sites := s.sites.put (site.refresh sample now).2 }.Serves settings key :=
  ⟨h.settings_eq, h.key_eq, h.sites.put_refresh hsite sample now⟩

theorem Serves.refresh (h : s.Serves settings key) (siteKey : String) (now : Moment) :
    (s.refresh siteKey now).2.Serves settings key := by
  unfold Server.refresh
  split
  · exact h
  · next site hsite =>
    have hput := h.put_refresh hsite (LoadSeries.sample s.store siteKey s.window now) now.clock
    dsimp only
    split
    · exact hput
    · exact hput

theorem Serves.handle (h : s.Serves settings key) (r : Http.Request) (chance : Chance)
    (now : Moment) : (s.handle r chance now).2.Serves settings key :=
  Kept.handle (P := fun s => s.Serves settings key)
    { self := h
      handOut := fun query => h.handOut query _ chance now
      checkSubmission := fun body => h.checkSubmission body _ now
      changePolicy := fun body => h.changePolicy body
      promote := fun request => h.promote request now.clock
      refresh := fun siteKey => h.refresh siteKey now }

/-! ## Runs -/

theorem run_append (s : Server) (before after : List (Event × Moment)) :
    s.run (before ++ after) = (s.run before).run after :=
  List.foldl_append

theorem run_concat (s : Server) (events : List (Event × Moment)) (e : Event × Moment) :
    s.run (events ++ [e]) = (s.run events).step e :=
  run_append s events [e]

theorem Serves.step (h : s.Serves settings key) (e : Event × Moment) :
    (s.step e).Serves settings key := by
  obtain ⟨event, now⟩ := e
  cases event with
  | request r chance => exact h.handle r chance now
  | refresh siteKey sample =>
    unfold Server.step
    dsimp only
    split
    · next hsite => exact h.put_refresh hsite sample now.clock
    · exact h
  | sweep => exact ⟨h.settings_eq, h.key_eq, h.sites⟩
  | share store => exact ⟨h.settings_eq, h.key_eq, h.sites⟩

theorem Serves.run (h : s.Serves settings key) (events : List (Event × Moment)) :
    (s.run events).Serves settings key := by
  induction events generalizing s with
  | nil => exact h
  | cons e rest ih => exact ih (h.step e)

/-- A service starts without any callers, verdicts or presentations. -/
theorem exists_start {fresh : PuzzleKey} {place : String → Nat} {store : Store} {now : Instant}
    (h : start settings fresh place store now = .ok (.ok s)) : ∃ key rates networks, s =
      { settings
        limiter := .new rates place
        sites := sitesOf settings now
        verifier := .new key
        ledger := if settings.replayBackend = .memory then some (.new ledgerCapacity) else none
        networks
        store
        startedAt := now } := by
  simp only [start] at h
  split at h
  · cases h
  · next key rates _ =>
    obtain ⟨limiter, hlimiter, h⟩ := bind_eq_ok_iff.mp h
    obtain ⟨networks, -, h⟩ := bind_eq_ok_iff.mp (Except.ok.inj h)
    unfold Rate.Limiter.create at hlimiter
    split at hlimiter
    · obtain rfl := Except.ok.inj hlimiter
      exact ⟨key, rates, networks, (Except.ok.inj h).symm⟩
    · cases hlimiter

/-- A service starts with the sites of its settings, all at their low level. -/
theorem start_eq_ok {fresh : PuzzleKey} {place : String → Nat} {store : Store} {now : Instant}
    (h : start settings fresh place store now = .ok (.ok s)) :
    s.settings = settings ∧ s.sites = sitesOf settings now := by
  obtain ⟨key, rates, networks, rfl⟩ := exists_start h
  exact ⟨rfl, rfl⟩

theorem serves_start {fresh : PuzzleKey} {place : String → Nat} {store : Store} {now : Instant}
    (hvalid : settings.validate = .ok ())
    (h : start settings fresh place store now = .ok (.ok s)) : s.Serves settings s.key := by
  obtain ⟨hsettings, hsites⟩ := start_eq_ok h
  obtain ⟨hnodup, hprofiles⟩ := Settings.sites_of_validate hvalid
  exact ⟨hsettings, rfl, hsites ▸ SiteRegistry.follows_ofSettings hnodup hprofiles _ _ _⟩

/-! ## Services with default settings -/

/-- The settings of a service with some sites and counters in memory. -/
def exSettings (sites : List SiteSettings) : Settings :=
  { sites, replayBackend := .memory }

def exRates : Rate.LimiterSettings :=
  ⟨1000, 16, .ofSeconds 600, ⟨⟨10, .ofSeconds 2⟩, ⟨20, .ofSeconds 1⟩⟩⟩

def exServer (sites : List SiteSettings) (key : PuzzleKey) : Server where
  settings := exSettings sites
  limiter := .new exRates fun _ => 0
  sites := sitesOf (exSettings sites) 0
  verifier := .new key
  ledger := some (.new ledgerCapacity)
  networks := []
  store := .empty
  startedAt := 0

theorem start_exSettings (sites : List SiteSettings) (key : PuzzleKey) :
    start (exSettings sites) key (fun _ => 0) .empty 0 = .ok (.ok (exServer sites key)) := by
  have hrates : (exSettings sites).rates.limiter = .ok exRates :=
    toOption_eq_some_iff.mp
      (by decide +kernel : ({} : RateSettings).limiter.toOption = some exRates)
  unfold start
  rw [hrates]
  rfl

end Tollgate.Server
