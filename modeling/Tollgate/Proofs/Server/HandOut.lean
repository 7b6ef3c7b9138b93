import Tollgate.Proofs.Server.Runs
import Tollgate.Proofs.Verify.Completeness

/-!
# Which puzzles are handed out

Who asks for a puzzle of a site is answered with one if it is admitted, the site
is configured and the clock shows a time that tokens can tell. The puzzle is one
that the service itself reads and authenticates, whatever the service has been
through before.

Results:
1. `ApiFault.status_response`: no refusal looks like a success.
2. `handOut_eq_ok_iff`: when a puzzle is handed out, and which response carries it.
3. `carries_tokenResponse`: the response carries the puzzle that was issued.
4. `handle_run_puzzle`: which puzzles are handed out after any run, and when.
-/

namespace Tollgate

/-! ## Refusals -/

namespace ApiFault

variable {fault : ApiFault} {response : Http.Response}

theorem status_ne (fault : ApiFault) : fault.status ≠ 200 := by
  cases fault with
  | rateLimited wait => exact Nat.ne_of_beq_eq_false rfl
  | unknownSite siteKey => exact Nat.ne_of_beq_eq_false rfl
  | failed cause =>
    rw [status]
    cases cause.kind <;> decide

/-- Refusals differ in their headers, and say in JSON what the matter is. -/
theorem exists_headers (h : fault.response = .ok response) :
    ∃ headers, response = ⟨fault.status, headers, .json (body fault.message)⟩ := by
  unfold ApiFault.response at h
  dsimp only at h
  split at h
  · obtain ⟨seconds, -, h⟩ := bind_eq_ok_iff.mp h
    exact ⟨_, (Except.ok.inj h).symm⟩
  · exact ⟨_, (Except.ok.inj h).symm⟩

theorem status_eq (h : fault.response = .ok response) : response.status = fault.status := by
  obtain ⟨headers, rfl⟩ := exists_headers h
  rfl

theorem status_response (h : fault.response = .ok response) : response.status ≠ 200 :=
  status_eq h ▸ fault.status_ne

end ApiFault

namespace Server

variable {s : Server} {settings : Settings} {key : PuzzleKey} {caller : Caller}
  {query : PuzzleQuery} {chance : Chance} {now : Moment} {response : Http.Response} {p : Puzzle}
  {site : Site} {c : SiteSettings} {r : Http.Request}

/-! ## One request -/

theorem admitCaller_keeps (s : Server) (caller : Caller) (now : Instant) :
    (s.admitCaller caller now).2.sites = s.sites ∧ (s.admitCaller caller now).2.key = s.key := by
  simp only [admitCaller]
  split
  · exact ⟨rfl, rfl⟩
  · exact ⟨rfl, rfl⟩

theorem issueFor_eq_ok_iff {floor : Option Tier} :
    (s.issueFor site floor caller chance now).1 = .ok response ∧ response.status = 200 ↔
      ∃ p, Issue.build (site.params (floor.map site.profile.level)) chance
          (Text.octets caller.limiterKey) now.wall = .ok p ∧
        tokenResponse p (Token.encode p s.key) = response := by
  have hissue : (s.issueFor site floor caller chance now).1 =
      match Issue.build (site.params (floor.map site.profile.level)) chance
        (Text.octets caller.limiterKey) now.wall with
      | .ok p => .ok (tokenResponse p (Token.encode p s.key))
      | .error fault => (ApiFault.failed fault.failure).response := by
    simp only [issueFor, Issue.issue]
    cases Issue.build (site.params (floor.map site.profile.level)) chance
        (Text.octets caller.limiterKey) now.wall with
    | error fault => rfl
    | ok p => rfl
  rw [hissue]
  cases Issue.build (site.params (floor.map site.profile.level)) chance
      (Text.octets caller.limiterKey) now.wall with
  | error fault =>
    constructor
    · rintro ⟨hresponse, hstatus⟩
      exact absurd hstatus (ApiFault.status_response hresponse)
    · rintro ⟨p, hbuild, -⟩
      cases hbuild
  | ok p =>
    constructor
    · rintro ⟨hresponse, -⟩
      exact ⟨p, rfl, Except.ok.inj hresponse⟩
    · rintro ⟨p', hbuild, rfl⟩
      obtain rfl := Except.ok.inj hbuild
      exact ⟨rfl, rfl⟩

theorem handOut_eq_ok_iff :
    (s.handOut query caller chance now).1 = .ok response ∧ response.status = 200 ↔
      (s.admitCaller caller now.clock).1 = .ok () ∧
        ∃ site p, s.sites.get? query.siteKey = some site ∧
          Issue.build (site.params (query.floor.map site.profile.level)) chance
            (Text.octets caller.limiterKey) now.wall = .ok p ∧
          tokenResponse p (Token.encode p s.key) = response := by
  obtain ⟨hsites, hkey⟩ := admitCaller_keeps s caller now.clock
  unfold handOut
  cases hs : s.admitCaller caller now.clock with
  | mk admission s' =>
    rw [hs] at hsites hkey
    cases admission with
    | error fault =>
      constructor
      · rintro ⟨hresponse, hstatus⟩
        exact absurd hstatus (ApiFault.status_response hresponse)
      · rintro ⟨hadmitted, -⟩
        cases hadmitted
    | ok _ =>
      dsimp only at hsites hkey ⊢
      rw [hsites]
      cases hsite : s.sites.get? query.siteKey with
      | none =>
        dsimp only
        constructor
        · rintro ⟨hresponse, hstatus⟩
          exact absurd hstatus (ApiFault.status_response hresponse)
        · rintro ⟨-, site, p, hsome, -⟩
          cases hsome
      | some site =>
        dsimp only
        rw [issueFor_eq_ok_iff, hkey]
        constructor
        · rintro ⟨p, hbuild, hresponse⟩
          exact ⟨rfl, site, p, rfl, hbuild, hresponse⟩
        · rintro ⟨-, site', p, hsame, hbuild, hresponse⟩
          obtain rfl := Option.some.inj hsame
          exact ⟨p, hbuild, hresponse⟩

/-- A request for a puzzle is answered for pages of every origin. -/
theorem handle_puzzle (hmethod : r.method = .get) (hroute : Route.ofRequest? r = some .puzzle) :
    (s.handle r chance now).1 = (s.get r chance now .puzzle).1.map (·.forEveryOrigin) := by
  unfold handle dispatch
  simp only [hroute, hmethod]
  rfl

theorem handle_puzzle_eq_ok_iff (hmethod : r.method = .get)
    (hroute : Route.ofRequest? r = some .puzzle) :
    (s.handle r chance now).1 = .ok response ∧ response.status = 200 ↔
      ∃ query handed, PuzzleQuery.ofQuery? r.query = some query ∧
        ((s.handOut query (s.callerOf r) chance now).1 = .ok handed ∧ handed.status = 200) ∧
        handed.forEveryOrigin = response := by
  rw [handle_puzzle hmethod hroute, get]
  cases hquery : PuzzleQuery.ofQuery? r.query with
  | none =>
    constructor
    · rintro ⟨hresponse, hstatus⟩
      obtain rfl := Except.ok.inj hresponse
      cases hstatus
    · rintro ⟨query, handed, hsome, -⟩
      cases hsome
  | some query =>
    dsimp only
    cases hanswer : (s.handOut query (s.callerOf r) chance now).1 with
    | error crash =>
      constructor
      · rintro ⟨hresponse, -⟩
        cases hresponse
      · rintro ⟨query', handed, hsame, ⟨hhanded, -⟩, -⟩
        obtain rfl := Option.some.inj hsame
        rw [hanswer] at hhanded
        cases hhanded
    | ok handed =>
      constructor
      · rintro ⟨hresponse, hstatus⟩
        obtain rfl := Except.ok.inj hresponse
        exact ⟨query, handed, rfl, ⟨hanswer, hstatus⟩, rfl⟩
      · rintro ⟨query', handed', hsame, ⟨hhanded, hstatus⟩, rfl⟩
        obtain rfl := Option.some.inj hsame
        obtain rfl := Except.ok.inj (hanswer.symm.trans hhanded)
        exact ⟨rfl, hstatus⟩

/-! ## Puzzles -/

/-- The response carries the puzzle, authenticated under a key, and tells its
difficulty. -/
structure Carries (response : Http.Response) (key : PuzzleKey) (p : Puzzle) : Prop where
  token : ∃ token body tag, response.body = .text token ∧
    Token.decode token = .ok ⟨p, body, tag⟩ ∧ key.verify body.toList tag.toList = true
  header : response.headers.first? difficultyHeader = some (toString p.difficulty.bits.toNat)

theorem first?_tokenResponse (p : Puzzle) (token : String) :
    (tokenResponse p token).forEveryOrigin.headers.first? difficultyHeader =
      some (toString p.difficulty.bits.toNat) := by
  have htype : Http.Headers.sameName "content-type" difficultyHeader = false := by decide +kernel
  have hcache : Http.Headers.sameName "cache-control" difficultyHeader = false := by decide +kernel
  have hself : Http.Headers.sameName difficultyHeader difficultyHeader = true :=
    beq_self_eq_true _
  simp [Http.Headers.first?, Http.Response.forEveryOrigin, Http.Response.withHeader, tokenResponse,
    htype, hcache, hself]

/-- The service reads its own tokens. -/
theorem carries_tokenResponse (h : p.Sound) :
    Carries (tokenResponse p (Token.encode p key)).forEveryOrigin key p :=
  ⟨⟨_, _, _, rfl, Token.decode_encode key h, beq_self_eq_true _⟩, first?_tokenResponse _ _⟩

/-- The puzzle is one that a site hands out at a time, with a level in force and a
tier that is asked for. -/
structure HandsOut (c : SiteSettings) (level : Level) (floor : Option Tier) (now : Timestamp)
    (p : Puzzle) : Prop where
  owner : p.owner = c.owner
  solutions : p.solutions = c.solutions
  difficulty : p.difficulty.bits.toNat =
    floor.elim level.bits.toNat fun tier => max level.bits.toNat (c.profile.level tier).bits.toNat
  spans : c.profile.Spans p.difficulty
  issuedAt : p.issuedAt.toNat = now.seconds
  expiresAt : p.expiresAt.toNat = p.issuedAt.toNat + c.validitySeconds.toNat

theorem seconds_validity (h : c.profile.Consistent) :
    max 1 c.profile.validity.seconds = c.validitySeconds.toNat := by
  have hseconds : c.profile.validity.seconds = c.validitySeconds.toNat :=
    Nat.mul_div_cancel _ (by decide)
  have hpos : c.validitySeconds.toNat ≠ 0 := fun heq =>
    h.validitySeconds_ne_zero (UInt64.toNat_inj.mp heq)
  rw [hseconds]
  omega

/-- Of what is checked before a puzzle is issued, only the clock can fail. -/
theorem build_params_iff (h : site.Follows c) (hprofile : c.profile.Consistent)
    {floor : Option Level} {extra : List UInt8} {now : Timestamp} :
    Issue.build (site.params floor) chance extra now = .ok p ↔
      (0 ≤ now.seconds ∧ now.seconds + c.validitySeconds.toNat ≤ 0xffffffffffffffff) ∧
        Issue.issued (site.params floor) chance extra now = p := by
  have hsolutions : (site.params floor).solutions ≠ 0 :=
    show site.profile.solutions ≠ 0 from h.profile ▸ hprofile.solutions_ne_zero
  have hvalidity : (site.params floor).validity = c.profile.validity :=
    congrArg Profile.validity h.profile
  have hnanos : c.profile.validity.nanos ≠ 0 := fun heq =>
    have hseconds : c.validitySeconds.toNat = (0 : UInt64).toNat :=
      Nat.eq_of_mul_eq_mul_right (by decide : 0 < 1000000000) (heq.trans rfl)
    hprofile.validitySeconds_ne_zero (UInt64.toNat_inj.mp hseconds)
  rw [Issue.build_eq_ok_iff, hvalidity, seconds_validity hprofile]
  constructor
  · rintro ⟨-, -, hnow, hexpiry, hp⟩
    exact ⟨⟨hnow, by omega⟩, hp⟩
  · rintro ⟨⟨hnow, hexpiry⟩, hp⟩
    exact ⟨hsolutions, hnanos, hnow, by omega, hp⟩

theorem handsOut_of_build (h : site.Follows c) (hprofile : c.profile.Consistent)
    {floor : Option Tier} {extra : List UInt8} {now : Timestamp}
    (hbuild : Issue.build (site.params (floor.map site.profile.level)) chance extra now = .ok p) :
    HandsOut c site.controller.level floor now p := by
  obtain ⟨⟨hnow, hexpiry⟩, rfl⟩ := (build_params_iff h hprofile).mp hbuild
  have hvalidity : max 1 (site.params (floor.map site.profile.level)).validity.seconds =
      c.validitySeconds.toNat :=
    (congrArg (fun profile : Profile => max 1 profile.validity.seconds) h.profile).trans
      (seconds_validity hprofile)
  obtain ⟨hissued, hexpires⟩ :=
    @Issue.window_issued (site.params (floor.map site.profile.level)) chance extra now (by omega)
  refine ⟨h.owner, congrArg Profile.solutions h.profile, ?_, ?_, ?_, ?_⟩
  · cases floor with
    | none => rfl
    | some tier => exact h.profile ▸ Level.toNat_sup _ _
  · cases floor with
    | none => exact h.stays.level
    | some tier => exact h.stays.level.sup (h.profile ▸ hprofile.spans_level tier)
  · omega
  · omega

/-! ## Runs -/

/-- Whatever has happened before, a request for a puzzle that is answered with
success is answered with one of a configured site; and whoever is admitted gets
one, also while the store that counts the load is down. -/
theorem handle_run_puzzle {fresh : PuzzleKey} {place : String → Nat} {store : Store}
    {started : Instant} (hvalid : settings.validate = .ok ())
    (hstart : start settings fresh place store started = .ok (.ok s))
    (events : List (Event × Moment)) (hmethod : r.method = .get)
    (hroute : Route.ofRequest? r = some .puzzle) (chance : Chance) (now : Moment) :
    (∀ response, ((s.run events).handle r chance now).1 = .ok response → response.status = 200 →
      ∃ query c site p, PuzzleQuery.ofQuery? r.query = some query ∧
        c ∈ settings.sites ∧ c.siteKey = query.siteKey ∧
        (s.run events).sites.get? query.siteKey = some site ∧
        Carries response s.key p ∧
        HandsOut c site.controller.level query.floor now.wall p) ∧
    (∀ query, PuzzleQuery.ofQuery? r.query = some query →
      ∀ c ∈ settings.sites, c.siteKey = query.siteKey →
        ((s.run events).admitCaller ((s.run events).callerOf r) now.clock).1 = .ok () →
        0 ≤ now.wall.seconds →
        now.wall.seconds + c.validitySeconds.toNat ≤ 0xffffffffffffffff →
        ∃ response, ((s.run events).handle r chance now).1 = .ok response ∧
          response.status = 200) := by
  have hserves := (serves_start hvalid hstart).run events
  have hprofiles := (Settings.sites_of_validate hvalid).2
  constructor
  · intro response hresponse hstatus
    obtain ⟨query, handed, hquery, hhanded, rfl⟩ :=
      (handle_puzzle_eq_ok_iff hmethod hroute).mp ⟨hresponse, hstatus⟩
    obtain ⟨-, site, p, hsite, hbuild, rfl⟩ := handOut_eq_ok_iff.mp hhanded
    obtain ⟨c, hc, hkey, hfollows⟩ := hserves.sites.of_get? hsite
    have hhands := handsOut_of_build hfollows (hprofiles c hc) hbuild
    refine ⟨query, c, site, p, hquery, hc, hkey, hsite, ?_, hhands⟩
    rw [hserves.key_eq]
    exact carries_tokenResponse (Issue.sound_of_build hbuild
      ((Issue.build_eq_ok hbuild).2.1 ▸ hhands.spans.le_highest (hprofiles c hc)))
  · intro query hquery c hc hkey hadmitted hnow hexpiry
    obtain ⟨site, hsite, hfollows⟩ := hserves.sites.exists_site c hc
    have hbuild : ∃ p, Issue.build (site.params (query.floor.map site.profile.level)) chance
        (Text.octets ((s.run events).callerOf r).limiterKey) now.wall = .ok p :=
      ⟨_, (build_params_iff hfollows (hprofiles c hc)).mpr ⟨⟨hnow, hexpiry⟩, rfl⟩⟩
    obtain ⟨p, hbuild⟩ := hbuild
    have hhanded := handOut_eq_ok_iff.mpr ⟨hadmitted, site, p, hkey ▸ hsite, hbuild, rfl⟩
    exact ⟨_, (handle_puzzle_eq_ok_iff hmethod hroute).mpr ⟨query, _, hquery, hhanded, rfl⟩⟩

/-- A site whose level follows the load at once. -/
def exShop : SiteSettings :=
  { siteKey := "shop", owner := .replicate 16 0xab, growth := .fast }

def exBlog : SiteSettings :=
  { siteKey := "blog", owner := .replicate 16 0xcd, low := 0, medium := 2, high := 4,
    solutions := 1, validitySeconds := 60 }

/-- The load on the shop rises, a later sample fails, the store goes down, and the
wall clock is set back. -/
def exEvents : List (Event × Moment) := [
  (.refresh "shop" (.ok (.perMinute [60000, 90000])), ⟨60000000000, .ofSeconds 1060⟩),
  (.refresh "shop" (.error ⟨.loadSource, "down"⟩), ⟨120000000000, .ofSeconds 1120⟩),
  (.share ⟨[], true, .zero⟩, ⟨130000000000, .ofSeconds 7⟩)]

def exVisited : Server :=
  (exServer [exShop, exBlog] Verifier.exVerifier.key).run exEvents

def exRequest : Http.Request :=
  ⟨.get, "/puzzle?sitekey=shop&difficulty=high", [], .v4 0x01020304, ""⟩

theorem handle_exVisited : ∃ response site p,
    (exVisited.handle exRequest Verifier.exChance ⟨140000000000, .ofSeconds 8⟩).1 = .ok response ∧
      response.status = 200 ∧ exVisited.sites.get? "shop" = some site ∧
      Carries response Verifier.exVerifier.key p ∧
      HandsOut exShop site.controller.level (some .high) (.ofSeconds 8) p := by
  have hvalid : (exSettings [exShop, exBlog]).validate = .ok () := rfl
  have hroute : Route.ofRequest? exRequest = some .puzzle := by decide
  have hquery : PuzzleQuery.ofQuery? exRequest.query = some ⟨"shop", some .high⟩ := by
    decide +kernel
  have hadmitted : (exVisited.admitCaller (exVisited.callerOf exRequest) 140000000000).1 =
      .ok () := toOption_eq_some_iff.mp (by decide +kernel)
  obtain ⟨hcontent, hanswered⟩ := handle_run_puzzle hvalid
    (start_exSettings [exShop, exBlog] Verifier.exVerifier.key) exEvents rfl hroute
    Verifier.exChance ⟨140000000000, .ofSeconds 8⟩
  obtain ⟨response, hresponse, hstatus⟩ :=
    hanswered _ hquery exShop List.mem_cons_self rfl hadmitted (by decide) (by decide)
  obtain ⟨query, c, site, p, hsame, hc, hkey, hsite, hcarries, hhands⟩ :=
    hcontent response hresponse hstatus
  obtain rfl := Option.some.inj (hquery.symm.trans hsame)
  have hshop : c = exShop := by
    rcases List.mem_cons.mp hc with rfl | hc
    · rfl
    · obtain rfl := List.mem_singleton.mp hc
      exact absurd hkey (by decide)
  exact ⟨response, site, p, hresponse, hstatus, hsite, hcarries, hshop ▸ hhands⟩

end Server

end Tollgate
