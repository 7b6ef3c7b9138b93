import Tollgate.Proofs.Rate.Bound
import Tollgate.Proofs.Rate.Waiting
import Tollgate.Proofs.Server.Limiting

/-!
# What a denied caller is told

A denied caller is told in whole seconds when to come back. The seconds cover the wait,
and are the fewest that do. They are counted in 64 bits, and these are enough for every
wait that ends: a token takes no longer than `2 ^ 64 - 1` nanoseconds. The wait that
never ends is the longest length of time, which has a part of a second beyond its
`2 ^ 64 - 1` seconds, and cannot be rounded up. It is the wait of every caller whose
bucket has no room for a token, and a request of such a caller breaks off.

Results:
1. `ApiFault.retrySeconds_eq_ok_iff`: what seconds are told, and for which waits.
2. `retryAfter_of_capacity`, `nanos_retryAfter_le`: how long a wait can be.
3. `limits_admitAt`: a bucket has the limits in force right after a request.
4. `denied_told`: what is answered to a denied caller.
5. `exBarred_overflows`: accepted settings under which nobody is answered.
-/

namespace Tollgate

/-! ## Definitions -/

/-- A client that comes back after so many seconds is not early, and less than a second
late unless it is told to wait for one. -/
structure Covers (seconds : Nat) (wait : Duration) : Prop where
  one_le : 1 ≤ seconds
  nanos_le : wait.nanos ≤ seconds * 1000000000
  lt_or_eq_one : seconds * 1000000000 < wait.nanos + 1000000000 ∨ seconds = 1

namespace Server

/-- How long the caller of a request has to wait at an instant, once the request has
been decided about. -/
def waitOf (s : Server) (r : Http.Request) (now : Moment) (t : Instant) : Duration :=
  (s.afterAdmission r now).limiter.retryAfter (s.callerOf r).limiterKey t

/-- The limits of the caller of a request, once the request has been decided about. -/
def limitsOf (s : Server) (r : Http.Request) (now : Moment) : Rate.Limits :=
  (s.afterAdmission r now).limiter.limitsOf (s.callerOf r).limiterKey

/-- The answer to a request that is denied, if its caller has to wait that long. -/
def denial (r : Http.Request) (wait : Duration) : Answer :=
  (ApiFault.rateLimited wait).response.map r.dress

/-- The header that tells a client when to come back. -/
def retryHeader : String := "retry-after"

/-- The response that tells a client to come back after so many seconds. -/
def tooMany (seconds : Nat) : Http.Response :=
  (Http.Response.json 429 (ApiFault.body "rate limit exceeded")).withHeader retryHeader
    (toString seconds)

/-- The response tells a client to wait, and for how long. -/
structure Tells (response : Http.Response) (wait : Duration) : Prop where
  status_eq : response.status = 429
  header : ∃ seconds, response.headers.first? retryHeader = some (toString seconds) ∧
    Covers seconds wait

end Server

/-! ## Seconds -/

theorem exists_covers (wait : Duration) : ∃ seconds, Covers seconds wait :=
  ⟨max ((wait.nanos + 999999999) / 1000000000) 1, by omega, by omega, by omega⟩

namespace ApiFault

variable {wait : Duration} {seconds : Nat}

/-- The seconds that are told cover the wait and are the fewest that do; they are told
unless they are too many. -/
theorem retrySeconds_eq_ok_iff :
    retrySeconds wait = .ok seconds ↔
      wait.nanos ≤ 0xffffffffffffffff * 1000000000 ∧ Covers seconds wait := by
  have hceil : wait.seconds + (if wait.subsecNanos = 0 then 0 else 1) =
      (wait.nanos + 999999999) / 1000000000 := by
    unfold Duration.seconds Duration.subsecNanos
    split
    · omega
    · omega
  simp only [retrySeconds, hceil]
  constructor
  · intro h
    split at h
    · obtain rfl := Except.ok.inj h
      exact ⟨by omega, by omega, by omega, by omega⟩
    · cases h
  · rintro ⟨hle, hone, hnanos, hfew⟩
    rw [if_pos (by omega)]
    exact congrArg Except.ok (by omega)

end ApiFault

namespace Server

/-- The header is told whether or not the body is asked for. -/
theorem first?_tooMany (r : Http.Request) (seconds : Nat) :
    (r.dress (tooMany seconds)).headers.first? retryHeader = some (toString seconds) := by
  have htype : Http.Headers.sameName "content-type" retryHeader = false := by decide +kernel
  have hself : Http.Headers.sameName retryHeader retryHeader = true := beq_self_eq_true _
  have hheaders : (r.dress (tooMany seconds)).headers = [("content-type", "application/json"),
      (retryHeader, toString seconds), ("access-control-allow-origin", "*")] := by
    unfold Http.Request.dress
    split
    · rfl
    · rfl
  simp [Http.Headers.first?, hheaders, htype, hself]

/-- Every wait but the longest ones is told. -/
theorem exists_denial {wait : Duration} (h : wait.nanos ≤ 0xffffffffffffffff * 1000000000)
    (r : Http.Request) : ∃ response, denial r wait = .ok response ∧ Tells response wait := by
  obtain ⟨seconds, hcovers⟩ := exists_covers wait
  have hseconds := ApiFault.retrySeconds_eq_ok_iff.mpr ⟨h, hcovers⟩
  refine ⟨r.dress (tooMany seconds), ?_, status_dress r _, seconds, first?_tooMany r seconds,
    hcovers⟩
  simp only [denial, ApiFault.response, hseconds]
  rfl

theorem denial_never (r : Http.Request) : denial r .never = .error .sumOverflow :=
  rfl

end Server

/-! ## Waits -/

namespace Rate.Limiter

variable {K : Type} [DecidableEq K] {l : Limiter K} {k : K} {e : Entry}

theorem retryAfter_of_capacity (he : l.find? k = some e) (h : e.bucket.limits.capacity = 0)
    (t : Instant) : l.retryAfter k t = .never := by
  rw [retryAfter_of_find? he]
  exact Bucket.timeUntilAvailable_of_capacity h t

/-- A wait that ends takes no longer than one token. -/
theorem nanos_retryAfter_le (he : l.find? k = some e) (h : e.bucket.limits.capacity ≠ 0)
    (t : Instant) : (l.retryAfter k t).nanos ≤ creditLimit := by
  rw [retryAfter_of_find? he, Bucket.nanos_timeUntilAvailable h]
  exact Nat.le_trans (Nat.sub_le _ _) e.bucket.limits.unit_le

/-- A request leaves its caller a bucket with the limits in force. -/
theorem limits_admitAt (h : l.Sound) (k : K) (now : Instant) :
    ∃ e, (l.admitAt k now).2.find? k = some e ∧
      e.bucket.limits = (l.admitAt k now).2.limitsOf k := by
  have hfind := find?_request_self h k now
  have hedition : (l.perform (.request k now)).2.edition = l.edition :=
    edition_perform (rfl : (Action.request k now).relimits k = false)
  simp only [perform] at hfind hedition
  have hcurrent : ((l.deciding k now).consume now).generation =
      (l.admitAt k now).2.edition.generation := by
    rw [hedition]
    exact Entry.generation_sync _ _ _
  refine ⟨_, hfind, ?_⟩
  rw [((h.admitAt k now).of_find? hfind).limits_eq hcurrent, limitsOf, tierOf, hfind]
  rfl

end Rate.Limiter

/-! ## Denials -/

namespace Server

variable {s : Server} {r : Http.Request} {d : Demand} {chance : Chance} {now : Moment}

theorem sound_limiterFor (h : s.limiter.Sound) (caller : Caller) (now : Instant) :
    (s.limiterFor caller now).Sound := by
  unfold limiterFor
  split
  · split
    · exact h
    · exact h.setTier _ _ _
  · exact h

theorem limiter_afterAdmission (s : Server) (r : Http.Request) (now : Moment) :
    (s.afterAdmission r now).limiter =
      ((s.limiterFor (s.callerOf r) now.clock).admitAt (s.callerOf r).limiterKey
        now.clock).2 := by
  rw [afterAdmission, ← limiter_admitCaller]

theorem admitCaller_of_denied (h : s.admits r now = false) :
    s.admitCaller (s.callerOf r) now.clock =
      (.error (.rateLimited (s.waitOf r now now.clock)), s.afterAdmission r now) := by
  rw [waitOf, limiter_afterAdmission]
  simp only [admits, admitCaller] at h
  simp only [afterAdmission, admitCaller]
  split at h
  · cases h
  · rfl

theorem handle_of_denied (hdemand : r.demand? = some d) (h : s.admits r now = false) :
    (s.handle r chance now).1 = denial r (s.waitOf r now now.clock) := by
  rw [denial, handle_of_demand s chance now hdemand, meet_of_denied (admitCaller_of_denied h)]

/-- A denied caller is answered by the wait that its bucket tells. If its limits leave
room for a token, it is told seconds that cover the wait, also where the clock is read
once more before the wait is looked up. If they leave none, the wait is the longest
length of time, and the request breaks off. -/
theorem denied_told (h : s.limiter.Reachable) (hdemand : r.demand? = some d)
    (hdenied : s.admits r now = false) (chance : Chance) :
    (s.handle r chance now).1 = denial r (s.waitOf r now now.clock) ∧
    ((s.limitsOf r now).capacity ≠ 0 → ∀ t, ∃ response,
      denial r (s.waitOf r now t) = .ok response ∧ Tells response (s.waitOf r now t)) ∧
    ((s.limitsOf r now).capacity = 0 → ∀ t,
      s.waitOf r now t = .never ∧ denial r (s.waitOf r now t) = .error .sumOverflow) := by
  -- The bucket that has denied the request is up to date: no policy is pending for it.
  have hsound := sound_limiterFor (Rate.Limiter.sound_of_reachable h) (s.callerOf r) now.clock
  obtain ⟨e, hfind, hlimits⟩ :=
    Rate.Limiter.limits_admitAt hsound (s.callerOf r).limiterKey now.clock
  rw [← limiter_afterAdmission] at hfind hlimits
  refine ⟨handle_of_denied hdemand hdenied, ?_, ?_⟩
  · intro hcapacity t
    have hshort := Rate.Limiter.nanos_retryAfter_le hfind (hlimits ▸ hcapacity) t
    exact exists_denial (Nat.le_trans hshort (by decide)) r
  · intro hcapacity t
    have hnever : s.waitOf r now t = .never :=
      Rate.Limiter.retryAfter_of_capacity hfind (hlimits ▸ hcapacity) t
    rw [hnever]
    exact ⟨rfl, denial_never r⟩

/-- The sender of the eleven forms comes again after nine nanoseconds, and has to wait
for its next token, almost two seconds. -/
theorem denied_exCounted :
    ∃ response, (exCounted.handle (exForm 0x01020304) Verifier.exChance
        ⟨9, .ofSeconds 1000⟩).1 = .ok response ∧
      response.status = 429 ∧ response.headers.first? retryHeader = some "2" := by
  have hreachable : exCounted.limiter.Reachable :=
    reachable_run (start_exSettings exApart Verifier.exVerifier.key) exVisits
  have hdenied : exCounted.admits (exForm 0x01020304) ⟨9, .ofSeconds 1000⟩ = false := by
    decide +kernel
  have hcapacity : (exCounted.limitsOf (exForm 0x01020304) ⟨9, .ofSeconds 1000⟩).capacity ≠ 0 := by
    decide +kernel
  have hwait : (exCounted.waitOf (exForm 0x01020304) ⟨9, .ofSeconds 1000⟩ 9).nanos =
      1999999991 := by
    decide +kernel
  obtain ⟨hanswer, htold, -⟩ :=
    denied_told hreachable (demand?_exForm 0x01020304) hdenied Verifier.exChance
  obtain ⟨response, hresponse, hstatus, seconds, hheader, -, hnanos, hfew⟩ := htold hcapacity 9
  have htwo : seconds = 2 := by omega
  subst htwo
  exact ⟨response, hanswer.trans hresponse, hstatus, hheader⟩

/-! ## Limits without room for a token -/

/-- Settings whose buckets hold nothing. -/
def exBarredSettings : Settings :=
  { exSettings exApart with rates := { defaultCapacity := 0 } }

def exBarredRates : Rate.LimiterSettings :=
  { exRates with policy := { exRates.policy with default := ⟨0, .ofSeconds 2⟩ } }

def exBarred : Server :=
  { exServer exApart Verifier.exVerifier.key with
    settings := exBarredSettings, limiter := .new exBarredRates fun _ => 0 }

theorem start_exBarred :
    start exBarredSettings Verifier.exVerifier.key (fun _ => 0) .empty 0 =
      .ok (.ok exBarred) := by
  have hrates : exBarredSettings.rates.limiter = .ok exBarredRates :=
    toOption_eq_some_iff.mp
      (by decide +kernel :
        ({ defaultCapacity := 0 } : RateSettings).limiter.toOption = some exBarredRates)
  unfold start
  rw [hrates]
  rfl

/-- The first request for a puzzle is denied, and its response would tell to wait for
`2 ^ 64` seconds. -/
theorem exBarred_overflows :
    exBarredSettings.validate = .ok () ∧
    start exBarredSettings Verifier.exVerifier.key (fun _ => 0) .empty 0 = .ok (.ok exBarred) ∧
    (exGet "/puzzle?sitekey=a").demand? = some (.puzzle ⟨"a", none⟩) ∧
    exBarred.admits (exGet "/puzzle?sitekey=a") ⟨0, .ofSeconds 1000⟩ = false ∧
    exBarred.waitOf (exGet "/puzzle?sitekey=a") ⟨0, .ofSeconds 1000⟩ 0 = .never ∧
    (∀ seconds, Covers seconds .never → seconds = 0x10000000000000000) ∧
    (exBarred.handle (exGet "/puzzle?sitekey=a") Verifier.exChance
      ⟨0, .ofSeconds 1000⟩).1 = .error .sumOverflow := by
  have hdenied : exBarred.admits (exGet "/puzzle?sitekey=a") ⟨0, .ofSeconds 1000⟩ = false := by
    decide +kernel
  have hwait : exBarred.waitOf (exGet "/puzzle?sitekey=a") ⟨0, .ofSeconds 1000⟩ 0 = .never := by
    decide +kernel
  have hanswer : (exBarred.handle (exGet "/puzzle?sitekey=a") Verifier.exChance
      ⟨0, .ofSeconds 1000⟩).1 = denial (exGet "/puzzle?sitekey=a") _ :=
    handle_of_denied demand?_exAsking hdenied
  rw [hwait, denial_never] at hanswer
  refine ⟨rfl, start_exBarred, demand?_exAsking, hdenied, hwait, ?_, hanswer⟩
  rintro seconds ⟨-, hnanos, hfew⟩
  simp only [Duration.never, Duration.limit] at hnanos hfew
  omega

end Server

end Tollgate
